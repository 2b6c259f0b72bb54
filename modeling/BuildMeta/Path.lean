import BuildMeta.Text.Cut

/-!
# Paths

Paths are texts with parts separated by slashes.
-/

namespace BuildMeta.Path

/-- Whether a path starts at the root. -/
def isAbsolute (p : String) : Bool := Text.startsWith p "/"

/-- Joins a path to a directory; an absolute path replaces the directory. -/
def join (dir path : String) : String :=
  if isAbsolute path then path
  else if dir == "" || Text.endsWith dir "/" then dir ++ path
  else dir ++ "/" ++ path

/-- Joins several paths in turn. -/
def joinAll (dir : String) (paths : List String) : String := paths.foldl join dir

/-- The part after the last slash. -/
def baseName (p : String) : String :=
  String.ofList (p.toList.reverse.takeWhile (· != '/')).reverse

/-- The part before the last slash, without slashes at its end unless it has nothing else. -/
def dirName (p : String) : String :=
  let front := (p.toList.reverse.dropWhile (· != '/')).reverse
  let cut := Text.trimEndWhile (· == '/') front
  String.ofList (if cut.isEmpty then front else cut)

/-- The parts of a path that matter for where it leads: no empty parts and no single dots; a
double dot takes back the part before it, and is dropped at the root. -/
def resolveParts (absolute : Bool) (parts : List String) : List String :=
  parts.foldl (fun done part =>
    if part == "" || part == "." then done
    else if part == ".." then
      match done.getLast? with
      | none => if absolute then done else done ++ [part]
      | some last => if last == ".." then done ++ [part] else done.dropLast
    else done ++ [part]) []

/-- The shortest form of a path. -/
def normalize (p : String) : String :=
  if p == "" then "."
  else
    let absolute := isAbsolute p
    let lead :=
      if !absolute then ""
      else if Text.startsWith p "//" && !Text.startsWith p "///" then "//" else "/"
    let body := lead ++ Text.join "/" (resolveParts absolute (Text.split '/' p))
    if body == "" then "." else body

/-- The parts that two lists share at their front. -/
def commonFront : List String → List String → List String
  | a :: as, b :: bs => if a == b then a :: commonFront as bs else []
  | _, _ => []

/-- The path that leads from directory `start` to `p`, both absolute. -/
def relative (p start : String) : String :=
  let target := (Text.split '/' (normalize p)).filter (· != "")
  let source := (Text.split '/' (normalize start)).filter (· != "")
  let shared := (commonFront source target).length
  let steps := List.replicate (source.length - shared) ".." ++ target.drop shared
  if steps.isEmpty then "." else Text.join "/" steps

/-- The file extension with its dot; dots at the front of the name do not count. -/
def extension (p : String) : String :=
  let base := (baseName p).toList.dropWhile (· == '.')
  if base.contains '.' then
    String.ofList ('.' :: (base.reverse.takeWhile (· != '.')).reverse)
  else ""

end BuildMeta.Path
