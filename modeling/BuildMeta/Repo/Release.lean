import BuildMeta.Repo.SourceUnit
import BuildMeta.Text.Case
import BuildMeta.Text.Integer
import BuildMeta.Text.Pattern.Match
import BuildMeta.Text.Pattern.Reader

/-!
# Releases

The documentation and the version of a unit of release.  Version numbers stand in macro definitions
of the unit's sources; instead of a number a unit may name the unit whose version it shares.
-/

namespace BuildMeta.Release

/-! ## Documentation -/

/-- The text after the first colon of a line, up to the next one. -/
def afterColon? (line : String) : Option String :=
  ((Text.split ':' line)[1]?).map Text.trim

/-- Reads purpose and mnemonic from the lines of a documentation file, until both are known. -/
def docFrom (purpose mnemonic : String) : List String → Option UnitDoc
  | [] => none
  | line :: rest =>
    let next : Option (String × String) :=
      if Text.startsWith line "@PURPOSE" then (afterColon? line).map fun p => (p, mnemonic)
      else if Text.startsWith line "@MNEMONIC" then (afterColon? line).map fun m => (purpose, m)
      else some (purpose, mnemonic)
    match next with
    | none => none
    | some (purpose, mnemonic) =>
      if purpose != "" && mnemonic != "" then some { mnemonic, description := purpose }
      else docFrom purpose mnemonic rest

/-- The documentation of the unit `name` in the directory `path`. -/
def doc (tree : FileTree) (name path : String) : UnitDoc :=
  let missing : UnitDoc := { mnemonic := name, description := "N/A" }
  match tree.read (Path.joinAll path ["doc", name ++ ".txt"]) with
  | .ok text => (docFrom "" "" (Text.lines text)).getD missing
  | .error _ => missing

/-! ## Macro definitions -/

/-- The value in the first definition of the macro `name` followed by `ending`.  The definition takes a
whole line.  The name is read as a pattern, and if it has groups of its own, the first of them is taken
for the value. -/
def macroValue (name ending text : String) : Except Failure (Option String) := do
  let pattern ← Text.Pattern.read { lines := true }
    ("^\\s*#define\\s+" ++ name ++ ending ++ "\\s+(\\S+)\\s*$")
  return (pattern.search? text).bind (·.group? 1)

/-! ## Versions -/

/-- The parts of a version as they stand in the sources. -/
structure VersionTag where
  major : Option String
  minor : Option String
  patch : Option String
deriving Repr, BEq, DecidableEq

/-- The units whose patch number has a file of its own. -/
def hasPatchFile (name : String) : Bool := ["bde", "bsl", "hsl"].contains name

/-- The units whose patch number has a macro name of its own. -/
def hasPatchMacro (name : String) : Bool := ["bde", "bsl"].contains name

/-- The files that hold the version of a unit: that of the major and minor number, and that of the
patch number. -/
def versionFiles (u : SourceUnit) : String × String :=
  if u.kind.isPackage then
    (Path.join u.path (u.name ++ "_versiontag.h"), Path.join u.path (u.name ++ "_version.cpp"))
  else
    let scm := Path.join u.path (u.name ++ "scm")
    (Path.join scm (u.name ++ "scm_versiontag.h"),
      Path.join scm (u.name ++
        if hasPatchFile u.name then "scm_patchversion.h" else "scm_version.cpp"))

/-- The version of a unit as it stands in its sources. -/
def versionTag (tree : FileTree) (u : SourceUnit) : Except Failure VersionTag := do
  let (tagFile, patchFile) := versionFiles u
  let tags ← tree.read tagFile
  let patches ← tree.read patchFile
  let name := Text.upper u.name
  let major ← macroValue name "_VERSION_MAJOR" tags
  let minor ← macroValue name "_VERSION_MINOR" tags
  let patch ← macroValue name
    (if hasPatchMacro u.name then "SCM_PATCHVERSION_PATCH" else "_VERSION_PATCH") patches
  return { major, minor, patch }

/-- Whether a part is a number; it has to be there. -/
def isNumber (part : Option String) : Except Failure Bool :=
  match part with
  | some s => .ok (Text.isInteger s)
  | none => .error .wrongType

/-- Whether all parts are numbers; parts after one that is not are not looked at. -/
def isNumeric (tag : VersionTag) : Except Failure Bool := do
  if !(← isNumber tag.major) then return false
  if !(← isNumber tag.minor) then return false
  isNumber tag.patch

/-- The version that a tag of numbers gives. -/
def VersionTag.release? (tag : VersionTag) : Except Failure (Option ReleaseVersion) := do
  if !(← isNumeric tag) then return none
  return some { major := tag.major.getD "", minor := tag.minor.getD "", patch := tag.patch.getD "" }

/-- The versions that are known already. -/
abbrev Known := Table (Option ReleaseVersion)

/-- The unit whose version a unit shares, by its name in the major number. -/
def referredName (tag : VersionTag) : String :=
  Text.lower (((Text.split '_' (tag.major.getD "")).head?).getD "")

/-- The version of a unit among the units of release, and what is known afterwards.  What was
learned before a failure stays known. -/
def version (tree : FileTree) (units : Table SourceUnit) (u : SourceUnit) (known : Known) :
    Known × Except Failure (Option ReleaseVersion) :=
  match known.get? u.name with
  | some v => (known, .ok v)
  | none =>
    let own : Except Failure (VersionTag × Option ReleaseVersion) := do
      let tag ← versionTag tree u
      return (tag, ← tag.release?)
    match own with
    | .error _ => (known.set u.name none, .ok none)
    | .ok (_, some v) => (known.set u.name (some v), .ok (some v))
    | .ok (tag, none) =>
      let name := referredName tag
      if name == u.name then (known.set u.name none, .ok none)
      else
        let referred : Except Failure (Known × Option ReleaseVersion) :=
          match known.get? name with
          | some v => .ok (known, v)
          | none => do
            let other ← (units.get? name).elim (.error .absentKey) .ok
            let v ← (← versionTag tree other).release?
            return (known.set name v, v)
        match referred with
        | .error e => (known, .error e)
        | .ok (known, v) => (known.set u.name v, .ok v)

end BuildMeta.Release
