import BuildMeta.Path
import BuildMeta.Text.Case

/-!
# Ways of writing paths

On most machines the parts of a path are separated by slashes.  On Windows a backslash separates them
too, and is the one that is written; a path may begin with a drive, which is a letter with a colon or
the name of a shared directory on another machine.
-/

namespace BuildMeta.Path

/-- How a machine writes paths. -/
inductive Style where
  | posix
  | windows
deriving Repr, BEq, DecidableEq, Inhabited

namespace Windows

/-- Whether a character separates the parts of a path. -/
def isSeparator (c : Char) : Bool := c == '\\' || c == '/'

/-- Cuts a text before its second separator. -/
def cutShare (s : List Char) : List Char × List Char :=
  match s.dropWhile (!isSeparator ·) with
  | [] => (s, [])
  | c :: rest =>
    (s.takeWhile (!isSeparator ·) ++ c :: rest.takeWhile (!isSeparator ·),
      rest.dropWhile (!isSeparator ·))

/-- The length of what stands before the names of a machine and of its shared directory. -/
def shareLead (s : List Char) : Nat :=
  let front := (s.take 8).map fun c => if c == '/' then '\\' else c
  if Text.upper (String.ofList front) == "\\\\?\\UNC\\" then 8 else 2

/-- Cuts a path behind its drive. -/
def cutDrive (s : List Char) : List Char × List Char :=
  match s with
  | a :: b :: rest =>
    if isSeparator a && isSeparator b then
      let (share, rest) := cutShare (s.drop (shareLead s))
      (s.take (shareLead s) ++ share, rest)
    else if b == ':' then ([a, b], rest)
    else ([], s)
  | _ => ([], s)

/-- Puts a drive before a path; a shared directory is separated from what is in it. -/
def onDrive (drive path : List Char) : List Char :=
  if path.head?.any (!isSeparator ·) && drive.getLast?.any (· != ':') then drive ++ '\\' :: path
  else drive ++ path

/-- Puts a path behind another one. -/
def append (dir path : List Char) : List Char :=
  if dir.getLast?.any (!isSeparator ·) then dir ++ '\\' :: path else dir ++ path

/-- Joins a path to a directory.  A path on another drive replaces the directory, and one that begins
with a separator replaces all but the drive. -/
def join (dir path : String) : String :=
  let (drive, front) := cutDrive dir.toList
  let (ownDrive, back) := cutDrive path.toList
  let joined :=
    if back.head?.any isSeparator then
      onDrive (if ownDrive.isEmpty then drive else ownDrive) back
    else if ownDrive.isEmpty then onDrive drive (append front back)
    else if Text.lower (String.ofList ownDrive) == Text.lower (String.ofList drive) then
      onDrive ownDrive (append front back)
    else onDrive ownDrive back
  String.ofList joined

end Windows

/-- Joins a path to a directory, as a machine writes it. -/
def Style.join : Style → String → String → String
  | posix => Path.join
  | windows => Windows.join

end BuildMeta.Path
