import BuildMeta.Failure
import BuildMeta.Path
import BuildMeta.Table

/-!
# File trees

A file tree holds the texts of files under absolute paths, and the directories.  Every directory on
the way to a file or directory of the tree is in the tree too.
-/

namespace BuildMeta

/-- Files with their texts, and directories, all under shortest absolute paths. -/
structure FileTree where
  files : Table String
  dirs : List String
deriving Repr, Inhabited

namespace FileTree

/-- The directories on the way to a path, given its parts: the root and every proper front part. -/
def ancestors (p : String) : List String :=
  let parts := (Text.split '/' p).filter (· != "")
  (List.range parts.length).map fun n => "/" ++ Text.join "/" (parts.take n)

/-- The tree with the given files and directories, whose paths are relative to `root`. -/
def build (root : String) (files : Table String) (dirs : List String) : FileTree :=
  let place (p : String) : String := Path.normalize (Path.join root p)
  let files := Table.ofList (files.entries.map fun (p, text) => (place p, text))
  let dirs := place "" :: dirs.map place
  { files, dirs := (dirs ++ (dirs ++ files.keys).flatMap ancestors).eraseDups }

/-- Whether a path ends in a slash, and so can only name a directory. -/
def endsInSlash (p : String) : Bool := Text.endsWith p "/"

/-- Whether a path leads to a file. -/
def isFile (t : FileTree) (p : String) : Bool :=
  p != "" && !endsInSlash p && t.files.has (Path.normalize p)

/-- Whether a path leads to a directory. -/
def isDir (t : FileTree) (p : String) : Bool := p != "" && t.dirs.contains (Path.normalize p)

/-- Whether a path leads anywhere. -/
def isPresent (t : FileTree) (p : String) : Bool := t.isFile p || t.isDir p

/-- Why a path cannot be followed to a file or directory. -/
def absence (t : FileTree) (p : String) : Failure :=
  let whole := Path.normalize p
  if (ancestors whole).any t.files.has || endsInSlash p && t.files.has whole
  then .notDirectory p else .noSuchFile p

/-- The text of a file with unified line ends. -/
def read (t : FileTree) (p : String) : Except Failure String :=
  if t.isDir p then .error (.isDirectory p)
  else if t.isFile p then
    .ok (String.ofList (Text.unifyNewlines (t.files.getD (Path.normalize p) "").toList))
  else .error (t.absence p)

/-- The last part of `p` if it lies directly in the directory `dir`. -/
def nameIn? (dir p : String) : Option String :=
  if p != "/" && Path.dirName p == dir then some (Path.baseName p) else none

/-- The names of the files and directories in a directory, in code point order. -/
def list (t : FileTree) (p : String) : List String :=
  let dir := Path.normalize p
  Text.sortedSet ((t.files.keys ++ t.dirs).filterMap (nameIn? dir))

/-- The names of the directories in a directory, in code point order. -/
def subdirs (t : FileTree) (p : String) : List String :=
  Text.sortedSet (t.dirs.filterMap (nameIn? (Path.normalize p)))

/-- The names in a directory that end in `ending` and do not start with a dot. -/
def listEnding (t : FileTree) (p ending : String) : List String :=
  (t.list p).filter fun name => Text.endsWith name ending && !Text.startsWith name "."

end FileTree

end BuildMeta
