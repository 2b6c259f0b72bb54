import BuildMeta.Datum
import BuildMeta.FileTree
import BuildMeta.Repo.Include
import BuildMeta.Digraph.Basic

/-!
# Components

A component is a header with an implementation file of the same name, and often a test driver.
-/

namespace BuildMeta

/-- The language of a component's implementation. -/
inductive Language where
  | cxx
  | c
deriving Repr, BEq, DecidableEq, Inhabited

/-- A component. -/
structure Component where
  name : String
  language : Language := .cxx
  hasTestDriver : Bool := true
deriving Repr, BEq, DecidableEq, Inhabited

namespace Component

/-- The name of the header. -/
def header (c : Component) : String := c.name ++ ".h"

/-- The name of the implementation file. -/
def source (c : Component) : String :=
  c.name ++ match c.language with
    | .cxx => ".cpp"
    | .c => ".c"

/-- The name of the test driver. -/
def testDriver (c : Component) : String :=
  c.name ++ match c.language with
    | .cxx => ".t.cpp"
    | .c => ".t.c"

/-- The parts of a component by name. -/
def view (c : Component) : Datum :=
  .dict [("name", .str c.name), ("type", .str (match c.language with | .cxx => "cxx" | .c => "c")),
    ("has_test_driver", .bool c.hasTestDriver)]

/-- Finds the files of a component in the directory of its package. -/
def load (tree : FileTree) (package name : String) : Except Failure Component :=
  let base := Path.join package name
  if !tree.isFile (base ++ ".h") then .error (.missingHeader (base ++ ".h"))
  else if tree.isFile (base ++ ".cpp") then
    .ok { name, language := .cxx, hasTestDriver := tree.isFile (base ++ ".t.cpp") }
  else if tree.isFile (base ++ ".c") then
    .ok { name, language := .c, hasTestDriver := tree.isFile (base ++ ".t.c") }
  else .error (.missingImplementation (base ++ ".h"))

/-- The headers that the files of a component include; test drivers count if `tests` is set. -/
def includes (tree : FileTree) (package : String) (tests : Bool) (c : Component) :
    Except Failure (List String) := do
  let headers (file : String) : Except Failure (List String) := do
    return Include.headers (← tree.read (Path.join package file)) tests
  let fromHeader ← headers c.header
  let fromSource ← headers c.source
  let fromTest ← if tests && c.hasTestDriver then headers c.testDriver else pure []
  return fromHeader ++ fromSource ++ fromTest

/-- The components among `components`, other than `c`, whose headers are listed. -/
def used (components : List Component) (c : Component) (headers : List String) : List String :=
  Text.sortedSet ((components.filter fun d => d.name != c.name && headers.contains d.header).map
    Component.name)

/-- The graph of which component of a package includes which. -/
def digraph (tree : FileTree) (package : String) (components : List Component) (tests : Bool) :
    Except Failure Digraph := do
  let nodes ← components.mapM fun c => do
    return (c.name, used components c (← c.includes tree package tests))
  return Table.ofList nodes

end Component

end BuildMeta
