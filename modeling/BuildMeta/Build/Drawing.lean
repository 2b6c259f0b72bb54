import BuildMeta.Build.Describe
import BuildMeta.Digraph.Dot

/-!
# Drawing dependencies

Draws the dependencies of a repository, of a group or of a package.
-/

namespace BuildMeta.Build

/-- What drawing needs of the machine. -/
structure Desk where
  tree : FileTree
  /-- The directory of the build. -/
  buildDir : String
  /-- Whether a file can be run. -/
  executable : String → Bool
  /-- Runs a program, and returns its exit status. -/
  run : List String → Except Failure Int

namespace Drawing

/-- A component without the name of its package. -/
def shortName (package component : String) : String :=
  if Text.startsWith component (package ++ "_") then Text.drop (package.length + 1) component
  else component

/-- The graph of the components of a package, with short names. -/
def componentGraph (tree : FileTree) (name path : String) (components : List Component) :
    Except Failure Digraph := do
  let g ← Component.digraph tree path components false
  return Table.ofList (g.entries.map fun (n, cs) => (shortName name n, cs.map (shortName name)))

/-- Runs a program. -/
def call (d : Desk) (words : List String) : Step Int := do
  Step.record (.call words)
  d.run words

/-- Shows a drawing with a program. -/
def openWith (d : Desk) (words : List String) : Step Unit :=
  tryCatch (do let _ ← call d words) fun e =>
    Step.say (.warn ("Cannot execute command " ++ (Datum.strs words).repr ++ ". Exception: " ++
      e.message ++ "."))

/-- Writes the drawing of a graph, and turns it into a picture if there is a program for it. -/
def draw (d : Desk) (r : Request) (program : Option String) (g : Digraph)
    (name fileName : String) : Step Unit := do
  let out ← Configure.listed (r.option "extract_nodes")
  let text ← (g.draw name out ((r.option "trans_reduce").strD == "yes") : Logged String)
  let file := Path.joinAll d.buildDir ["_dot_graph", fileName]
  modify fun s => { s with written := s.written.set (fileName ++ ".dot") text }
  let words := [program.getD "dot", "-Tgif", file ++ ".dot", "-o", file ++ ".gif"]
  if program.isNone then
    Step.say (.warn "Can not find the program \"dot\" in the \"PATH\" environment variable.")
    Step.say (.warn
      "Please run the following command manually to generate the dependency graph.")
    Step.say (.warn (Text.join " " words))
  else if (← call d words) != 0 then
    Step.say (.warn ("Failed to run " ++ (Datum.strs words).repr))
  else
    Step.say (.warn ("Generated dot file:\n" ++ file ++ ".dot"))
    Step.say (.warn ("Generated graph:\n" ++ file ++ ".gif"))
    if let some viewer := (r.option "open_graph_with").str?.filter (· != "") then
      openWith d [viewer, file ++ ".gif"]

/-- The warning that a target has no drawing. -/
def noDrawing : Notice :=
  .warn ("Graph target must be either empty, a package group, or a package that is not a + package.")

/-- Draws the target of a request. -/
def steps (d : Desk) (r : Request) (b : BuildConfig) : Step Unit := do
  let dir ← Host.programDir? (← get).environment d.executable "dot"
  let draw := draw d r ((dir.filter (· != "")).map (Path.join · "dot"))
  let target := r.targets
  if target == "" || target == "*" then draw b.releaseGraph "UORs" "__all__"
  else if b.groups.has target then
    draw (← (b.packageGraph target : Except Failure Digraph)) target target
  else
    let drawPackage (path : String) (components : List Component) : Step Unit := do
      draw (← (componentGraph d.tree target path components : Except Failure Digraph)) target target
    match b.standAlones.get? target, b.inners.get? target with
    | some k, _ => drawPackage k.path k.components
    | none, some k => if k.kind == .plus then Step.say noDrawing else drawPackage k.path k.components
    | none, none => Step.say noDrawing

end Drawing

/-- Performs a request on a configured repository. -/
def perform (d : Desk) (r : Request) (c : Configured) : Step Unit :=
  Step.rewording Describe.asFatal <|
    if r.command == "graph" then Drawing.steps d r c.build else Describe.steps r c

end BuildMeta.Build
