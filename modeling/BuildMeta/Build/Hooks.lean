import BuildMeta.Build.Session

/-!
# Hooks

What a build adds to the task generators of the build tool, and the commands that it replaces.
-/

namespace BuildMeta.Build.Hooks

/-- Something that a hook asks of the build tool. -/
inductive Effect where
  /-- A task is created. -/
  | task (kind : String) (arguments : List Datum)
  /-- The outputs of the task created last are installed at a place. -/
  | installOutputs (place : Datum)
deriving Inhabited

/-- An effect by its kind and arguments, given the outputs of a task. -/
def Effect.view (outputs : List String) : Effect → Datum
  | task kind arguments => .list [.str "task", .str kind, .list arguments]
  | installOutputs place => .list [.str "install_files", .list [place, .strs outputs]]

/-- The external libraries of a generator with the coverage library among them. -/
def withCoverage (externals : Datum) : Except Failure Datum := do
  if !externals.truthy then return .strs ["GCOV"]
  if ← externals.holdsText "GCOV" then return externals
  match externals with
  | .list xs => return .list (xs ++ [.str "GCOV"])
  | _ => throw .wrongType

/-- The external libraries of a generator, with the coverage library in a build for coverage. -/
def coverageExternals (v : Variables) (externals : Datum) : Except Failure Datum :=
  if (v.value "with_coverage").truthy then withCoverage externals else .ok externals

/-- Adds the members of an attribute to a variable; an unset variable stays unset. -/
def extend (attributes : Table Datum) (key name : String) (v : Variables) :
    Except Failure Variables := do
  match attributes.get? key with
  | none => return v
  | some d =>
    let w ← v.extend name []
    let w ← w.extend name (← d.members)
    return if (v.getD name .null).isNull then v else w

/-- The variables with the include directories under a key and the library directories of a
generator. -/
def withPlaces (attributes : Table Datum) (includeKey : String) (v : Variables) :
    Except Failure Variables := do
  extend attributes "cust_libpaths" "STLIBPATH" (← extend attributes includeKey "INCLUDES" v)

/-- The test task for what a generator links. -/
def test (linked : Option Datum) : List Effect := (linked.map fun d => .task "utest" [d]).toList

/-- The task that writes a pkg-config file, given a name for the node of a target. -/
def pcFile (node : String → String) (attributes : Table Datum) : Except Failure (List Effect) :=
  match attributes.get? "target" with
  | none => .error .absentAttribute
  | some target =>
    let place := attributes.getD "install_path" .null
    .ok (.task "bdepc" [.null, .str (node target.text)] ::
      if place.truthy then [.installOutputs place] else [])

/-- Whether the commands of a task are run with reports on what they print. -/
def isReporting (replaced : Bool) (compiler : String) : Bool := replaced && compiler != "msvc"

/-! ## Listing targets -/

/-- The endings of the names of inner generators. -/
def innerEndings : List String := ["_lib", "_src", "_tst", "_pc"]

/-- The targets that are shown to the user. -/
def shownTargets (names : List String) : List String :=
  (Text.sortedSet names).filter fun n => !innerEndings.any (Text.endsWith n)

/-! ## The build directory -/

/-- The build directory that the environment names. -/
def buildDir? (environment : Table String) : Option String :=
  (environment.get? "BDE_WAF_BUILD_DIR").filter (· != "")

end BuildMeta.Build.Hooks
