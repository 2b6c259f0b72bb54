import BuildMeta.Build.Session
import BuildMeta.FileTree
import BuildMeta.Host

/-!
# Test tasks

Running test drivers as tasks of a build, and setting a build up for coverage data.
-/

namespace BuildMeta.Build.TestTask

/-! ## Running -/

/-- The status of a task that is not run. -/
def skipped : Int := -2

/-- The status of a task that is run. -/
def wanted : Int := -3

/-- Whether a test driver is run: never unless tests are to be run, always if all tests are, and else
as the build tool says. -/
def status (options : Table Datum) (usual : Int) : Except Failure Int := do
  let choice := (← options.attribute "test").str?
  if choice != some "run" && choice != some "changed" then return skipped
  return if usual == skipped && choice == some "run" then wanted else usual

/-- The arguments of the test runner for a test driver. -/
def arguments (options : Table Datum) (path : String) : Except Failure (List String) := do
  let words := ["--verbosity=" ++ (← options.attribute "test_v").text,
    "--timeout=" ++ (← options.attribute "test_timeout").text,
    "-j" ++ (← options.attribute "test_j").text, path]
  let report := (← options.attribute "test_junit").truthy
  let words := words ++ if report then ["--junit=" ++ path ++ "-junit.xml"] else []
  if !(← options.attribute "valgrind").truthy then return words
  return words ++ ["--valgrind", "--valgrind-tool=" ++ (← options.attribute "valgrind_tool").text]

/-- The variables that hold the search path for libraries. -/
def pathVariables (windows : Bool) (family : String) : List String :=
  if windows then ["PATH"]
  else if family == "darwin" then ["DYLD_LIBRARY_PATH", "LD_LIBRARY_PATH"]
  else ["LD_LIBRARY_PATH"]

/-- The environment of test drivers, which find the libraries of a build where it has linked them. -/
def environment (windows : Bool) (family : String) (outputs : List String) (e : Table String) :
    Table String :=
  let dirs := (outputs.map Path.dirName).eraseDups
  e.setAll ((pathVariables windows family).map fun name =>
    (name, Text.join ":" (dirs ++ [(e.get? name).getD ""])))

/-! ## Coverage data -/

/-- The ending of files with coverage data. -/
def countsEnding : String := ".gcda"

/-- The files with coverage data in a directory. -/
def countFiles (tree : FileTree) (dir : String) : List String :=
  tree.files.keys.filter fun p => Text.startsWith p (dir ++ "/") && Text.endsWith p countsEnding

/-- Sets a build up for running tests; the result lists the files that are removed. -/
def prepare (tree : FileTree) (buildDir : String) (options : Table Datum) : Step (List String) := do
  if (← options.attribute "test").str? != some "run" then return []
  let removed ← if ((← Step.vars).value "with_coverage").truthy then do
      Step.say (.info "Removing leftover gcda files...")
      pure (countFiles tree buildDir)
    else pure []
  Step.record .reportAfterwards
  return removed

/-- The compiler flags for coverage data. -/
def coverageCheck : List (String × Datum) :=
  [("cxxflags", .strs ["-fprofile-arcs", "-ftest-coverage"]), ("stlib", .strs ["gcov"]),
    ("uselib_store", .str "GCOV"), ("mandatory", .bool true)]

/-- The first member of a value. -/
def firstOf : Datum → Except Failure Datum
  | .list (d :: _) => .ok d
  | .str s => match s.toList with
    | c :: _ => .ok (.str c.toString)
    | [] => .error .outOfRange
  | .list [] => .error .outOfRange
  | .dict _ => .error .absentKey
  | _ => .error .wrongType

/-- Finds the coverage tools for the compiler. -/
def findTools : Step Unit := do
  Step.record (.checkCompiler coverageCheck)
  match (← get).environment.get? "PATH" with
  | none => throw .absentKey
  | some path =>
    let v ← Step.vars
    let places := ((← v.texts "CC").map Path.dirName).reverse ++ Text.split ':' path
    Step.record (.findProgram "gcov" (some places))
    Step.record (.findProgram "lcov" none)
    Step.record (.findProgram "genhtml" none)
    let gcov ← firstOf (v.value "GCOV")
    match v.value "LCOV" with
    | .list words =>
      Step.change fun v => v.put "LCOV" (.list (words ++ [.str "--gcov-tool", gcov]))
    | _ => throw .wrongType

/-- Configures a build for coverage data, if it is asked for. -/
def configure (options : Table Datum) : Step Unit := do
  let withCoverage ← options.attribute "with_coverage"
  if withCoverage.truthy then
    if ((← Step.vars).value "COMPILER_CC").str? == some "gcc" then findTools
    else Step.fatal "Coverage test is not supported on this compiler."
  Step.change fun v => v.put "with_coverage" withCoverage

end BuildMeta.Build.TestTask
