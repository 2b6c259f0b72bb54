import BuildMeta.Build.Session
import BuildMeta.FileTree

/-!
# Coverage reports

How far the tests of a build cover its sources.  For each package, trace files are made from the
coverage data of its objects; the report is made from the trace files of all packages.
-/

namespace BuildMeta.Build

/-- What running the coverage tools needs. -/
structure CoverageBench where
  tree : FileTree
  marks : Palette
  /-- The exit status of the command with a number, counted from zero. -/
  status : Nat → Int
  /-- What a command prints. -/
  printed : String

/-- What a coverage report is made of. -/
structure CoverageJob where
  lcov : List String
  genhtml : List String
  repository : String
  buildDir : String
  /-- The directory of trace files. -/
  traceDir : String
  /-- The directory of the report. -/
  outDir : String
  objectDirs : List String
  sourceDirs : List String
deriving Repr, Inhabited

namespace CoverageJob

/-- A command with what it is for. -/
abbrev Task := List String × String

/-- The command line that all trace commands begin with. -/
def tracer (j : CoverageJob) : List String :=
  j.lcov ++ ["--quiet", "--no-checksum", "--no-external", "-b", j.buildDir]

/-- A trace file of a package. -/
def traceFile (j : CoverageJob) (package stage : String) : String :=
  Path.join j.traceDir (package ++ "_" ++ stage ++ ".info")

/-- The commands that trace a package: what could be run, what was run, both together, and that
without the test drivers. -/
def traceTasks (j : CoverageJob) (package objectDir sourceDir : String) : List Task :=
  let places := ["-d", objectDir, "-d", sourceDir]
  let file := j.traceFile package
  [(j.tracer ++ places ++ ["-c", "-i", "-o", file "base"],
      package ++ ": Building baseline trace file"),
    (j.tracer ++ places ++ ["-c", "-o", file "run"] ++ places,
      package ++ ": Building test-run trace file"),
    (j.tracer ++ ["-a", file "base", "-a", file "run", "-o", file "comb"],
      package ++ ": Combining trace files"),
    (j.tracer ++ ["--remove", file "comb", "*.t.cpp", "-o", file "filt"],
      package ++ ": Filtering trace file")]

/-- The number of commands for a package. -/
def tasksPerPackage : Nat := 4

/-- The command that makes the report. -/
def reportCommand (j : CoverageJob) (traces : List String) : List String :=
  j.genhtml ++ ["--function-coverage", "-t", "Coverage Test Results", "-p", j.repository,
    "-o", j.outDir] ++ traces

/-- Whether an event is the run of a program. -/
def isCall : Event → Bool
  | .call _ => true
  | _ => false

/-- Runs a command, which is the `number`-th of `total`. -/
def run (b : CoverageBench) (total number : Nat) (task : Task) : Step Int := do
  Step.say (.info ("[" ++ toString number ++ "/" ++ toString total ++ "] " ++
    b.marks.paint .yellow task.2))
  let status := b.status (((← get).newest.filter isCall).length)
  Step.record (.call task.1)
  if status != 0 && b.printed != "" then throw .wrongType
  return status

/-- Runs commands up to the first that fails; the result says whether none did. -/
def runAll (b : CoverageBench) (total number : Nat) : List Task → Step Bool
  | [] => return true
  | task :: rest => do
    if (← run b total number task) != 0 then return false
    runAll b total (number + 1) rest

/-- What became of the packages. -/
structure Outcome where
  traces : List String := []
  failed : List String := []
  empty : List String := []

/-- Traces a package. -/
def tracePackage (j : CoverageJob) (b : CoverageBench) (total number : Nat) (o : Outcome)
    (objectDir sourceDir : String) : Step Outcome := do
  let package := Path.baseName sourceDir
  let file := j.traceFile package "filt"
  let done ← runAll b total number (j.traceTasks package objectDir sourceDir)
  if !done || !b.tree.isPresent file then
    Step.record (.painted .red ("lcov failed for package \"" ++ package ++
      "\". Ignoring package..."))
    return { o with failed := o.failed ++ [package] }
  else if b.tree.files.get? (Path.normalize file) == some "" then
    Step.record (.painted .red ("Trace file is empty for package \"" ++ package ++
      "\". Ignoring package..."))
    return { o with empty := o.empty ++ [package] }
  else return { o with traces := o.traces ++ [file] }

/-- Traces packages. -/
def traceAll (j : CoverageJob) (b : CoverageBench) (total : Nat) (number : Nat) (o : Outcome) :
    List (String × String) → Step Outcome
  | [] => return o
  | (objectDir, sourceDir) :: rest => do
    let o ← tracePackage j b total number o objectDir sourceDir
    traceAll j b total (number + tasksPerPackage) o rest

/-- Shows the packages that the report leaves out. -/
def showIgnored (o : Outcome) : Step Unit := do
  unless o.empty.isEmpty && o.failed.isEmpty do
    Step.record (.painted .cyan "Ignored Packages")
    (Text.sort o.empty).forM fun p => Step.record (.painted .yellow ("  " ++ p ++ " (empty)"))
    (Text.sort o.failed).forM fun p => Step.record (.painted .red ("  " ++ p ++ " (failed)"))

/-- Makes the report; the result says whether there is one. -/
def report (j : CoverageJob) (b : CoverageBench) : Step Bool := do
  if j.objectDirs.length != j.sourceDirs.length then throw .violated
  let total := j.objectDirs.length * tasksPerPackage + 1
  Step.record (.painted .cyan "Generating Coverage Report")
  let o ← traceAll j b total 1 {} (j.objectDirs.zip j.sourceDirs)
  if o.traces.isEmpty then
    Step.record (.painted .red "No valid trace files.")
    return false
  if (← run b total total (j.reportCommand o.traces, "Generating html pages")) != 0 then
    return false
  showIgnored o
  Step.record (.painted .cyan "Generated Report")
  Step.record (.painted .yellow ("  " ++ Path.join j.outDir "index.html"))
  return true

end CoverageJob

end BuildMeta.Build
