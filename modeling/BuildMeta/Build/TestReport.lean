import BuildMeta.Build.Coverage

/-!
# Reports on tests

The summary of the test drivers that a build has run, and the coverage report after it.
-/

namespace BuildMeta.Build

/-- How a test driver ended. -/
structure TestResult where
  path : String
  /-- Whether it ended well. -/
  passed : Bool
  output : String
  /-- How many seconds it took. -/
  seconds : Datum
  /-- The source file of the test driver. -/
  source : String
deriving Inhabited

namespace TestReport

/-- Two digits at least. -/
def twoDigits (n : Int) : String := (if 0 ≤ n && n < 10 then "0" else "") ++ toString n

/-- Minutes and seconds. -/
def clock (minutes seconds : Int) : String := twoDigits minutes ++ ":" ++ twoDigits seconds

/-- How long an exact number of seconds is. -/
def wholeDuration (seconds : Int) : String :=
  if seconds / 60 == 0 then toString (seconds * 1000) ++ "ms"
  else clock (seconds / 60) (seconds % 60)

/-- How long a number of seconds is, as a binary number. -/
def binaryDuration (seconds : Binary64) : Except Failure String := do
  let (minutes, rest) := seconds.divMod 60
  if minutes.isZero then return toString (← (seconds.times 1000).truncate) ++ "ms"
  return clock (← minutes.truncate) (← rest.truncate)

/-- A duration in milliseconds, or in minutes and seconds from one minute on. -/
def duration : Datum → Except Failure String
  | .real x => binaryDuration x
  | d =>
    match d.number? with
    | some n => .ok (wholeDuration n)
    | none => .error .wrongType

/-- Shows the output of a test driver. -/
def showOutput (color : Color) (r : TestResult) : Step Unit := do
  Step.record (.painted color ("[" ++ r.path ++ " (TEST)] <<<<<<<<<<"))
  Step.say (.info r.output)
  Step.record (.painted color ">>>>>>>>>>")

/-- Shows how the test drivers ended; the result is the number of failures. -/
def summary (marks : Palette) (showAll : Bool) (results : List TestResult) : Step Nat := do
  let (passed, failed) := results.partition (·.passed)
  let total := toString results.length
  Step.record (.painted .cyan "Test Summary")
  Step.record (.painted .cyan ("  tests that pass " ++ toString passed.length ++ "/" ++ total))
  passed.forM fun r =>
    if showAll then showOutput .yellow r
    else do
      let took ← duration r.seconds
      Step.say (.info (marks.paint .green r.path ++ " " ++ marks.paint .yellow ("(" ++ took ++ ")")))
  Step.record (.painted .cyan ("  tests that fail " ++ toString failed.length ++ "/" ++ total))
  failed.forM (showOutput .red)
  return failed.length

/-- The directories of the test drivers, each with the source directory of its first one. -/
def directories (results : List TestResult) : List (String × String) :=
  (results.foldl (fun dirs r =>
    let dir := Path.dirName r.path
    if dirs.any (·.1 == dir) then dirs else dirs ++ [(dir, Path.dirName r.source)])
    ([] : List (String × String)))

/-- What a report is made for. -/
structure Job where
  results : List TestResult
  /-- Whether the output of all test drivers is shown. -/
  showAll : Bool
  withCoverage : Bool
  repository : String
  buildDir : String
  /-- The directory of the coverage report, if it is not the usual one. -/
  coverageDir : Option String
  lcov : List String
  genhtml : List String
  /-- How long the build took. -/
  elapsed : String

/-- The coverage report of a job. -/
def coverageJob (j : Job) : CoverageJob :=
  let traceDir := Path.join j.buildDir "_test_coverage"
  let dirs := directories j.results
  { lcov := j.lcov, genhtml := j.genhtml, repository := j.repository, buildDir := j.buildDir
    traceDir, outDir := (j.coverageDir.filter (· != "")).getD (Path.join traceDir "report")
    objectDirs := dirs.map Prod.fst, sourceDirs := dirs.map Prod.snd }

/-- Reports on the tests of a build, and fails if a test has failed or there is no coverage
report. -/
def steps (b : CoverageBench) (j : Job) : Step Unit := do
  let failures ← summary b.marks j.showAll j.results
  if failures == 0 then Step.say (.info "All tests passed.")
  let failed := if failures == 0 then ""
    else toString failures ++ "/" ++ toString j.results.length ++ " tests have failed."
  let covered ← if j.withCoverage then (coverageJob j).report b else pure true
  if failures != 0 || !covered then
    Step.fatal (failed ++ (if covered then "" else "\nFailed to generate coverage report.") ++
      " (" ++ j.elapsed ++ ")")

end TestReport

end BuildMeta.Build
