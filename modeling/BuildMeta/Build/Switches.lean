import BuildMeta.Build.Configure
import BuildMeta.CommandLine.Parse
import BuildMeta.Ufid.Switches
import BuildMeta.VersionOrder

/-!
# The command line of a build

The switches that a build adds to those of the build tool, and the check that the tools are new
enough for the repository.
-/

namespace BuildMeta.Build

open CommandLine

namespace Switches

/-- The version of the tools. -/
def toolsVersion : String := "1.2"

/-- A switch that is off unless it is given. -/
def off (name help : String) : Switch :=
  { names := [name], action := .flag true, start := some (.bool false), help }

/-- A switch with a value among several. -/
def oneOf (name : String) (values : List String) (start : Option String) (help : String) : Switch :=
  { names := [name], action := .choice (values.map some), start := start.map Datum.str, help }

/-- A switch with a text as its value. -/
def text (name : String) (start : Option String) (help : String) : Switch :=
  { names := [name], start := start.map Datum.str, help }

/-- A switch with an integer as its value. -/
def number (name : String) (start : Int) (help : String) : Switch :=
  { names := [name], action := .integer, start := some (.int start), help }

/-- The switch that sets the number of jobs. -/
def jobs (count : Int) : Switch :=
  { names := ["-j", "--jobs"], action := .integer, start := some (.int count)
    help := "amount of parallel jobs (" ++ toString count ++ ")" }

/-- The switches for configuring. -/
def configuring (h : Host) : List Switch :=
  [off "--with-coverage" "generate a test coverage report using lcov"] ++ Ufid.switches h ++
  [off "--verify" "perform additional checks to verify repository structure",
    off "--use-dpkg-install" ("configure install options according to dpkg conventions (this " ++
      "options supercedes the options 'use-flat-include-dir', 'libdir', and 'lib-suffix')"),
    off "--use-flat-include-dir" ("install all headers into $PREFIX/include instead of " ++
      "$PREFIX/include/<package_group>, and change .pc files accordingly"),
    text "--libdir" (some "lib") ("the name of the directory under $PREFIX where library files " ++
      "are installed [default: %default]"),
    text "--bindir" (some "bin") ("the name of the directory under $PREFIX where binaries are " ++
      "installed [default: %default]"),
    text "--lib-suffix" (some "") ("(deprecated) add a suffix to the names of the package group " ++
      "library files being built [default: %default]"),
    text "--debug-opt-keys" none ("debug rules in the opts files for the specified (comma " ++
      "separated) list of opts keys"),
    oneOf "--werror" ["none", "cpp"] none ("whether to treat all compiler warning as errors when " ++
      "building with clang or gcc (cpp/none). none: don't enable -Werror, cpp: enable -Werror " ++
      "for .cpp files but not .t.cpp files [default value depends on compiler]")] ++
  if h.family == "win32" then
    [oneOf "--msvc-runtime-type" ["static", "dynamic"] (some "dynamic") ("whether to build using " ++
      "the static or dynamic version of the C run-time library on Windows [default: %default]")]
  else []

/-- The switches for test drivers. -/
def testing : List Switch :=
  [oneOf "--test" ["none", "build", "run", "changed"] (some "none") ("whether to build and run " ++
      "test drivers (none/build/run/changed) [default: %default]. none: don't build or run " ++
      "tests, build: build tests but don't run them, run: build and run tests, changed: run " ++
      "rebuilt tests only"),
    number "--test-v" 0 "verbosity level of test output [default: %default]",
    number "--test-j" 4 ("amount of parallel jobs used by the test runner [default: %default]. " ++
      "This value is independent of the number of jobs used by waf itself."),
    off "--show-test-out" "show output of tests even if they pass",
    number "--test-timeout" 200 "test driver timeout [default: %default]",
    off "--test-junit" ("create jUnit-style test results files for test drivers that are " ++
      "executed"),
    text "--coverage-out" none "output directory of the test coverage report",
    off "--valgrind" "use valgrind to run test drivers",
    oneOf "--valgrind-tool" ["memcheck", "helgrind", "drd"] (some "memcheck")
      "use valgrind tool (memchk/helgrind/drd) [default: %default]"]

/-- The switches for building. -/
def building : List Switch :=
  testing ++ [off "--clang-compilation-database" ("Generate a clang compilation database " ++
    "(compile_commands.json) in the build output directory")]

/-- The switches for installing. -/
def installing : List Switch :=
  [oneOf "--install-dep" ["yes", "no"] (some "yes") ("when doing a targeted install, whether to " ++
      "also install the dependencies of the targets (yes/no) [default: %default]"),
    oneOf "--install-parts" ["all", "lib", "bin", "h", "pc"] (some "all") ("what parts to " ++
      "install (all/h/lib/pc). all -- everything, lib -- lib files only, bin - executable files " ++
      "only, h -- header files only, pc -- pkg-config files only [default: %default]")]

/-- The switches for drawing. -/
def drawing : List Switch :=
  [text "--extract-nodes" none "extract the (comma separated list of) nodes from graph",
    oneOf "--trans-reduce" ["yes", "no"] (some "yes") ("whether to perform transitive reduction " ++
      "on graph (yes/no) [default: %default]"),
    text "--open-graph-with" none "open the generated graph with program"]

/-- The program with all switches, when the build tool would run a number of jobs. -/
def program (h : Host) (jobCount : Int) : Program where
  name := "waf"
  usage := "waf [commands]"
  switches := [helpSwitch, jobs (min jobCount 24),
    { names := ["--bde-tools-version"], action := .version ("BDE Tools version: " ++ toolsVersion) }]
  groups := [("configure options", configuring h), ("build and install options", building),
    ("Installation and uninstallation options", installing), ("Graph options", drawing)]

/-- What a repository that asks for other tools says. -/
def wrongVersion (least : String) (most : Option String) : String :=
  "This repo requires BDE Tools version of at least " ++ least ++
    (most.map (" and at most " ++ ·)).getD "" ++
    ". The current version is " ++ toolsVersion ++ "."

/-- Checks that the tools are of a version between the two that a repository names, if it names a
lower one. -/
def checkVersion (least most : Option String) : Step Unit := do
  match least.filter (· != "") with
  | none => return
  | some least =>
    unless VersionOrder.within toolsVersion (some least) most do
      Step.fatal (wrongVersion least (most.filter (· != "")))

/-- The tools of the build tool that bring their own switches, in the order of loading. -/
def tools : List String := [Configure.testTool, "compiler_c", "compiler_cxx", "msvs", "xcode"]

/-- Loads the switches of a repository that names versions of the tools. -/
def load (h : Host) (jobCount : Int) (least most : Option String) : Step Program := do
  checkVersion least most
  tools.forM fun tool => Step.record (.load tool)
  return program h jobCount

end Switches

end BuildMeta.Build
