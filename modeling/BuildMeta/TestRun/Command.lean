import BuildMeta.CommandLine.Parse
import BuildMeta.FileTree
import BuildMeta.Host
import BuildMeta.TestRun.Runner

/-!
# The command that runs a test driver
-/

namespace BuildMeta.TestRun

open CommandLine

/-- The command line of the command. -/
def program : Program :=
  { name := "bde_runtest.py"
    usage := "bde_runtest.py [options] test_driver_path"
    switches :=
      [helpSwitch,
        { names := ["--junit"], help := "output to the specified junit xml file" },
        { names := ["--jobs", "-j"], action := .integer, start := some (.int 4)
          help := "number of jobs to use" },
        { names := ["--debug", "-d"], action := .flag true
          help := "Print additional trace statements." },
        { names := ["--verbosity", "-v"], action := .integer, start := some (.int 0)
          help := "verbosity of the test driver -- pass a sequence of \"v\" characters having a " ++
            "length of the value of this argument to the test driver being executed." },
        { names := ["--valgrind"], action := .flag true
          help := "enable valgrind when running the test driver" },
        { names := ["--valgrind-tool"]
          action := .choice [some "memcheck", some "helgrind", some "drd"]
          start := some (.str "memcheck")
          help := "use valgrind tool: memchk, helgrind, or drd [default: %default]" },
        { names := ["--timeout"], action := .integer, start := some (.int 120)
          help := "timeout the test driver after a specified period in seconds" },
        { names := ["--filter-host-type"], action := .choice [some "VM", some "Physical"]
          help := "(default: \"HOST\" environment variable)" },
        { names := ["--filter-abi-bits"], action := .choice [some "32", some "64"]
          help := "(default: \"ABI_BITS\" environment variable)" }] }

/-- The kind of a host: as asked for, or as the environment says. -/
def hostType (environment : Table String) (asked : Option String) : String :=
  match asked with
  | some kind => if kind == "" then environment.getD "HOST" "Physical" else kind
  | none => environment.getD "HOST" "Physical"

/-- The plan that a command line asks for. -/
def plan (h : Host) (environment : Table String) (tree : FileTree) (words : List String) :
    Logged Plan := do
  let line ← program.parse words
  let value name := line.values.getD name .null
  match line.words with
  | [] => ⟨[.out (program.help ++ "\n")], .error (.stopped 1)⟩
  | path :: _ =>
    unless tree.isFile path do .die (path ++ " does not exist")
    let machine := Policy.machine h.system
      (hostType environment (value "filter_host_type").str?) (value "filter_abi_bits").str?
    return {
      path, debug := (value "debug").truthy
      verbosity := (value "verbosity").intD, timeout := (value "timeout").intD
      report := (value "junit").str?.filter (· != "")
      checker := if (value "valgrind").truthy then (value "valgrind_tool").str? else none
      policy := ← Policy.ofTable Policy.standardTable machine (componentOf path) }

/-- Runs the command: what the run did, and how the command ends. -/
def command (h : Host) (environment : Table String) (tree : FileTree) (words : List String)
    (attempts : List Attempt) : Run × Logged Nat :=
  let planned := plan h environment tree words
  match planned.outcome with
  | .ok p =>
    let run := p.run attempts
    (run, planned >>= fun _ => p.finish run)
  | .error e => ({}, ⟨planned.notices, .error e⟩)

end BuildMeta.TestRun
