import BuildMeta.Options.Defaults
import BuildMeta.Options.Evaluate
import BuildMeta.Options.Store
import BuildMeta.Ufid.Choice
import BuildMeta.Workload.Basic

/-!
# Workloads on option rules

Reading rules, evaluating them for one build, reading the default rules, and finding the flavour of
a build from its options.
-/

namespace BuildMeta.Workload

/-! ## Reading rules -/

/-- The lines of a rule; every seventh rule goes on in a second line. -/
def ruleLines (i : Nat) : List String :=
  let masks := ["*", "unix-linux-x86_64-3.10-gcc-4.9", "windows-windows_nt-*-*-cl-18.00",
    "unix-darwin-", "unix-*-*-*-clang"]
  let flavours := ["_", "dbg_exc_mt", "opt_exc_mt_64", "dbg_exc_mt_shr_cpp11"]
  let number := toString i
  let front := inTurn (Command.all.map Command.render) i ++ " " ++ inTurn masks i ++ " " ++
    inTurn flavours i ++ " KEY_" ++ number ++ " = "
  if i % 7 == 0 then [front ++ "part1 \\", "   part2_" ++ number]
  else [front ++ "value_" ++ number ++ " -Dfoo"]

/-- The parts of a rule as texts. -/
def ruleTexts (r : Rule) : Datum :=
  .strs [r.command.render, r.uplid.render, r.ufid.render, r.key, r.value]

/-- Reads a file of rules: the number of its lines, and its rules. -/
def readRules : Workload := ofRun fun _ size => do
  let text := unlines (["# option rules", ""] ++ (table size ruleLines).flatten)
  return .list [.int (Text.lines text).length, .list ((← Rule.readAll text).map ruleTexts)]

/-! ## Evaluating rules -/

/-- The first values of the options, which later rules change. -/
def seedRule (i : Nat) : String :=
  "!! * _ VAR_" ++ toString (i % 8) ++ " = seed" ++ toString i

/-- A rule that changes one of eight options by a value that refers to the next option.  Every
thirteenth rule is a substitution, which is passed over. -/
def changeRule (i : Nat) : String :=
  let masks := ["*", "unix-", "unix-linux-", "windows-", "unix-linux-x86_64-3.0-gcc-4.7"]
  let flavours := ["_", "dbg", "opt", "dbg_mt"]
  let name k := "VAR_" ++ toString (k % 8)
  let value := if i % 13 == 0 then "$(subst a,b,$(" ++ name (i + 1) ++ "))"
    else "tok" ++ toString i ++ " $(" ++ name (i + 1) ++ ")"
  inTurn (Command.all.map Command.render) i ++ " " ++ inTurn masks i ++ " " ++
    inTurn flavours i ++ " " ++ name i ++ " = " ++ value

/-- Which of some platforms and flavours satisfy masks. -/
def maskAnswers : Except Failure (List Datum) := do
  let uplid ← Uplid.parse "unix-linux-x86_64-3.10-gcc-4.9"
  let platforms ← ["*", "unix-", "unix-linux-*-3.0", "windows-", "unix-linux-*-*-gcc-4.7"].mapM
    fun mask => return Datum.bool (uplid.satisfies (← Uplid.parse mask))
  let ufid := Ufid.parse "dbg_exc_mt"
  let flavours := ["_", "dbg_mt", "opt", "mt_exc"].map fun mask =>
    Datum.bool (ufid.satisfies (Ufid.parse mask))
  return platforms ++ flavours

/-- Evaluates rules for one build: the values of all options, answers on masks, and the language
standards of two compilers. -/
def evaluateRules : Workload := ofRun fun bench size => do
  let rules ← Rule.readAll (unlines
    (["!! * _ ENVREF = $(BDE_MB_ENV_KEY)"] ++ table (max 8 (size / 6)) seedRule ++
      table size changeRule))
  let target : Options.Target :=
    { uplid := ← Uplid.parse "unix-linux-x86_64-3.10-gcc-4.9", ufid := Ufid.parse "dbg_exc_mt"
      shell := bench.host.shell }
  let (options, _) ← (Options.storeRules target ["VAR_0"] (.ofList [("BASE", "x")]) rules).outcome
  let environment := bench.environment.set "BDE_MB_ENV_KEY" "envval"
  let results ← (Options.evaluate options environment ["VAR_0"] ∅).outcome
  return .list
    [.list ((Text.sort results.keys).map fun key => .strs [key, results.getD key ""]),
      .list (← maskAnswers), .str (← Ufid.defaultStandard "gcc" (some "4.9")),
      .str (← Ufid.defaultStandard "gcc" (some "4.7"))]

/-! ## Default rules -/

/-- The parts of a rule, the flavour as its flags. -/
def ruleFlags (r : Rule) : Datum :=
  .list [.str r.key, .str r.value, .str r.uplid.render, r.ufid.view, .str r.command.render]

/-- Where a rule file cannot be read: its name and the line. -/
def faultPlace (path text : String) : Datum :=
  match (Rule.ofFile path text false).outcome with
  | .error (.invalidRuleFile path line ..) => .list [.str (Path.baseName path), .int line]
  | _ => .null

/-- Reads the default rules several times, then two faulty rule files and two unknown commands. -/
def defaultRules : Workload := ofRun fun bench size => do
  let once : Except Failure (List Datum) := do
    let rules ← (Options.defaults bench.tree false (bench.dir "tools")
      (bench.environment.getD "BDE_ROOT" "")).outcome
    return [.int rules.length, .list (rules.map ruleFlags), .bool (rules.all (·.key != ""))]
  let reads ← (List.replicate size once).mapM id
  let unknown (name : String) (x : Except Failure Command) : Datum :=
    match x with
    | .error _ => .str name
    | .ok c => .str c.render
  return .list (reads.flatten ++
    [faultPlace (bench.dir "bad.opts") "?? * _ KEY = value\n",
      faultPlace (bench.dir "bad2.opts") "!! a-b-c-d-e-f-g _ KEY = value\n",
      unknown "lookup1" (Command.parse "??"), unknown "lookup2" (Command.ofCode 99),
      .bool (Command.add == Command.insert)])

/-! ## Flavours -/

/-- The options of a build: four bits choose word size, build type, library type and standard; some
builds go without exceptions or are safe. -/
def buildOptions (i : Nat) : Table Datum :=
  let bit k (on off : String) : Datum := .str (if i / Nat.pow 2 k % 2 == 1 then on else off)
  .ofList [("ufid", .null), ("abi_bits", bit 0 "64" "32"), ("build_type", bit 1 "release" "debug"),
    ("library_type", bit 2 "shared" "static"), ("cpp_std", bit 3 "11" "03"),
    ("noexception", .bool (i % 3 == 0)), ("safe", .bool (i % 5 == 0)),
    ("safe2", .bool (i % 7 == 0))]

/-- Finds the flavours of builds, and reads flavours that are given as texts. -/
def flavours : Workload := ofRun fun _ size => do
  let rows ← (List.range size).mapM fun i => do
    let ufid ← Ufid.ofOptions (buildOptions i)
    return [Datum.str ufid.render, .bool ufid.isValid]
  let given (text : String) := Ufid.ofOptions (.ofList [("ufid", .str text)])
  return .list (rows.flatten ++
    [.str (← given "dbg_exc_mt").render, .str (← given "opt_exc_mt_64_cpp11").render,
      failureText (given "not_a_real_flag")])

end BuildMeta.Workload
