import BuildMeta.Notice
import BuildMeta.Rule.Line

/-!
# Reading option rules

A text of option rules is read line by line.  Comments and blank lines stand alone; any other line
opens a rule, which takes in the following lines as long as the current one ends in a backslash.
Reading stops at the first line that cannot open a rule.
-/

namespace BuildMeta.Rule

/-- What has been read so far. -/
structure Reading where
  /-- The rules in order. -/
  rules : List Rule := []
  /-- The lines in order, each with the position of the rule that it completes. -/
  lines : List (String × Option Nat) := []
  /-- Remarks on unsupported platforms, with line numbers. -/
  warnings : List (Nat × String) := []
  /-- The rule whose value goes on in the next line. -/
  pending : Option Rule := none
  /-- Why reading stopped early. -/
  failure : Option Failure := none
deriving Repr, BEq

namespace Reading

/-- Completes a rule with the line that ends it. -/
def complete (r : Reading) (rule : Rule) (line : String) : Reading :=
  { r with
    rules := r.rules ++ [{ rule with value := Text.trim rule.value }]
    lines := r.lines ++ [(line, some r.rules.length)]
    pending := none }

/-- Takes up a rule: keeps it open if it is continued, and completes it otherwise. -/
def take (r : Reading) (rule : Rule) (line : String) (continued : Bool) : Reading :=
  if continued then { r with pending := some rule } else r.complete rule line

/-- The remark on a rule for an unsupported platform. -/
def remark (uplid : Uplid) (line : String) : String :=
  "Encountered unsupported Uplid, \"" ++ uplid.render ++ "\", in \"" ++ line ++ "\""

/-- Reads a line that opens a rule. -/
def openRule (r : Reading) (number : Nat) (line : String) : Reading :=
  match lineForm? line with
  | none => { r with failure := some (.invalidRule number line "invalid format") }
  | some form =>
    match Uplid.parse form.uplid with
    | .error _ => { r with failure := some (.invalidRule number line "invalid UPLID") }
    | .ok uplid =>
      let r := if uplid.isSupported then r
        else { r with warnings := r.warnings ++ [(number, remark uplid line)] }
      r.take { command := form.command, uplid, ufid := Ufid.parse form.ufid, key := form.key,
               value := form.value } line form.continued

/-- Reads one line. -/
def step (r : Reading) (number : Nat) (line : String) : Reading :=
  match r.pending with
  | some rule =>
    let (more, continued) := cutContinuation line.toList
    r.take { rule with value := rule.value ++ String.ofList more } line continued
  | none =>
    if isCommentLine line.toList then { r with lines := r.lines ++ [(Text.trimEnd line, none)] }
    else r.openRule number line

/-- Reads lines with their numbers until one fails. -/
def steps (r : Reading) (number : Nat) : List String → Reading
  | [] => r
  | line :: rest =>
    let r := r.step number line
    if r.failure.isSome then r else r.steps (number + 1) rest

end Reading

/-- Reads a text of option rules. -/
def read (text : String) : Reading := ({} : Reading).steps 1 (Text.lines text)

/-- The rules of a text, or the failure at its first bad line. -/
def readAll (text : String) : Except Failure (List Rule) :=
  match read text with
  | { failure := some e, .. } => .error e
  | { rules, .. } => .ok rules

/-- The rules of the text of a file.  With `verbose`, unsupported platforms are remarked on. -/
def ofFile (path text : String) (verbose : Bool) : Logged (List Rule) := do
  let reading := read text
  if verbose then
    Logged.tellAll (reading.warnings.map fun (number, remark) =>
      .warn (path ++ " " ++ toString number ++ ": " ++ remark))
  match reading.failure with
  | some (.invalidRule line rule reason) => Logged.fail (.invalidRuleFile path line rule reason)
  | some e => Logged.fail e
  | none => return reading.rules

end BuildMeta.Rule
