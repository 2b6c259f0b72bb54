import BuildMeta.Rule.Reader

/-!
# Formatting option rules

The formatter prints the comments and blank lines of a text as they are.  The parts of a rule have
no padded form, so it fails at the first rule.
-/

namespace BuildMeta.Rule

/-- How the formatter is called. -/
def formatUsage : String :=
  "Usage: cat <opts_file> | bde_opts_format.py\n\n" ++
  "Format the text from stdin in the options file format, which is used by opts\n" ++
  "and defs meta-data files, and print the result to stdout.\n\n" ++
  "The formatter aligns each section of the option rules using two spaces as\n" ++
  "padding. Comments and blank lines will be left in-place unmodified.\n"

/-- Prints lines up to the first that holds a rule. -/
def formatLines : List (String × Option Nat) → Logged Unit
  | [] => return
  | (_, some _) :: _ => Logged.fail .wrongType
  | (line, none) :: rest => do
    Logged.tell (.info line)
    formatLines rest

/-- Formats a text of option rules; the formatter takes no arguments. -/
def format (arguments : List String) (text : String) : Logged Unit := do
  if !arguments.isEmpty then Logged.die formatUsage
  let reading := read text
  if let some e := reading.failure then Logged.fail e
  formatLines reading.lines

end BuildMeta.Rule
