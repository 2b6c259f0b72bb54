import BuildMeta.Text.Classes

/-!
# Quoted text

A text is quoted in single quotes, or in double quotes if it holds a single quote and no double
quote.  The backslash, the chosen quote, line ends, tabs and characters that do not print are
written as escapes.
-/

namespace BuildMeta.Text

/-- The lower-case hexadecimal digits of `n`, filled up with zeros to `width`. -/
def hexPadded (width n : Nat) : List Char :=
  let ds := Nat.toDigits 16 n
  List.replicate (width - ds.length) '0' ++ ds

/-- A character by its code. -/
def escape (c : Char) : List Char :=
  if c.toNat < 0x100 then ['\\', 'x'] ++ hexPadded 2 c.toNat
  else if c.toNat < 0x10000 then ['\\', 'u'] ++ hexPadded 4 c.toNat
  else ['\\', 'U'] ++ hexPadded 8 c.toNat

/-- One character of a quoted text. -/
def quoteChar (q c : Char) : List Char :=
  if c == q || c == '\\' then ['\\', c]
  else if c == '\t' then ['\\', 't']
  else if c == '\n' then ['\\', 'n']
  else if c == '\r' then ['\\', 'r']
  else if isPrintable c then [c]
  else escape c

/-- The quote that a text is put in. -/
def quoteFor (s : List Char) : Char :=
  if s.contains '\'' && !s.contains '"' then '"' else '\''

/-- The quoted text. -/
def quote (s : String) : String :=
  let q := quoteFor s.toList
  String.ofList ([q] ++ s.toList.flatMap (quoteChar q) ++ [q])

/-- The text with every character outside ASCII by its code. -/
def ascii (s : String) : String :=
  String.ofList (s.toList.flatMap fun c => if c.toNat < 0x80 then [c] else escape c)

end BuildMeta.Text
