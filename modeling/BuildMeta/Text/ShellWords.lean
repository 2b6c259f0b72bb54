import BuildMeta.Failure

/-!
# Words of a command text

Two ways to split a text into words at blanks.  In the shell's way quotes may stand anywhere in a
word and are removed, and a backslash takes the next character as it is.  In the plain way a quoted
word starts with its quote, ends with its closing quote, and keeps both.
-/

namespace BuildMeta.Text

/-- Whether a character separates words. -/
def isWordGap (c : Char) : Bool := [' ', '\t', '\r', '\n'].contains c

/-- Whether a character is a quote. -/
def isQuote (c : Char) : Bool := c == '\'' || c == '"'

/-- Where the reader of words stands. -/
inductive WordState where
  /-- Between words. -/
  | gap
  /-- In a word, outside quotes. -/
  | word
  /-- Inside quotes. -/
  | quoted (quote : Char)
  /-- After a backslash, perhaps inside quotes. -/
  | escaped (quote : Option Char)
deriving Repr, BEq, DecidableEq, Inhabited

/-- The words of a text in the shell's way; `word` is the reversed word begun. -/
def shellWordsFrom (state : WordState) (word : List Char) :
    List Char → Except Failure (List (List Char))
  | [] =>
    match state with
    | .gap => .ok []
    | .word => .ok [word.reverse]
    | .quoted _ | .escaped _ => .error .badValue
  | c :: rest =>
    match state with
    | .gap =>
      if isWordGap c then shellWordsFrom .gap [] rest
      else if c == '\\' then shellWordsFrom (.escaped none) [] rest
      else if isQuote c then shellWordsFrom (.quoted c) [] rest
      else shellWordsFrom .word [c] rest
    | .word =>
      if isWordGap c then do return word.reverse :: (← shellWordsFrom .gap [] rest)
      else if c == '\\' then shellWordsFrom (.escaped none) word rest
      else if isQuote c then shellWordsFrom (.quoted c) word rest
      else shellWordsFrom .word (c :: word) rest
    | .quoted q =>
      if c == q then shellWordsFrom .word word rest
      else if c == '\\' && q == '"' then shellWordsFrom (.escaped (some q)) word rest
      else shellWordsFrom (.quoted q) (c :: word) rest
    | .escaped none => shellWordsFrom .word (c :: word) rest
    | .escaped (some q) =>
      let word := if c == '\\' || c == q then c :: word else c :: '\\' :: word
      shellWordsFrom (.quoted q) word rest

/-- The words of a text in the shell's way. -/
def shellWords (s : String) : Except Failure (List String) := do
  return (← shellWordsFrom .gap [] s.toList).map String.ofList

/-- The words of a text in the plain way; `word` is the reversed word begun. -/
def plainWordsFrom (state : WordState) (word : List Char) :
    List Char → Except Failure (List (List Char))
  | [] =>
    match state with
    | .quoted _ => .error .badValue
    | _ => .ok (if word.isEmpty then [] else [word.reverse])
  | c :: rest =>
    match state with
    | .quoted q =>
      if c == q then do return (c :: word).reverse :: (← plainWordsFrom .gap [] rest)
      else plainWordsFrom (.quoted q) (c :: word) rest
    | .word =>
      if isWordGap c then do return word.reverse :: (← plainWordsFrom .gap [] rest)
      else plainWordsFrom .word (c :: word) rest
    | _ =>
      if isWordGap c then plainWordsFrom .gap [] rest
      else if isQuote c then plainWordsFrom (.quoted c) [c] rest
      else plainWordsFrom .word [c] rest

/-- The words of a text in the plain way. -/
def plainWords (s : String) : Except Failure (List String) := do
  return (← plainWordsFrom .gap [] s.toList).map String.ofList

end BuildMeta.Text
