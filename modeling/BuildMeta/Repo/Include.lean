import BuildMeta.Text.Cut

/-!
# Include directives

The headers that a source text includes with angle brackets.  Macros are not expanded.
-/

namespace BuildMeta.Include

/-- An include directive: the header, and the comment that ends its line. -/
structure Directive where
  header : String
  comment : Option String
deriving Repr, BEq, DecidableEq

/-- Drops leading white space. -/
def skip (s : List Char) : List Char := s.dropWhile Text.isBlank

/-- The text after a word at the front. -/
def after? (word s : List Char) : Option (List Char) :=
  if word.isPrefixOf s then some (s.drop word.length) else none

/-- The comment that ends a line, if the line ends properly. -/
def ending? (s : List Char) : Option (Option String) :=
  match skip s with
  | [] => some none
  | s => (after? "//".toList s).map fun comment => some (String.ofList (skip comment))

/-- The include directive in a line. -/
def directive? (line : String) : Option Directive := do
  let s ← after? "#include".toList (skip line.toList)
  let s ← after? "<".toList (skip s)
  let header := s.takeWhile (· != '>')
  guard (!header.isEmpty && header.length < s.length)
  let comment ← ending? (s.drop (header.length + 1))
  return { header := String.ofList header, comment }

/-- The comment on directives that only the test of a component needs. -/
def testComment : String := "for testing only"

/-- The headers that a text includes; those for testing only count if `tests` is set. -/
def headers (text : String) (tests : Bool) : List String :=
  ((Text.lines text).filterMap directive?).filterMap fun d =>
    if !tests && d.comment == some testComment then none else some d.header

end BuildMeta.Include
