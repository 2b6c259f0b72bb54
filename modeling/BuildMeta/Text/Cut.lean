import BuildMeta.Text.Classes

/-!
# Cutting and joining text

Splitting at a separator, at white space and at line ends; trimming; replacing a fixed word.  The
functions on `List Char` do the work; those on `String` wrap them.
-/

namespace BuildMeta.Text

/-! ## Trimming -/

/-- Drops the characters of class `p` at the end. -/
def trimEndWhile (p : Char → Bool) (s : List Char) : List Char := (s.reverse.dropWhile p).reverse

/-- Drops the characters of class `p` at both ends. -/
def trimWhile (p : Char → Bool) (s : List Char) : List Char := trimEndWhile p (s.dropWhile p)

/-- The text without white space at both ends. -/
def trim (s : String) : String := String.ofList (trimWhile isBlank s.toList)

/-- The text without white space at its end. -/
def trimEnd (s : String) : String := String.ofList (trimEndWhile isBlank s.toList)

/-! ## Splitting -/

/-- The parts between the separators; a text without separator is its own only part. -/
def split (sep : Char) (s : String) : List String := (s.toList.splitOn sep).map String.ofList

/-- Reading from the right: the word that stands at the front, and the words after it. -/
def wordsFront (p : Char → Bool) : List Char → List Char × List (List Char)
  | [] => ([], [])
  | c :: rest =>
    let (word, more) := wordsFront p rest
    if p c then ([], if word.isEmpty then more else word :: more) else (c :: word, more)

/-- The maximal non-empty runs of characters outside the class `p`. -/
def runsOutside (p : Char → Bool) (s : List Char) : List (List Char) :=
  let (word, more) := wordsFront p s
  if word.isEmpty then more else word :: more

/-- The words of a text, separated by white space. -/
def words (s : String) : List String := (runsOutside isBlank s.toList).map String.ofList

/-- Reading from the right: the line that stands at the front, and the lines after it.  Each line
keeps its newline. -/
def linesFront : List Char → List Char × List (List Char)
  | [] => ([], [])
  | c :: rest =>
    let (line, more) := linesFront rest
    if c == '\n' then (['\n'], if line.isEmpty then more else line :: more) else (c :: line, more)

/-- The lines of a text, each with its newline; the last one may lack it. -/
def fullLines (s : List Char) : List (List Char) :=
  let (line, more) := linesFront s
  if line.isEmpty then more else line :: more

/-- The lines of a text without their newlines. -/
def lines (s : String) : List String :=
  (fullLines s.toList).map fun l => String.ofList (trimEndWhile (· == '\n') l)

/-- Makes every line end a single newline. -/
def unifyNewlines : List Char → List Char
  | [] => []
  | '\r' :: '\n' :: rest => '\n' :: unifyNewlines rest
  | c :: rest => (if c == '\r' then '\n' else c) :: unifyNewlines rest

/-! ## Searching and replacing -/

/-- Whether `s` starts with `p`. -/
def startsWith (s p : String) : Bool := p.toList.isPrefixOf s.toList

/-- Whether `s` ends with `p`. -/
def endsWith (s p : String) : Bool := p.toList.isSuffixOf s.toList

/-- Whether `p` occurs in the text. -/
def hasInfix (p : List Char) : List Char → Bool
  | [] => p.isEmpty
  | c :: rest => p.isPrefixOf (c :: rest) || hasInfix p rest

/-- Whether `p` occurs in `s`. -/
def contains (s p : String) : Bool := hasInfix p.toList s.toList

/-- Replaces the occurrences of `old`, found from left to right; `skip` characters of an occurrence
are still to be passed. -/
def replaceFrom (old new : List Char) : Nat → List Char → List Char
  | _, [] => []
  | skip + 1, _ :: rest => replaceFrom old new skip rest
  | 0, c :: rest =>
    if old.isPrefixOf (c :: rest) then new ++ replaceFrom old new (old.length - 1) rest
    else c :: replaceFrom old new 0 rest

/-- Replaces every occurrence of the non-empty word `old`. -/
def replace (s old new : String) : String :=
  String.ofList (replaceFrom old.toList new.toList 0 s.toList)

/-- Replaces every character `a` by `b`. -/
def replaceChar (a b : Char) (s : String) : String :=
  String.ofList (s.toList.map fun c => if c == a then b else c)

/-- The text without its first `n` characters. -/
def drop (n : Nat) (s : String) : String := String.ofList (s.toList.drop n)

/-- The text without its last `n` characters. -/
def dropEnd (n : Nat) (s : String) : String := String.ofList (s.toList.take (s.length - n))

/-- The first `n` characters of the text. -/
def take (n : Nat) (s : String) : String := String.ofList (s.toList.take n)

/-- The text before the first `sep`, or all of it. -/
def before (sep : Char) (s : String) : String := String.ofList (s.toList.takeWhile (· != sep))

/-- The text, filled up with blanks on the right to `width`. -/
def padRight (width : Nat) (s : String) : String :=
  s ++ String.ofList (List.replicate (width - s.length) ' ')

/-- The text, filled up with blanks on the left to `width`. -/
def padLeft (width : Nat) (s : String) : String :=
  String.ofList (List.replicate (width - s.length) ' ') ++ s

/-! ## Order -/

/-- The order of lists of texts: text by text, a list before those that go on after it. -/
def textsLe : List String → List String → Bool
  | [], _ => true
  | _ :: _, [] => false
  | a :: as, b :: bs => decide (a < b) || (a == b && textsLe as bs)

/-- Sorts texts by code points. -/
def sort (xs : List String) : List String := xs.mergeSort (fun a b => decide (a ≤ b))

/-- The distinct members of a collection in code point order. -/
def sortedSet (xs : List String) : List String := sort xs.eraseDups

/-- The members joined by a separator. -/
def join (sep : String) (xs : List String) : String := sep.intercalate xs

end BuildMeta.Text
