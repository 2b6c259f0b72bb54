import BuildMeta.FileTree

/-!
# Listings

A listing is a text of names separated by white space.  The rest of a line after `#` is a comment,
and the line `#LEGACY` ends the listing.
-/

namespace BuildMeta.Listing

/-- The names in a line. -/
def namesIn (line : String) : List String := Text.words (Text.before '#' line)

/-- The names in a text. -/
def names (text : String) : List String :=
  ((Text.lines text).takeWhile (· != "#LEGACY")).flatMap namesIn

/-- The names in a file; there are none if the file cannot be read. -/
def load (tree : FileTree) (path : String) : List String :=
  match tree.read path with
  | .ok text => names text
  | .error _ => []

/-- The distinct names in a file, in code point order. -/
def loadSet (tree : FileTree) (path : String) : List String := Text.sortedSet (load tree path)

end BuildMeta.Listing
