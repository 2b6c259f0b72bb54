import BuildMeta.Datum
import BuildMeta.Failure
import BuildMeta.Text.Cut

/-!
# Objects of other libraries

A library may list the generators of other libraries as its sources.  It is then made from their
objects, so that no source file is compiled twice.
-/

namespace BuildMeta.Build

/-- The generators by name, with the objects that each has compiled, if it compiles any. -/
abbrev KnownGenerators := Table (Option (List String))

/-- The names in a value: the words of a text, or the members of a list. -/
def namesIn : Datum → List String
  | .str s => Text.words s
  | d => d.texts

/-- Posts the generators that another one depends on, until one is not known. -/
def postAll (known : KnownGenerators) : List String → List String × Except Failure Unit
  | [] => ([], .ok ())
  | name :: rest =>
    if known.has name then
      let (posted, result) := postAll known rest
      (name :: posted, result)
    else ([], .error (.unknownGenerator name))

/-- The sources of a library after its generators have been taken out. -/
structure Reused where
  /-- The generators that were posted, in order. -/
  posted : List String
  sources : List String
  /-- The objects, if there are generators among the sources. -/
  objects : Option (List String)
deriving Repr, Inhabited

/-- Takes the generators among the sources of a library.  A library has either generators or source
files. -/
def reuse (known : KnownGenerators) (library : String) (sources : List String) :
    Except Failure Reused :=
  let (generators, files) := sources.partition known.has
  if generators.isEmpty then .ok { posted := [], sources := files, objects := none }
  else if !files.isEmpty then .error (.mixedSources library)
  else
    .ok { posted := generators, sources := []
          objects := some (generators.flatMap fun g => ((known.getD g none).getD [])) }

end BuildMeta.Build
