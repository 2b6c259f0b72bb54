import BuildMeta.Text.Cut
import BuildMeta.Text.Pattern.Match
import BuildMeta.Text.Pattern.Reader

/-!
# Flag styles

Compilers and linkers differ in how a flag names a library, a library directory or an include
directory.  A style holds these forms, and the flags that switch between shared and static
libraries.
-/

namespace BuildMeta

/-- The form of a flag that holds a name: a pattern for the front of the flag.  The name is what the
first group of the pattern matches; there is none if a match passes the group by. -/
structure FlagForm where
  pattern : Text.Pattern
deriving Repr, BEq, DecidableEq, Inhabited

namespace FlagForm

/-- A name: it has no blank and no equals sign. -/
def namePattern : Text.Pattern :=
  let other (c : Char) : Text.CharSpan := .range c.toNat c.toNat
  .group 1 (.loop 1 none .most (.one { outside := true, spans := [other ' ', other '='] }))

/-- The form of a text followed by a name. -/
def leading (before : String) : FlagForm := ⟨.seq (.literal before) namePattern⟩

/-- The form that has to reach the end of the flag. -/
def closed (form : FlagForm) : FlagForm := ⟨.seq form.pattern (.anchor .lastLineEnd)⟩

/-- The form of a name followed by a text. -/
def trailing (after : String) : FlagForm := ⟨.seq namePattern (.literal after)⟩

/-- What stands in the place for the name, if the flag is of this form.  The form has to have such a
place then, but nothing need stand in it. -/
def name? (form : FlagForm) (flag : String) : Except Failure (Option (Option String)) :=
  match form.pattern.matchFront? flag with
  | none => .ok none
  | some m => if form.pattern.hasGroup 1 then .ok (some (m.group? 1)) else .error .outOfRange

/-- The form that a template describes as a pattern, in which a point stands for itself and `%s` for a
name; `nameEnds` asks that the flag ends with the name. -/
def ofTemplate (template : String) (nameEnds : Bool) : Except Failure FlagForm := do
  let name := if nameEnds then "([^ =]+)$" else "([^ =]+)"
  return ⟨← Text.Pattern.read {} ((template.replace "." "\\.").replace "%s" name)⟩

end FlagForm

/-- How flags are written. -/
structure FlagStyle where
  /-- The flag after which libraries are shared. -/
  sharedMarker : Option String
  /-- The flag after which libraries are static. -/
  staticMarker : Option String
  /-- The form that names a library. -/
  library : FlagForm
  /-- The form that names a library directory. -/
  libraryPath : FlagForm
  /-- The form that names an include directory. -/
  includePath : FlagForm
  /-- The two characters that open a macro definition, beside `-D`. -/
  define : String
deriving Repr, BEq, DecidableEq, Inhabited

namespace FlagStyle

/-- The style of the GNU tools. -/
def gnu : FlagStyle where
  sharedMarker := some "-Wl,-Bdynamic"
  staticMarker := some "-Wl,-Bstatic"
  library := (FlagForm.leading "-l").closed
  libraryPath := .leading "-L"
  includePath := .leading "-I"
  define := "-D"

/-- The style of the GNU tools, where a library name ends at a blank or equals sign. -/
def gnuOpen : FlagStyle := { gnu with library := .leading "-l" }

/-- The style of the tools of AIX. -/
def aix : FlagStyle :=
  { gnu with sharedMarker := some "-bdynamic", staticMarker := some "-bstatic" }

/-- The style of Visual Studio. -/
def visualStudio : FlagStyle where
  sharedMarker := none
  staticMarker := none
  library := (FlagForm.trailing ".lib").closed
  libraryPath := .leading "/LIBPATH:"
  includePath := .leading "/I"
  define := "/D"

end FlagStyle

end BuildMeta
