import BuildMeta.Datum
import BuildMeta.Flags.Style

/-!
# Sorting flags

Compiler flags are sorted into include directories and other flags; linker flags into library
directories, static and shared libraries and other flags.  Every part keeps the order of the flags.
A flag whose form leaves out the name counts with its kind, and an empty place stands for it.
-/

namespace BuildMeta

/-- The parts of a list of compiler flags. -/
structure CompileParts where
  includes : List (Option String) := []
  flags : List String := []
deriving Repr, BEq, DecidableEq, Inhabited

/-- The parts of a list of linker flags. -/
structure LinkParts where
  stlibs : List (Option String) := []
  libs : List (Option String) := []
  libpaths : List (Option String) := []
  flags : List String := []
deriving Repr, BEq, DecidableEq, Inhabited

/-- The parts by name. -/
def CompileParts.view (p : CompileParts) : Datum :=
  .dict [("includes", .optStrs p.includes), ("flags", .strs p.flags)]

/-- The parts by name. -/
def LinkParts.view (p : LinkParts) : Datum :=
  .dict [("stlibs", .optStrs p.stlibs), ("libs", .optStrs p.libs),
    ("libpaths", .optStrs p.libpaths), ("flags", .strs p.flags)]

/-- What a linker flag is for. -/
inductive LinkFlag where
  /-- It switches to shared libraries, or to static ones. -/
  | marker (shared : Bool)
  /-- It names a library directory. -/
  | path (dir : Option String)
  /-- It names a library. -/
  | library (name : Option String)
  /-- It is a compiler warning flag, without meaning for the linker. -/
  | warning
  /-- It is anything else. -/
  | other
deriving Repr, BEq, DecidableEq, Inhabited

/-- Sorts compiler flags, each of which comes with the include directory that it names, if any. -/
def CompileParts.ofFlags : List (String × Option (Option String)) → CompileParts
  | [] => {}
  | (flag, dir?) :: rest =>
    let parts := ofFlags rest
    match dir? with
    | some dir => { parts with includes := dir :: parts.includes }
    | none => { parts with flags := flag :: parts.flags }

/-- Sorts linker flags, each of which comes with what it is for; `shared` says whether libraries are
shared when the list begins. -/
def LinkParts.ofFlags : (shared : Bool) → List (String × LinkFlag) → LinkParts
  | _, [] => {}
  | shared, (flag, purpose) :: rest =>
    match purpose with
    | .marker shared => ofFlags shared rest
    | .path dir =>
      let parts := ofFlags shared rest
      { parts with libpaths := dir :: parts.libpaths }
    | .library name =>
      let parts := ofFlags shared rest
      if shared then { parts with libs := name :: parts.libs }
      else { parts with stlibs := name :: parts.stlibs }
    | .warning => ofFlags shared rest
    | .other =>
      let parts := ofFlags shared rest
      { parts with flags := flag :: parts.flags }

namespace FlagStyle

/-- Whether a compiler flag defines a macro. -/
def isDefinition (style : FlagStyle) (flag : String) : Bool :=
  Text.take 2 flag == "-D" || Text.take 2 flag == style.define

/-- The compiler flags that users of a library need too: the macro definitions. -/
def exported (style : FlagStyle) (flags : List String) : List String :=
  flags.filter style.isDefinition

/-- Sorts compiler flags. -/
def compileParts (style : FlagStyle) (flags : List String) : Except Failure CompileParts := do
  return .ofFlags (← flags.mapM fun flag => do return (flag, ← style.includePath.name? flag))

/-- Whether a flag is a compiler warning flag and not one handed to the linker. -/
def isWarning (flag : String) : Bool :=
  Text.startsWith flag "-W" && !Text.startsWith flag "-Wl,"

/-- What a linker flag is for; the first description that fits counts. -/
def linkFlag (style : FlagStyle) (flag : String) : Except Failure LinkFlag := do
  if some flag == style.sharedMarker then return .marker true
  if some flag == style.staticMarker then return .marker false
  if let some dir ← style.libraryPath.name? flag then return .path dir
  if let some name ← style.library.name? flag then return .library name
  return if isWarning flag then .warning else .other

/-- Sorts linker flags; libraries are shared at the beginning. -/
def linkParts (style : FlagStyle) (flags : List String) : Except Failure LinkParts := do
  return .ofFlags true (← flags.mapM fun flag => do return (flag, ← style.linkFlag flag))

end FlagStyle

end BuildMeta
