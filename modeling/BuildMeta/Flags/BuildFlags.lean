import BuildMeta.Datum
import BuildMeta.Failure
import BuildMeta.Flags.Partition

/-!
# Build flags

The flags with which a unit is compiled and linked, and those it passes on to its users, taken from
evaluated options.
-/

namespace BuildMeta

/-- The flags of a unit.  The exported parts are absent for units that export nothing. -/
structure BuildFlags where
  exportFlags : Option (List String) := none
  exportLibs : Option (List (Option String)) := none
  libs : List (Option String)
  stlibs : List (Option String)
  libpaths : List (Option String)
  linkflags : List String
  cflags : List String
  cincludes : List (Option String)
  cxxflags : List String
  cxxincludes : List (Option String)
  testCflags : List String
  testCincludes : List (Option String)
  testCxxflags : List String
  testCxxincludes : List (Option String)
deriving Repr, BEq, DecidableEq, Inhabited

namespace BuildFlags

/-- The flags by name. -/
def view (f : BuildFlags) : Datum :=
  .dict [("export_flags", (f.exportFlags.map Datum.strs).getD .null),
    ("export_libs", (f.exportLibs.map Datum.optStrs).getD .null), ("libs", .optStrs f.libs),
    ("stlibs", .optStrs f.stlibs), ("libpaths", .optStrs f.libpaths),
    ("linkflags", .strs f.linkflags), ("cflags", .strs f.cflags),
    ("cincludes", .optStrs f.cincludes), ("cxxflags", .strs f.cxxflags),
    ("cxxincludes", .optStrs f.cxxincludes), ("test_cflags", .strs f.testCflags),
    ("test_cincludes", .optStrs f.testCincludes), ("test_cxxflags", .strs f.testCxxflags),
    ("test_cxxincludes", .optStrs f.testCxxincludes)]

/-- The words of an option, which has to be set. -/
def optionWords (options : Table String) (key : String) : Except Failure (List String) :=
  match options.get? key with
  | some value => .ok (Text.words value)
  | none => .error .absentKey

/-- The words of a command option after the name of the program. -/
def commandFlags (options : Table String) (key : String) : Except Failure (List String) := do
  return (← optionWords options key).drop 1

/-- The flags that options give a unit which exports nothing. -/
def ofOptions (style : FlagStyle) (options : Table String) : Except Failure BuildFlags := do
  let cxx ← commandFlags options "CXX"
  let cc ← commandFlags options "CC"
  let link ← commandFlags options "CXXLINK"
  let cxxParts ← style.compileParts (cxx ++ (← optionWords options "COMPONENT_BDEBUILD_CXXFLAGS"))
  let cParts ← style.compileParts (cc ++ (← optionWords options "COMPONENT_BDEBUILD_CFLAGS"))
  let ldParts ← style.linkParts (link ++ (← optionWords options "COMPONENT_BDEBUILD_LDFLAGS"))
  let testCxx ← style.compileParts (cxx ++ (← optionWords options "TESTDRIVER_BDEBUILD_CXXFLAGS"))
  let testC ← style.compileParts (cc ++ (← optionWords options "TESTDRIVER_BDEBUILD_CFLAGS"))
  return {
    libs := ldParts.libs
    stlibs := ldParts.stlibs
    libpaths := ldParts.libpaths
    linkflags := ldParts.flags
    cflags := cParts.flags
    cincludes := cParts.includes
    cxxflags := cxxParts.flags
    cxxincludes := cxxParts.includes
    testCflags := testC.flags
    testCincludes := testC.includes
    testCxxflags := testCxx.flags
    testCxxincludes := testCxx.includes }

/-- Adds what a unit exports: the macro definitions and shared libraries of its exported options
that are not listed as known to its users already. -/
def withExports (flags : BuildFlags) (style : FlagStyle) (options exports : Table String)
    (knownFlags : List String) (knownLibs : List (Option String)) : Except Failure BuildFlags := do
  if exports.size == 0 then return flags
  let link ← commandFlags options "CXXLINK"
  let cxxflags ← optionWords exports "COMPONENT_BDEBUILD_CXXFLAGS"
  let ldflags ← optionWords exports "COMPONENT_BDEBUILD_LDFLAGS"
  return { flags with
    exportFlags := some ((style.exported cxxflags).filter (!knownFlags.contains ·))
    exportLibs := some ((← style.linkParts (link ++ ldflags)).libs.filter (!knownLibs.contains ·)) }

/-- The flags that options give a unit, and those that its exported options give its users. -/
def ofExports (style : FlagStyle) (options exports : Table String)
    (knownFlags : List String) (knownLibs : List (Option String)) : Except Failure BuildFlags := do
  (← ofOptions style options).withExports style options exports knownFlags knownLibs

end BuildFlags

end BuildMeta
