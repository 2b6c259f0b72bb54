import BuildMeta.Repo.SourceUnit
import BuildMeta.Text.Format

/-!
# Written pkg-config files

The pkg-config file that a build writes for a unit of release, and the fingerprint by which the
build tool sees that the file has to be written again.
-/

namespace BuildMeta.Build

/-- What the pkg-config file of a unit says. -/
structure PcFile where
  /-- The unit of release. -/
  unit : String
  doc : Option UnitDoc
  version : Option ReleaseVersion
  url : String := "https://github.com/bloomberg"
  libName : String
  deps : List String
  libDir : String
  includeDir : String
  exportLibs : List (Option String)
  extraIncludes : List String
  exportFlags : List String
  installPath : Option String
deriving Repr, BEq, DecidableEq, Inhabited

namespace PcFile

/-- Applies a template, which has to be a text, to each name; one that is missing is written out as
such. -/
def formatAll (template : Datum) (names : List (Option String)) : Except Failure (List String) :=
  names.mapM fun n => do Text.format (← template.needText) (.single (.optStr n))

/-- A variable of a pkg-config file that is used in it. -/
def reference (name : String) : String := "$\x7b" ++ name ++ "\x7d"

/-- The text of the file, given the place of installation and the templates of the flags that name a
library and an include directory. -/
def render (f : PcFile) (place : String) (libTemplate includeTemplate : Datum) :
    Except Failure String := do
  match f.doc with
  | none => throw .absentAttribute
  | some doc =>
    let libs ← formatAll libTemplate f.exportLibs
    let includes ← formatAll includeTemplate (f.extraIncludes.map some)
    return "prefix=" ++ place ++ "\n" ++
      "libdir=" ++ f.libDir ++ "\n" ++
      "includedir=" ++ f.includeDir ++ "\n" ++
      "\n" ++
      "Name: " ++ doc.mnemonic ++ "\n" ++
      "Description: " ++ doc.description ++ "\n" ++
      "URL: " ++ f.url ++ "\n" ++
      "Version: " ++ (f.version.map ReleaseVersion.dotted).getD "" ++ "\n" ++
      "Requires:\n" ++
      "Requires.private: " ++ Text.join " " f.deps ++ "\n" ++
      "Libs: -L" ++ reference "libdir" ++ " -l" ++ f.libName ++ " " ++ Text.join " " libs ++ "\n" ++
      "Libs.private:\n" ++
      "Cflags: -I" ++ reference "includedir" ++ " " ++ Text.join " " (includes ++ f.exportFlags) ++
      "\n"

/-- The attributes of a generator that the file depends on, in the order of the fingerprint. -/
def fingerprintKeys : List String :=
  ["libdir", "includedir", "doc", "url", "version", "dep", "libname", "export_libs",
    "extra_includes", "export_flags"]

/-- The fingerprint of a file with the attributes, to be written for the place of installation. -/
def fingerprint (place : Datum) (attributes : Table Datum) : Except Failure String := do
  let values ← fingerprintKeys.mapM fun k =>
    match attributes.get? k with
    | some d => (.ok d : Except Failure Datum)
    | none => .error .absentAttribute
  return Text.join "," ((place :: values).map Datum.text)

end PcFile

end BuildMeta.Build
