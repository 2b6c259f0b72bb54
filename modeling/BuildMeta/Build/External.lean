import BuildMeta.Build.Toolchain

/-!
# External libraries

The libraries that a repository depends on and does not hold are found by pkg-config.  Its flags
become variables of the build tool, named after the library.
-/

namespace BuildMeta.Build

/-! ## Distributions -/

namespace Distribution

/-- The place of installation in a distribution. -/
def place (refroot : String) : String := Path.joinAll refroot ["opt", "bb"]

/-- The directory of libraries in a distribution. -/
def libDir (refroot : String) (ufid : Ufid) : String :=
  Path.join (place refroot) (if ufid.has "64" then "lib64" else "lib")

/-- The directory of the libraries of a flavour in a distribution. -/
def linkDir (refroot : String) (ufid : Ufid) : String :=
  Path.join (libDir refroot ufid) (ufid.erase "64").render

/-- The variable that names a distribution. -/
def setting : String := "DISTRIBUTION_REFROOT"

/-- Takes external libraries from the distribution that the environment names, if it names one. -/
def use (ufid : Ufid) : Step Unit := do
  match (← get).environment.get? setting with
  | none => return
  | some refroot =>
    Step.say (.entry ("Using " ++ setting) refroot)
    let pkgConfig := Path.join (libDir refroot ufid) "pkgconfig"
    let rest := (((← get).environment.get? "PKG_CONFIG_PATH").map (":" ++ ·)).getD ""
    modify fun s =>
      { s with environment := s.environment.set "PKG_CONFIG_PATH" (pkgConfig ++ rest) }
    let v ← Step.vars
    let flag ← v.fill "LIBPATH_ST" (.str (linkDir refroot ufid))
    let v ← v.extend "LINKFLAGS" [.str flag]
    Step.change fun _ => v.put "PKG_CONFIG_DEFINES" (.dict [("prefix", .str (place refroot))])

end Distribution

namespace External

/-! ## pkg-config -/

/-- The variable that holds the command for pkg-config. -/
def commandVariable : String := "PKGCONFIG"

/-- Looks for pkg-config; the result says whether there is one. -/
def findPkgConfig (s : Setup) : Step Bool := do
  Step.record (.findProgram "pkg-config" none)
  return s.programs.contains "pkg-config" || ((← Step.vars).value commandVariable).truthy

/-- Finds a pkg-config, if need be the one of the tools. -/
def usePkgConfig (s : Setup) : Step Unit := do
  unless ← findPkgConfig s do
    Step.say (.warn ("Could not find pkg-config on the PATH.  Using thebuilt-in python based " ++
      "pkg-config (pykg-config) instead."))
    Step.change fun v => v.putWords commandVariable s.ownPkgConfig
    unless ← findPkgConfig s do Step.fatal "Could not find the program pkg-config"

/-- The message on a package that pkg-config does not know. -/
def notFound (package : String) : String :=
  "failed to find the library using pkg-config\nMaybe \"" ++ package ++ ".pc\" is missing from " ++
    "\"PKG_CONFIG_PATH\"? Inspect config.log in the\nbuild output directory for details."

/-- The variable that holds a kind of flags for a package. -/
def flagVariable (kind package : String) : String := Text.upper (kind ++ "_" ++ package)

/-- The variables after pkg-config has been asked for a package. -/
def withPackage (package : String) (flags : Table Datum) (v : Variables) : Variables :=
  let v := flags.entries.foldl (fun v (kind, value) => v.put (flagVariable kind package) value) v
  v.append "DEFINES" ["HAVE_" ++ Text.upper package ++ "=1"]

/-- Asks pkg-config for a package. -/
def ask (s : Setup) (package : String) (arguments : List String) : Step Unit := do
  Step.record (.checkPackage package arguments)
  match s.packages.get? package with
  | none => Step.fatal (notFound package)
  | some flags => Step.change (withPackage package flags)

/-! ## Names with a suffix -/

/-- The kinds of flags that are kept under the name without a suffix. -/
def renamedKinds : List String := ["defines", "includes", "lib", "libpath", "stlib", "stlibpath"]

/-- Moves the flags of a package to the name of the library. -/
def rename (package library : String) (v : Variables) : Variables :=
  renamedKinds.foldl (fun v kind =>
    (v.put (flagVariable kind library) (v.value (flagVariable kind package))).clear
      (flagVariable kind package)) v

/-- A definition without the suffix: what follows the suffix is dropped. -/
def dropSuffix (suffix : List Char) (definition : List Char) : List Char :=
  if Text.hasInfix suffix definition then before suffix definition ++ "=1".toList else definition
where
  /-- What stands before the first occurrence of a word. -/
  before (word : List Char) : List Char → List Char
    | [] => []
    | s@(c :: rest) => if word.isPrefixOf s then [] else c :: before word rest

/-- Drops the suffix from the definitions. -/
def renameDefinitions (suffix : Datum) (v : Variables) : Except Failure Variables := do
  let definitions ← (v.value "DEFINES").members
  let definitions ← definitions.mapM fun d =>
    match d, suffix with
    | .str d, .str suffix =>
      .ok (String.ofList (dropSuffix (Text.upper suffix ++ "=1").toList d.toList))
    | _, _ => .error .absentAttribute
  return v.putWords "DEFINES" definitions

/-! ## Libraries of the system -/

/-- The libraries that are always linked dynamically. -/
def sharedOnly : List String := ["pthread", "rt", "nsl", "socket"]

/-- Moves one library from the static libraries of a package to its shared ones. -/
def shareOne (library : String) (v : Variables) (name : String) : Except Failure Variables := do
  let static := flagVariable "stlib" library
  let known := v.value static
  if !(← known.holdsText name) then return v
  match known with
  | .list xs =>
    let v := v.put static (.list (xs.eraseP (·.sameAtom (.str name))))
    v.extend (flagVariable "lib" library) [.str name]
  | _ => throw .absentAttribute

/-- Moves the libraries that are always linked dynamically. -/
def share (library : String) (v : Variables) : Except Failure Variables :=
  sharedOnly.foldlM (shareOne library) v

/-- Finds one library. -/
def findLibrary (s : Setup) (arguments : List String) (suffix : Datum) (library : String) :
    Step Unit := do
  let package := library ++ if suffix.truthy then suffix.text else ""
  ask s package arguments
  if suffix.truthy then Step.change (rename package library)
  let v ← share library (← Step.vars)
  Step.change fun _ => v

/-- Finds the libraries for a flavour. -/
def find (s : Setup) (ufid : Ufid) (libraries : List String) : Step Unit := do
  if libraries.isEmpty then return
  Distribution.use ufid
  usePkgConfig s
  let arguments := ["--libs", "--cflags"] ++ (if ufid.has "shr" then [] else ["--static"])
  let suffix := s.option "lib_suffix"
  (Text.sort libraries).forM (findLibrary s arguments suffix)
  if suffix.truthy then
    let v ← renameDefinitions suffix (← Step.vars)
    Step.change fun _ => v

end External

end BuildMeta.Build
