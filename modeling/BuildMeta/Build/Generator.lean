import BuildMeta.Build.PcFile
import BuildMeta.Flags.BuildFlags

/-!
# Task generators

A build is described to the build tool by task generators: one for each library, executable and
pkg-config file, and umbrellas that stand for several others.
-/

namespace BuildMeta.Build

/-- The flags with which the sources of a generator are compiled. -/
structure CompileFlags where
  cflags : List String
  cincludes : List (Option String)
  cxxflags : List String
  cxxincludes : List (Option String)
deriving Repr, BEq, DecidableEq, Inhabited

/-- The flags for the sources of a library. -/
def CompileFlags.ofSources (f : BuildFlags) : CompileFlags where
  cflags := f.cflags
  cincludes := f.cincludes
  cxxflags := f.cxxflags
  cxxincludes := f.cxxincludes

/-- The flags for test drivers. -/
def CompileFlags.ofTests (f : BuildFlags) : CompileFlags where
  cflags := f.testCflags
  cincludes := f.testCincludes
  cxxflags := f.testCxxflags
  cxxincludes := f.testCxxincludes

/-- The name of the generator for the library of a unit. -/
def libTarget (unit : String) : String := unit ++ "_lib"

/-- The name of the generator for the test drivers of a unit. -/
def testTarget (unit : String) : String := unit ++ "_tst"

/-- The name of the generator for the pkg-config file of a unit. -/
def pcTarget (unit : String) : String := unit ++ "_pc"

/-- The name of the generator for the executable of a unit. -/
def appTarget (unit : String) : String := unit ++ "_app"

/-- The name of the generator that copies the dummy definitions of a package. -/
def dumsCopyTarget (package : String) : String := package ++ "_dums_cp"

/-- The name of the generator that compiles the dummy definitions of a package. -/
def dumsTarget (package : String) : String := package ++ "_dums_build"

/-- The library of a package group, made from the objects of its packages. -/
structure GroupLibrary where
  group : String
  path : String
  target : String
  features : List String
  linkflags : List String
  libs : List (Option String)
  stlibs : List (Option String)
  libpaths : List (Option String)
  /-- The packages, in order of their dependencies. -/
  packages : List String
  uses : List String
  externals : List String
  installPath : Option String
  version : Option ReleaseVersion
  soname : Option String
deriving Repr, BEq, DecidableEq, Inhabited

/-- The library of a package. -/
structure PackageLibrary where
  package : String
  path : String
  /-- Whether it is a plus package, which never waits for other generators. -/
  plus : Bool
  sources : List String
  features : List String
  compile : CompileFlags
  linkflags : List String
  libs : List (Option String)
  stlibs : List (Option String)
  uses : List String
  externals : List String
  installPath : Option String
  dependsOn : Option (List String)
deriving Repr, BEq, DecidableEq, Inhabited

/-- What an executable is for. -/
inductive ExecutableRole where
  /-- The executable of an application package, with the place where it is installed. -/
  | application (installPath : Option String)
  /-- A test driver, which is never installed. -/
  | testDriver
deriving Repr, BEq, DecidableEq, Inhabited

/-- An executable. -/
structure Executable where
  name : String
  role : ExecutableRole
  path : String
  target : String
  source : String
  features : List String
  compile : CompileFlags
  linkflags : List String
  libs : List (Option String)
  stlibs : List (Option String)
  libpaths : List (Option String)
  uses : List String
  externals : List String
deriving Repr, BEq, DecidableEq, Inhabited

/-- A task generator. -/
inductive Generator where
  /-- It writes a pkg-config file into the directory. -/
  | pcFile (dir : String) (file : PcFile)
  | groupLibrary (library : GroupLibrary)
  | packageLibrary (library : PackageLibrary)
  | executable (program : Executable)
  /-- It copies the dummy definitions of the package in the directory to a source file. -/
  | dumsCopy (package dir : String)
  /-- It compiles the dummy definitions of the package in the directory. -/
  | dumsObject (package dir : String) (cflags : List String)
      (cincludes : List (Option String))
  /-- It stands for other generators. -/
  | umbrella (name : String) (dependsOn : Option (List String))
deriving Repr, BEq, DecidableEq, Inhabited

/-! ## Arguments -/

namespace CompileFlags

/-- The arguments that hand over the flags. -/
def arguments (f : CompileFlags) : List (String × Datum) :=
  [("cflags", .strs f.cflags), ("cincludes", .optStrs f.cincludes), ("cxxflags", .strs f.cxxflags),
    ("cxxincludes", .optStrs f.cxxincludes)]

end CompileFlags

/-- The index that all generators share, so that each source file is compiled once. -/
def sharedIndex : Datum := .int 1

namespace PcFile

/-- The arguments of the generator that writes the file into a directory. -/
def arguments (f : PcFile) (dir : String) : List (String × Datum) :=
  [("name", .str (pcTarget f.unit)), ("features", .strs ["bdepc"]), ("path", .str dir),
    ("target", .str (f.libName ++ ".pc")),
    ("version", (f.version.map ReleaseVersion.view).getD .null),
    ("doc", (f.doc.map UnitDoc.view).getD .null), ("url", .str f.url), ("libname", .str f.libName),
    ("dep", .strs f.deps), ("libdir", .str f.libDir), ("includedir", .str f.includeDir),
    ("export_libs", .optStrs f.exportLibs), ("extra_includes", .strs f.extraIncludes),
    ("export_flags", .strs f.exportFlags), ("install_path", .optStr f.installPath)]

end PcFile

namespace GroupLibrary

/-- The arguments of the generator. -/
def arguments (l : GroupLibrary) : List (String × Datum) :=
  [("name", .str (libTarget l.group)), ("path", .str l.path), ("target", .str l.target),
    ("features", .strs l.features), ("linkflags", .strs l.linkflags), ("lib", .optStrs l.libs),
    ("stlib", .optStrs l.stlibs), ("cust_libpaths", .optStrs l.libpaths),
    ("source", .strs (l.packages.map libTarget)), ("use", .strs l.uses),
    ("uselib", .strs l.externals),
    ("export_includes", .strs (l.packages.map (Path.join l.path))),
    ("install_path", .optStr l.installPath),
    ("bdevnum", (l.version.map ReleaseVersion.view).getD .null), ("bdesoname", .optStr l.soname),
    ("depends_on", .strs [pcTarget l.group]), ("idx", sharedIndex)]

end GroupLibrary

namespace PackageLibrary

/-- The arguments of the generator. -/
def arguments (l : PackageLibrary) : List (String × Datum) :=
  [("name", .str (libTarget l.package)), ("path", .str l.path), ("target", .str l.package),
    ("source", .strs l.sources), ("features", .strs l.features)] ++ l.compile.arguments ++
  [("linkflags", .strs l.linkflags), ("lib", .optStrs l.libs), ("stlib", .optStrs l.stlibs),
    ("includes", .strs [l.path]), ("export_includes", .strs [l.path]), ("use", .strs l.uses),
    ("uselib", .strs l.externals), ("install_path", .optStr l.installPath), ("idx", sharedIndex)] ++
  if l.plus then [] else [("depends_on", (l.dependsOn.map Datum.strs).getD .null)]

end PackageLibrary

namespace Executable

/-- The arguments of the generator. -/
def arguments (e : Executable) : List (String × Datum) :=
  [("name", .str e.name), ("path", .str e.path), ("target", .str e.target),
    ("source", .strs [e.source]), ("features", .strs e.features)] ++ e.compile.arguments ++
  [("linkflags", .strs e.linkflags), ("includes", .strs [e.path]), ("lib", .optStrs e.libs),
    ("stlib", .optStrs e.stlibs), ("cust_libpaths", .optStrs e.libpaths), ("use", .strs e.uses),
    ("uselib", .strs e.externals), ("idx", sharedIndex)] ++
  match e.role with
  | .application installPath => [("install_path", .optStr installPath)]
  | .testDriver => []

end Executable

namespace Generator

/-- The source file for the dummy definitions of a package. -/
def dumsSource (package : String) : String := package ++ "_dums.c"

/-- The arguments of a generator. -/
def arguments : Generator → List (String × Datum)
  | pcFile dir f => f.arguments dir
  | groupLibrary l => l.arguments
  | packageLibrary l => l.arguments
  | executable e => e.arguments
  | dumsCopy package dir =>
    [("name", .str (dumsCopyTarget package)), ("path", .str dir),
      ("target", .str (dumsSource package)), ("rule", .str "cp $\x7bSRC\x7d $\x7bTGT\x7d"),
      ("source", .str (Path.joinAll dir ["package", package ++ ".dums"])), ("idx", sharedIndex)]
  | dumsObject package dir cflags cincludes =>
    [("name", .str (dumsTarget package)), ("path", .str dir),
      ("source", .strs [dumsSource package]), ("features", .strs ["c"]),
      ("cflags", .strs cflags), ("cincludes", .optStrs cincludes),
      ("depends_on", .str (dumsCopyTarget package)), ("idx", sharedIndex)]
  | umbrella name dependsOn =>
    ("name", .str name) :: (dependsOn.map fun ns => ("depends_on", Datum.strs ns)).toList

end Generator

end BuildMeta.Build
