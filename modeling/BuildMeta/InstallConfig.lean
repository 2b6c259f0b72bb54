import BuildMeta.Digraph.Order
import BuildMeta.Path
import BuildMeta.Ufid

/-!
# Installation

Where the parts of a unit of release are installed, and which units are.  Install paths start at the
variable `PREFIX` of the build; the paths in pkg-config files start at their variable `prefix`.
-/

namespace BuildMeta

/-- Where and what to install.  Directories are relative to the place of installation. -/
structure InstallConfig where
  /-- Whether the headers of all units share one directory. -/
  flatInclude : Bool
  pcDir : String
  libDir : String
  binDir : String
  libSuffix : String
  /-- The units to be installed. -/
  selected : List String := []
  installsHeaders : Bool := true
  installsLibs : Bool := true
  installsPc : Bool := true
  installsBins : Bool := true
deriving Repr, BEq, DecidableEq, Inhabited

namespace InstallConfig

/-- The flags that name the library directory of a distribution package. -/
def dpkgFlavour (ufid : Ufid) : Ufid := (ufid.erase "64").erase "cpp11"

/-- The library directory of a distribution package, by word size. -/
def dpkgLibDir (ufid : Ufid) : String := if ufid.has "64" then "lib64" else "lib"

/-- The installation for a flavour; one into a distribution package has fixed directories. -/
def make (ufid : Ufid) (dpkg flatInclude : Bool) (libDir binDir libSuffix : String) :
    InstallConfig :=
  if dpkg then
    { flatInclude := true
      pcDir := Path.join (dpkgLibDir ufid) "pkgconfig"
      libDir := Path.join (dpkgLibDir ufid) (dpkgFlavour ufid).render
      binDir
      libSuffix := "" }
  else { flatInclude, pcDir := Path.join libDir "pkgconfig", libDir, binDir, libSuffix }

/-- The parts by name. -/
def view (c : InstallConfig) : Datum :=
  .dict [("is_flat_include", .bool c.flatInclude), ("lib_dir", .str c.libDir),
    ("pc_dir", .str c.pcDir), ("lib_suffix", .str c.libSuffix), ("bin_dir", .str c.binDir),
    ("install_uors", .strs c.selected), ("is_install_h", .bool c.installsHeaders),
    ("is_install_lib", .bool c.installsLibs), ("is_install_pc", .bool c.installsPc),
    ("is_install_bin", .bool c.installsBins)]

/-- Sets a part by name. -/
def setPart (c : InstallConfig) (name : String) (value : Datum) : InstallConfig :=
  match name with
  | "is_flat_include" => { c with flatInclude := value.truthy }
  | "lib_dir" => { c with libDir := value.strD }
  | "pc_dir" => { c with pcDir := value.strD }
  | "lib_suffix" => { c with libSuffix := value.strD }
  | "bin_dir" => { c with binDir := value.strD }
  | "install_uors" => { c with selected := value.texts }
  | "is_install_h" => { c with installsHeaders := value.truthy }
  | "is_install_lib" => { c with installsLibs := value.truthy }
  | "is_install_pc" => { c with installsPc := value.truthy }
  | "is_install_bin" => { c with installsBins := value.truthy }
  | _ => c

/-! ## Selecting units -/

/-- A change of an installation in place.  It may fail; what was changed before stays changed. -/
abbrev Change := ExceptT Failure (StateM InstallConfig)

/-- Carries out a change: whether it went well, and the installation afterwards. -/
def Change.on (change : Change Unit) (c : InstallConfig) : Except Failure Unit × InstallConfig :=
  change.run c

/-- Replaces the units to be installed. -/
def setSelected (names : List String) : Change Unit :=
  modify fun c => { c with selected := names }

/-- Selects the units to be installed: the targets, separated by commas, with all that they depend
on if `withDeps` is set; without targets every unit of the graph. -/
def select (targets : String) (withDeps : Bool) (graph : Digraph) : Change Unit := do
  if targets == "" then setSelected (Text.sort graph.keys)
  else
    let names := Text.split ',' targets
    if names.any (!graph.has ·) then throw .invalidInstallTarget
    if withDeps then setSelected (Text.sort (← graph.orderFrom names))
    else setSelected names

/-- Whether a unit is to be installed. -/
def installs (c : InstallConfig) (unit : String) : Bool := c.selected.contains unit

/-! ## Install paths -/

/-- The place of installation in a build. -/
def placeVariable : String := "$\x7bPREFIX\x7d"

/-- A directory below the place of installation, if it is used for a unit. -/
def placed (c : InstallConfig) (wanted : Bool) (unit dir : String) : Option String :=
  if wanted && c.installs unit then some (Path.join placeVariable dir) else none

/-- The name of the library of a unit. -/
def targetName (c : InstallConfig) (unit : String) : String := unit ++ c.libSuffix

/-- Where the library of a unit is installed. -/
def libPath (c : InstallConfig) (unit : String) : Option String :=
  c.placed c.installsLibs unit c.libDir

/-- Where the executable of a unit is installed. -/
def binPath (c : InstallConfig) (unit : String) : Option String :=
  c.placed c.installsBins unit c.binDir

/-- Where the headers of a unit, or of one of its inner packages, are installed. -/
def headerPath (c : InstallConfig) (unit : String) (thirdParty : Bool) (inner : String) :
    Option String :=
  (c.placed c.installsHeaders unit "include").map fun path =>
    let path := if thirdParty || !c.flatInclude then Path.join path unit else path
    if inner == "bsl+stdhdrs" then Path.join path "stlport" else path

/-- Where the pkg-config file of a unit is installed. -/
def pcPath (c : InstallConfig) (unit : String) : Option String :=
  c.placed c.installsPc unit c.pcDir

/-! ## Paths in pkg-config files -/

/-- A path below the variable `prefix` of a pkg-config file. -/
def pcPlaced (path : String) : String := "$\x7bprefix\x7d/" ++ path

/-- The library directory in the pkg-config file of a unit. -/
def pcLibDir (c : InstallConfig) : String := pcPlaced (Text.replaceChar '\\' '/' c.libDir)

/-- The include directory in the pkg-config file of a unit. -/
def pcIncludeDir (c : InstallConfig) (unit : String) (thirdParty : Bool) : String :=
  pcPlaced (if thirdParty || c.flatInclude then "include" else "include/" ++ unit)

/-- Further include directories in the pkg-config file of a unit. -/
def pcExtraIncludes (unit : String) : List String :=
  if unit == "bsl" then ["$\x7bincludedir\x7d/stlport"] else []

end InstallConfig

end BuildMeta
