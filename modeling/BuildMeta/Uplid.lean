import BuildMeta.Datum
import BuildMeta.Failure
import BuildMeta.Text.Case
import BuildMeta.VersionOrder

/-!
# Platforms

A platform identifier (uplid) names the operating system, processor and compiler of a build in six
parts joined by hyphens.  A part may be the wild card `*`.
-/

namespace BuildMeta

/-- A platform in six parts; each may be the wild card `*`. -/
structure Uplid where
  osType : String := "*"
  osName : String := "*"
  cpuType : String := "*"
  osVersion : String := "*"
  compilerType : String := "*"
  compilerVersion : String := "*"
deriving Repr, BEq, DecidableEq, Inhabited

namespace Uplid

/-- The six parts in order. -/
def parts (u : Uplid) : List String :=
  [u.osType, u.osName, u.cpuType, u.osVersion, u.compilerType, u.compilerVersion]

/-- The text of a platform: its parts joined by hyphens. -/
def render (u : Uplid) : String := Text.join "-" u.parts

/-- The text of a platform without its compiler. -/
def machine (u : Uplid) : String := Text.join "-" (u.parts.take 4)

/-- The parts by name. -/
def view (u : Uplid) : Datum :=
  .dict [("os_type", .str u.osType), ("os_name", .str u.osName), ("cpu_type", .str u.cpuType),
    ("os_ver", .str u.osVersion), ("comp_type", .str u.compilerType),
    ("comp_ver", .str u.compilerVersion)]

/-- The part at a position of a partial list of parts, in lower case; missing and empty parts are
wild cards. -/
def partAt (ps : List String) (i : Nat) : String :=
  let p := ps.getD i ""
  Text.lower (if p == "" then "*" else p)

/-- Reads a platform.  More than six parts are refused. -/
def parse (s : String) : Except Failure Uplid :=
  let ps := Text.split '-' s
  if ps.length > 6 then .error (.invalidUplid s)
  else .ok {
    osType := partAt ps 0
    osName := partAt ps 1
    cpuType := partAt ps 2
    osVersion := partAt ps 3
    compilerType := partAt ps 4
    compilerVersion := partAt ps 5 }

/-- Whether the operating system and compiler are among the supported ones. -/
def isSupported (u : Uplid) : Bool :=
  ["*", "unix", "windows"].contains u.osType &&
  ["*", "linux", "darwin", "aix", "sunos", "windows_nt"].contains u.osName &&
  ["*", "gcc", "clang", "xlc", "cc", "cl"].contains u.compilerType

/-- Whether a name part agrees with a mask part, up to case. -/
def nameMatches (name mask : String) : Bool :=
  mask == "*" || name == "*" || Text.lower name == Text.lower mask

/-- Whether a version part is at least the version of a mask part. -/
def versionMatches (version mask : String) : Bool :=
  mask == "*" || version == "*" || VersionOrder.within version (some mask) none

/-- Whether a platform satisfies a mask: names agree and versions are at least those asked for. -/
def satisfies (u mask : Uplid) : Bool :=
  nameMatches u.osType mask.osType && nameMatches u.osName mask.osName &&
  nameMatches u.cpuType mask.cpuType && nameMatches u.compilerType mask.compilerType &&
  versionMatches u.osVersion mask.osVersion &&
  versionMatches u.compilerVersion mask.compilerVersion

end Uplid

end BuildMeta
