import BuildMeta.Host
import BuildMeta.Json.Document

/-!
# Compilers of a machine

A configuration file lists compilers for machines.  The first entry whose host name pattern and
platform mask fit a machine names its compilers.
-/

namespace BuildMeta

/-- A compiler that can be chosen.  The values of a configuration file are kept as they are. -/
structure CompilerInfo where
  kind : Datum
  version : Datum
  cPath : Datum := .null
  cxxPath : Datum := .null
  flags : Datum := .null
  /-- A description of its own, in place of the one that kind and version make. -/
  remark : Option String := none
deriving Repr, Inhabited

namespace CompilerInfo

/-- Kind and version, by which a compiler is asked for. -/
def key (c : CompilerInfo) : Except Failure String :=
  match c.kind, c.version with
  | .str kind, .str version => .ok (kind ++ "-" ++ version)
  | _, _ => .error .wrongType

/-- The text that describes a compiler to the user. -/
def description (c : CompilerInfo) : Except Failure String :=
  match c.remark with
  | some text => .ok text
  | none => c.key

/-- The attributes of a compiler with its key and description. -/
def view (c : CompilerInfo) : Except Failure Datum := do
  return .dict [("type", c.kind), ("version", c.version), ("c_path", c.cPath),
    ("cxx_path", c.cxxPath), ("flags", c.flags), ("desc", .optStr c.remark),
    ("key", .str (← c.key)), ("description", .str (← c.description))]

/-- A required field of a configuration object. -/
def required (d : Datum) (key : String) : Except Failure Datum :=
  match d with
  | .dict fields => match fields.lookup key with
    | some v => .ok v
    | none => .error .absentKey
  | _ => .error .wrongType

/-- Reads one compiler of a configuration. -/
def ofDatum (d : Datum) : Except Failure CompilerInfo := do
  return { kind := ← required d "type", version := ← required d "version"
           cPath := ← required d "c_path", cxxPath := ← required d "cxx_path"
           flags := d.get "flags" }

/-- Whether an entry of a configuration is for a machine. -/
def entryFits (node : String) (uplid : Uplid) (entry : Datum) : Except Failure Bool := do
  let named ← match entry with
    | .dict fields => match fields.lookup "hostname" with
      | none => pure true
      | some (.str pattern) => do pure ((← Text.Pattern.read {} pattern).matchFront? node).isSome
      | some _ => throw .wrongType
    | _ => throw .wrongType
  if !named then return false
  match ← required entry "uplid" with
  | .str mask => return uplid.satisfies (← Uplid.parse mask)
  | _ => throw .absentAttribute

/-- The first entry of a configuration that is for a machine. -/
def entryFor? (node : String) (uplid : Uplid) : List Datum → Except Failure (Option Datum)
  | [] => .ok none
  | entry :: rest => do
    if ← entryFits node uplid entry then return some entry else entryFor? node uplid rest

/-- The compilers that a configuration text lists for a machine, if it knows the machine. -/
def listed? (node : String) (uplid : Uplid) (text : String) :
    Except Failure (Option (List CompilerInfo)) := do
  match ← entryFor? node uplid (← (← Json.read text).members) with
  | none => return none
  | some entry => return some (← (← (← required entry "compilers").members).mapM ofDatum)

/-- The versions of the Windows compiler, each with the year and version of its product. -/
def windowsVersions : List (String × String × String) :=
  [("19.00", "2015", "14.0"), ("18.00", "2013", "12.0"), ("17.00", "2012", "11.0"),
    ("16.00", "2010", "10.0"), ("15.00", "2008", "9.0")]

/-- The compilers that can be chosen on Windows. -/
def windowsCompilers : List CompilerInfo :=
  windowsVersions.map fun (version, year, product) =>
    { kind := .str "cl", version := .str version
      remark := some ("cl-" ++ version ++ " -- Visual Studio " ++ year ++ " (Version " ++ product ++
        ")") }

end CompilerInfo

end BuildMeta
