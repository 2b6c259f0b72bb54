import BuildMeta.Notice
import BuildMeta.Pkg.Requirement
import BuildMeta.Text.Format

/-!
# Settings of a package query

Named values that steer a query, and what the query tells its user under them.
-/

namespace BuildMeta.Pkg

/-- The settings of a query. -/
structure Settings where
  values : Table Datum
  /-- The stream for messages. -/
  channel : Channel := .err
deriving Repr, Inhabited

namespace Settings

/-- The settings at the start. -/
def initial : Settings :=
  { values := .ofList
      [("use_msvc_syntax", .bool true), ("dont_define_prefix", .bool false),
        ("prefix_variable", .str "prefix"), ("verbose", .bool false), ("pc_path", .str ""),
        ("uninstalled_only", .bool false), ("prefer_uninstalled", .bool true),
        ("pc_sysrootdir", .str ""), ("pc_topbuilddir", .str ""), ("print_errors", .bool true),
        ("short_errors", .bool false), ("debug", .bool false), ("search_string", .str ""),
        ("private_libs", .bool false), ("forbidden_libdirs", .list []),
        ("forbidden_cflags", .list []), ("is_64bit", .bool false),
        ("full_compatibility", .bool false), ("normalise_paths", .bool true)] }

/-- Changes a setting. -/
def set (s : Settings) (name : String) (value : Datum) : Settings :=
  { s with values := s.values.set name value }

/-- Changes several settings. -/
def setAll (s : Settings) (values : Table Datum) : Settings :=
  { s with values := s.values.setAll values.entries }

/-- The value of a setting. -/
def get (s : Settings) (name : String) : Except Failure Datum :=
  match s.values.get? name with
  | some v => .ok v
  | none => .error (.noSuchSetting name)

/-- Whether a setting is on. -/
def isOn (s : Settings) (name : String) : Bool := (s.values.getD name .null).truthy

/-- The value of a setting, or null. -/
def value (s : Settings) (name : String) : Datum := s.values.getD name .null

/-- The text of a setting. -/
def text (s : Settings) (name : String) : String := (s.value name).strD

/-! ## Messages -/

/-- Prints a line on the stream for messages. -/
def say (s : Settings) (line : String) : Logged Unit :=
  .tell (match s.channel with
    | .out => .out (line ++ "\n")
    | .err => .err (line ++ "\n"))

/-- Prints a line if debugging is on. -/
def debug (s : Settings) (line : String) : Logged Unit :=
  if s.isOn "debug" then s.say line else pure ()

theorem outcome_debug (s : Settings) (line : String) : (s.debug line).outcome = .ok () := by
  unfold debug
  split <;> rfl

/-- What is said while debugging does not matter. -/
theorem outcome_debug_bind {α : Type} (s : Settings) (line : String) (f : Unit → Logged α) :
    (s.debug line >>= f).outcome = (f ()).outcome := by
  rw [Logged.outcome_bind, outcome_debug, Failure.ok_bind]

/-- Prints a line if errors are to be printed. -/
def complain (s : Settings) (line : String) : Logged Unit :=
  if s.isOn "print_errors" then s.say line else pure ()

/-- Reads a version, and tells of it when debugging is on. -/
def readVersion (s : Settings) (text : String) : Logged Version := do
  let version := Version.parse text
  s.debug ("Parsed " ++ text ++ " into " ++ version.partsDatum.repr)
  return version

/-- Reads a list of requirements, and tells of their versions when debugging is on. -/
def readRequirements (s : Settings) (text : String) : Logged (List Requirement) :=
  (Requirement.specs text).mapM fun spec => do
    let r ← Requirement.ofSpec spec
    unless spec.version.isEmpty do
      let _ ← s.readVersion (String.ofList spec.version)
    return r

end Settings

/-! ## Messages from templates -/

/-- A printer of messages: the settings, and variables that templates may refer to. -/
structure Printer where
  settings : Settings
  vars : Table Datum := ∅
deriving Repr, Inhabited

namespace Printer

/-- A template with the variables put in, and filled with values if there are any. -/
def fill (p : Printer) (template : Datum) (args : Option Text.FormatArgs) :
    Except Failure String := do
  let .str template := template
    | throw (if p.vars.size == 0 then .wrongType else .absentAttribute)
  let template ← p.vars.entries.foldlM (fun t (name, value) =>
    match value with
    | .str s => pure (Text.replace t ("%(" ++ name ++ ")") s)
    | _ => throw .wrongType) template
  match args with
  | none => return template
  | some args => Text.format template args

/-- Prints a message. -/
def error (p : Printer) (template : Datum) (args : Option Text.FormatArgs) : Logged Unit := do
  p.settings.say (← p.fill template args)

/-- Prints a message if a setting is on. -/
def errorIf (p : Printer) (setting : String) (template : Datum)
    (args : Option Text.FormatArgs) : Logged Unit :=
  if p.settings.isOn setting then p.error template args else pure ()

end Printer

end BuildMeta.Pkg
