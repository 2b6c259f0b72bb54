import BuildMeta.Text.Cut
import BuildMeta.Text.Quote

/-!
# Failures

Every cause for which an operation of the library can fail, and the one place where the wording of
a failure is fixed.
-/

namespace BuildMeta

/-- The cause of a failure. -/
inductive Failure where
  /-- A platform text has more than six parts. -/
  | invalidUplid (text : String)
  /-- A flavour text has a part that is not a known flag. -/
  | invalidUfid (text : String)
  /-- A line of option rules cannot be read. -/
  | invalidRule (line : Nat) (rule reason : String)
  /-- A line of an option rule file cannot be read. -/
  | invalidRuleFile (path : String) (line : Nat) (rule reason : String)
  /-- A directed cycle was met along the path, whose last node closes it. -/
  | cycle (path : List String)
  /-- Two units have the same name. -/
  | duplicateUnit (name path previous : String)
  /-- An application package has no main source file. -/
  | missingMain (source package : String)
  /-- A component has no header file. -/
  | missingHeader (header : String)
  /-- A component has no implementation file. -/
  | missingImplementation (header : String)
  /-- There are no default option rules. -/
  | missingDefaultRules
  /-- There is no compiler configuration file. -/
  | missingCompilerConfig (path : String)
  /-- An install target is not a unit of release. -/
  | invalidInstallTarget
  /-- The operating system is not supported. -/
  | unsupportedPlatform (platform : String)
  /-- The operation needs a cygwin environment. -/
  | notCygwin
  /-- The version text of Windows cannot be read. -/
  | invalidWindowsVersion (text : String)
  /-- A build step gave up with the text. -/
  | fatal (text : String)
  /-- A library lists both task generators and source files as its sources. -/
  | mixedSources (name : String)
  /-- No task generator has the name. -/
  | unknownGenerator (name : String)
  /-- A build command could not be started. -/
  | notExecuted (reason : String)
  /-- No file for the package meets the requirement. -/
  | packageNotFound (requirement : String)
  /-- None of the files for the package can be opened. -/
  | packageUnreadable (requirement : String)
  /-- A variable is used but not defined; the file is named once it is known. -/
  | undefinedVariable (name : String) (file : Option String)
  /-- A package file has no lines. -/
  | emptyPackageFile (path : String)
  /-- A variable or property is defined twice. -/
  | multiplyDefined (key : String)
  /-- A comparison operator is not known. -/
  | badOperator (text : String)
  /-- An option of the package query has not been set. -/
  | noSuchSetting (name : String)
  /-- The package query names no packages. -/
  | noPackages
  /-- A path leads to no package file. -/
  | badPath (path : String)
  /-- A package has conflicts, which cannot be looked up. -/
  | conflictUnchecked
  /-- A name is looked up in a table that does not hold it. -/
  | absentKey
  /-- A value has a type on which the operation is not defined. -/
  | wrongType
  /-- A value lacks an attribute. -/
  | absentAttribute
  /-- A position lies outside a sequence. -/
  | outOfRange
  /-- A value has the right type but not the right form. -/
  | badValue
  /-- A number is too large for the operation. -/
  | tooLarge
  /-- A name has no meaning where it is used. -/
  | undefinedName
  /-- A rule command is not known. -/
  | unknownCommand
  /-- A file does not exist. -/
  | noSuchFile (path : String)
  /-- A directory stands where a file is needed. -/
  | isDirectory (path : String)
  /-- A file stands where a directory is needed. -/
  | notDirectory (path : String)
  /-- A shell command cannot be started. -/
  | cannotRun (reason : String)
  /-- A result was never computed. -/
  | unassigned
  /-- A condition that the operation relies on does not hold. -/
  | violated
  /-- A text is not in JSON form. -/
  | malformedJson
  /-- A pattern or replacement template is malformed. -/
  | badTemplate
  /-- An option refers to itself. -/
  | endless
  /-- The program ended early with an exit status. -/
  | stopped (status : Nat)
deriving Repr, BEq, DecidableEq, Inhabited

namespace Failure

/-- The flags that a flavour may have, as the message on a wrong one lists them. -/
def knownFlags : List String :=
  ["64", "cpp11", "dbg", "exc", "mt", "ndebug", "opt", "pic", "safe", "safe2", "shr", "stlport"]

/-- The text that explains a failure; empty for causes that are not explained. -/
def message : Failure → String
  | invalidUplid text => "Invalid UPLID string: " ++ text
  | invalidUfid text =>
    "The UFID, \"" ++ text ++ "\", is invalid.  Each part of a UFID must be in the following " ++
      "list of valid flags: " ++ Text.join ", " knownFlags ++ "."
  | invalidRule _ _ reason => reason
  | invalidRuleFile path line rule reason =>
    "Invalid option rule in " ++ path ++ " at line " ++ toString line ++ " (" ++ reason ++
      "):\n \"" ++ rule ++ "\""
  | cycle path => "Cycle detected: " ++ Text.join " -> " path ++ "."
  | duplicateUnit name path previous =>
    "\"" ++ name ++ "\" is redefined at \"" ++ path ++
      "\". The unit was previously defined at " ++ previous ++ "."
  | missingMain source package =>
    "Missing source file \"" ++ source ++ "\" for application package \"" ++ package ++ "\""
  | missingHeader header => "Missing header file \"" ++ header ++ "\""
  | missingImplementation header =>
    "Missing source (cpp) file for header file \"" ++ header ++ "\""
  | missingDefaultRules => "Cannot find default.opts."
  | missingCompilerConfig path =>
    "Cannot find a compiler configuration file at " ++ path ++
      " or $BDE_ROOT/etc/bdecompilerconfig"
  | invalidInstallTarget =>
    "Install targets must be UORs (package groups, stand-alone packages, and third-party " ++
      "directories)."
  | unsupportedPlatform platform => "Unsupported platform " ++ platform
  | notCygwin => "Function can only be called in a cygwin environment."
  | invalidWindowsVersion text => "Invalid Windows version string \"" ++ text ++ "\"."
  | fatal text => text
  | mixedSources name => "Cannot mix tasks and source files in shlib " ++ name
  | unknownGenerator name => "Could not find a task generator for the name '" ++ name ++ "'"
  | notExecuted reason => "Execution failure: " ++ reason
  | packageNotFound requirement => "No package '" ++ requirement ++ "' found"
  | packageUnreadable requirement => "No package '" ++ requirement ++ "' found"
  | undefinedVariable name _ => name
  | emptyPackageFile path => path
  | multiplyDefined key => key
  | badOperator text => text
  | noSuchSetting name => name
  | badPath path => "Bad path: " ++ path
  | noSuchFile path => "[Errno 2] No such file or directory: " ++ Text.quote path
  | isDirectory path => "[Errno 21] Is a directory: " ++ Text.quote path
  | notDirectory path => "[Errno 20] Not a directory: " ++ Text.quote path
  | cannotRun reason => reason
  | _ => ""

/-- What the system says of a file that cannot be opened. -/
def systemText? : Failure → Option String
  | noSuchFile _ => some "No such file or directory"
  | isDirectory _ => some "Is a directory"
  | notDirectory _ => some "Not a directory"
  | _ => none

/-- Whether the system is the cause of a failure. -/
def isSystem : Failure → Bool
  | noSuchFile _ | isDirectory _ | notDirectory _ | cannotRun _ => true
  | _ => false

/-- Whether a failure is shown without words: inner faults, and what the system itself refuses. -/
def isWordless : Failure → Bool
  | conflictUnchecked | absentKey | wrongType | absentAttribute | outOfRange | badValue
  | tooLarge | undefinedName | unknownCommand | noSuchFile _ | isDirectory _ | notDirectory _
  | cannotRun _ | unassigned | violated | malformedJson | badTemplate | endless | stopped _ => true
  | _ => false

/-- Whether a command tells its user of a failure in one line: what is wrong with the input or the
machine is told, an inner fault is not. -/
def isReported : Failure → Bool
  | invalidUplid _ | invalidUfid _ | invalidRuleFile .. | cycle _ | duplicateUnit ..
  | missingMain .. | missingHeader _ | missingImplementation _ | missingDefaultRules
  | missingCompilerConfig _ | invalidInstallTarget | unsupportedPlatform _ | notCygwin
  | invalidWindowsVersion _ | noSuchFile _ | isDirectory _ | notDirectory _ | cannotRun _ => true
  | _ => false

/-! ## Steps that may fail, one after the other -/

variable {α β : Type}

@[simp] theorem ok_bind (a : α) (f : α → Except Failure β) : (Except.ok a >>= f) = f a := rfl

@[simp] theorem error_bind (e : Failure) (f : α → Except Failure β) :
    (Except.error e >>= f) = .error e := rfl

/-- Two steps succeed if and only if the first does and the second does on its result. -/
theorem bind_eq_ok_iff {x : Except Failure α} {f : α → Except Failure β} {b : β} :
    (x >>= f) = .ok b ↔ ∃ a, x = .ok a ∧ f a = .ok b := by
  cases x <;> simp

end Failure

end BuildMeta
