import BuildMeta.CommandLine.Parse
import BuildMeta.Compiler.Info
import BuildMeta.FileTree
import BuildMeta.Ufid.Choice
import BuildMeta.Ufid.Switches

/-!
# The command that prepares an environment

The command chooses a compiler and a flavour, and prints shell commands that set the environment
variables of a build.
-/

namespace BuildMeta.EnvCommand

open CommandLine

/-- The command line of the command on a host. -/
def program (h : Host) : Program :=
  { name := "bde_setwafenv.py"
    usage := "eval $(bde_setwafenv.py [set|list|unset] [-i INSTALL_DIR]\n" ++
      "                     [-c COMPILER] [-t UFID])\n\n" ++
      "set:   set environment variables (default)\n" ++
      "list:  list available compilers\n" ++
      "unset: unset environment variables"
    switches :=
      [helpSwitch,
        { names := ["-c", "--compiler"], help := "compiler" },
        { names := ["-i", "--install-dir"], help := "install directory" },
        { names := ["--debug-opt-keys"]
          help := "debug rules in the opts files for the specified (comma separated) list of " ++
            "opts keys" }] ++ Ufid.switches h }

/-- Prints a line. -/
def say (text : String) : Logged Unit := .tell (.out (text ++ "\n"))

/-- The home directory of the user: the one that the environment names, or the one on record. -/
def home (h : Host) (environment : Table String) : String :=
  match Text.trimEndWhile (· == '/') (environment.getD "HOME" h.userHome).toList with
  | [] => "/"
  | dir => String.ofList dir

/-- The path of the compiler configuration: that of the user, or that of the installation. -/
def configPath (h : Host) (environment : Table String) (tree : FileTree) : Logged String := do
  let own := Path.join (home h environment) ".bdecompilerconfig"
  let shared := match environment.getD "BDE_ROOT" "" with
    | "" => []
    | root => [Path.joinAll root ["etc", "bdecompilerconfig"]]
  match (own :: shared).find? tree.isFile with
  | none => .fail (.missingCompilerConfig own)
  | some path =>
    .tell (.warn ("Using configuration: " ++ path))
    return path

/-- The compilers of a host. -/
def compilers (h : Host) (environment : Table String) (tree : FileTree) :
    Logged (List CompilerInfo) := do
  let uplid ← h.seenUplid
  if uplid.osType == "windows" then return CompilerInfo.windowsCompilers
  let text ← tree.read (← configPath h environment tree)
  return (← CompilerInfo.listed? h.node uplid text).getD []

/-- Lists compilers, the first as the default. -/
def listCompilers (all : List CompilerInfo) : Logged Unit := do
  .tell (.warn "Avaliable compilers:")
  all.zipIdx.forM fun (c, n) => do
    let mark := if n == 0 then "(default)" else ""
    .tell (.warn (" " ++ toString n ++ ": " ++ (← c.description) ++ " " ++ mark))
    .tell (.warn ("     CXX: " ++ c.cxxPath.text ++ "  CC: " ++ c.cPath.text))

/-- The compiler at a position, which counts from the end when it is negative. -/
def compilerAt (all : List CompilerInfo) (position : Int) : Except Failure (Option CompilerInfo) :=
  match position with
  | .ofNat n => .ok all[n]?
  | .negSucc n => if n < all.length then .ok all[all.length - 1 - n]? else .error .outOfRange

/-- The compiler that is asked for, by position or by key; the first one by default. -/
def chosen (all : List CompilerInfo) (wanted : Option String) :
    Except Failure (Option CompilerInfo) :=
  match wanted with
  | none => .ok all.head?
  | some text =>
    match Text.integer? text with
    | some position => compilerAt all position
    | none => do
      let keys ← all.mapM CompilerInfo.key
      return ((all.zip keys).reverse.find? (·.2 == text)).map Prod.fst

/-- The variables that the command sets. -/
def vars : List String :=
  ["CXX", "CC", "BDE_WAF_UPLID", "BDE_WAF_UFID", "BDE_WAF_BUILD_DIR", "WAFLOCK", "PREFIX",
    "BDE_WAF_COMP_FLAGS", "PKG_CONFIG_PATH"]

/-- The place of an installation under a directory. -/
def installPath (h : Host) (dir id : String) : Except Failure String := do
  let path := h.paths.join dir id
  if h.family == "cygwin" then
    return Text.trimEnd (← h.shell.run ("cygpath -m \"" ++ path ++ "\""))
  return path

/-- Prints the settings for an installation directory. -/
def exportInstallation (h : Host) (environment : Table String) (dir id : String) :
    Logged Unit := do
  .tell (.warn ("Using install directory: " ++ dir))
  let path ← installPath h dir id
  say ("export PREFIX=\"" ++ path ++ "\"")
  let extra := match environment.getD "BDE_WAF_EXTRA_PKG_CONFIG_PATH" "" with
    | "" => ""
    | more => ":" ++ more
  say ("export PKG_CONFIG_PATH=\"" ++ path ++ "/lib/pkgconfig" ++ extra ++ "\"")

/-- A platform with a compiler chosen for it. -/
def withCompiler (bare : Uplid) (c : CompilerInfo) : Uplid :=
  { bare with compilerType := c.kind.strD, compilerVersion := c.version.strD }

/-- The settings for a build with a compiler, on a platform and in a flavour. -/
def buildLines (c : CompilerInfo) (uplid : Uplid) (ufid : String) : List String :=
  let id := uplid.render ++ "-" ++ ufid
  let programs := if uplid.osType != "windows" then
      ["export CXX=" ++ c.cxxPath.text, "export CC=" ++ c.cPath.text]
    else []
  let flags := if c.flags.truthy then "export BDE_WAF_COMP_FLAGS=\"" ++ c.flags.text ++ "\""
    else "unset BDE_WAF_COMP_FLAGS"
  ["export BDE_WAF_UPLID=" ++ uplid.render, "export BDE_WAF_UFID=" ++ ufid,
    "export BDE_WAF_BUILD_DIR=\"_build/" ++ id ++ "\"",
    "export WAFLOCK=\".lock-waf-" ++ id ++ "\""] ++ programs ++ [flags]

/-- The installation directory that is asked for; an empty one counts as none. -/
def askedDir? (options : Table Datum) : Option String :=
  (options.getD "install_dir" .null).str?.filter (· != "")

/-- The installation directory that was used before, as the environment tells. -/
def earlierDir? (environment : Table String) (uplid : Uplid) : Except Failure (Option String) := do
  match environment.get? "PREFIX" with
  | none => return none
  | some path => return (← Host.installDir? path uplid).filter (· != "")

/-- The installation directory for a build on a platform: the one that is asked for, or the one that
was used before. -/
def usedDir? (environment : Table String) (options : Table Datum) (uplid : Uplid) :
    Except Failure (Option String) :=
  match askedDir? options with
  | some dir => .ok (some dir)
  | none => earlierDir? environment uplid

/-- Prints the settings for a compiler. -/
def exportAll (h : Host) (environment : Table String) (options : Table Datum)
    (c : CompilerInfo) : Logged Unit := do
  let ufid := (← Ufid.ofOptions options).render
  let bare ← h.seenUplid
  let described ← c.description
  let uplid := withCompiler bare c
  .tell (.warn ("Using compiler: " ++ described))
  .tell (.warn ("Using ufid: " ++ ufid))
  (buildLines c uplid ufid).forM say
  match ← usedDir? environment options uplid with
  | some dir => exportInstallation h environment dir (uplid.render ++ "-" ++ ufid)
  | none => pure ()

/-- The language standard for a compiler, its default one if none is given. -/
def standardFor (c : CompilerInfo) (given : Datum) : Except Failure Datum :=
  match given with
  | .null => do return .str (← Ufid.defaultStandard c.kind.strD c.version.str?)
  | given => pure given

/-- Prints the settings for a compiler, in the language standard that is asked for or its own. -/
def settingsFor (h : Host) (environment : Table String) (options : Table Datum)
    (c : CompilerInfo) : Logged Nat := do
  let standard ← standardFor c (options.getD "cpp_std" .null)
  exportAll h environment (options.set "cpp_std" standard) c
  return 0

/-- Prints the settings for the compiler that is asked for. -/
def exportChosen (h : Host) (environment : Table String) (options : Table Datum)
    (all : List CompilerInfo) : Logged Nat := do
  let wanted := options.getD "compiler" .null
  match ← chosen all wanted.str? with
  | none =>
    .tell (.warn ("Invalid compiler: " ++ wanted.text))
    listCompilers all
    return 1
  | some c => settingsFor h environment options c

/-- Runs the command after its line has been read. -/
def perform (h : Host) (environment : Table String) (tree : FileTree) (line : Parsed) :
    Logged Nat := do
  let helped : Logged Nat := ⟨[.out (program h).help], .ok 1⟩
  match line.words with
  | _ :: _ :: _ => helped
  | words =>
    let command := words.headD "set"
    if command == "unset" then
      vars.forM fun name => say ("unset " ++ name)
      return 0
    else if command == "set" || command == "list" then
      let all ← compilers h environment tree
      if all.isEmpty then .die "No valid compilers on this machine."
      else if command == "list" then
        listCompilers all
        return 0
      else exportChosen h environment line.values all
    else
      .tell (.warn ("Invalid command: " ++ command))
      helped

/-- The families of hosts on which the command runs. -/
def families : List String := ["win32", "cygwin", "linux", "aix", "sunos", "darwin", "freebsd"]

/-- Runs the command, up to a failure. -/
def start (h : Host) (environment : Table String) (tree : FileTree) (words : List String) :
    Logged Nat := do
  if !families.contains h.family then .die ("Unsupported platform: " ++ h.family)
  else if h.family == "win32" && !h.isMingw then
    say ("This tool is used to configure unix-style environment variables. On Windows " ++
      "platforms it must be run from a unix shell environment, either cygwin, or " ++
      "mingw/msys/msysgit")
    return 1
  else perform h environment tree (← (program h).parse words)

/-- What a run comes to: a failure that is told to the user ends it with status one. -/
def concluded (x : Logged Nat) : Logged Nat :=
  match x.outcome with
  | .error e => if e.isReported then ⟨x.notices ++ [.warn e.message], .ok 1⟩ else x
  | .ok _ => x

/-- Runs the command. -/
def run (h : Host) (environment : Table String) (tree : FileTree) (words : List String) :
    Logged Nat := concluded (start h environment tree words)

end BuildMeta.EnvCommand
