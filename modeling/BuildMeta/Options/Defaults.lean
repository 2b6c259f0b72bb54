import BuildMeta.FileTree
import BuildMeta.Rule.Reader

/-!
# Default option rules

The rules that hold for every repository: those of the tools, or else of the root directory named
by the environment, followed by the internal rules of that root directory.
-/

namespace BuildMeta.Options

/-- The warning about a missing file of default rules. -/
def defaultsMissing (path : String) : Notice :=
  .warn ("Cannot find default.opts at " ++ path ++
    ". Trying to use $BDE_ROOT/etc/default.opts instead.")

/-- The warning about missing internal rules. -/
def internalMissing : Notice :=
  .warn ("The BDE_ROOT environment variable is set, but $BDE_ROOT/etc/default_internal.opts " ++
    "does not exist.")

/-- Says which file rules are taken from. -/
def usingRules (path : String) : Notice := .entry "Using default option rules from" path

/-- The file of default rules. -/
def findDefaults (tree : FileTree) (tools root : String) : Logged String := do
  let path := Path.joinAll tools ["etc", "default.opts"]
  if tree.isFile path then return path
  Logged.tell (defaultsMissing path)
  let path := Path.joinAll root ["etc", "default.opts"]
  if root != "" && tree.isFile path then return path
  Logged.fail .missingDefaultRules

/-- The default rules, given the directory of the tools and the root directory that the environment
names, which is empty if it names none. -/
def defaults (tree : FileTree) (verbose : Bool) (tools root : String) : Logged (List Rule) := do
  let path ← findDefaults tree tools root
  let rules ← Rule.ofFile path (← tree.read path) verbose
  let internal := Path.joinAll root ["etc", "default_internal.opts"]
  if root == "" then
    Logged.tell (usingRules path)
    return rules
  else if tree.isFile internal then
    let more ← Rule.ofFile internal (← tree.read internal) verbose
    Logged.tell (usingRules path)
    Logged.tell (usingRules internal)
    return rules ++ more
  else
    Logged.tell internalMissing
    Logged.tell (usingRules path)
    return rules

end BuildMeta.Options
