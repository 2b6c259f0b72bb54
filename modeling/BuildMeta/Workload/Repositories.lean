import BuildMeta.BuildConfig.Make
import BuildMeta.InstallConfig
import BuildMeta.Repo.Verify
import BuildMeta.Workload.Basic

/-!
# Workloads on repositories

Finding layouts, loading a repository of several package groups, and configuring its build.
-/

namespace BuildMeta.Workload

/-! ## Layouts -/

/-- The files of a repository: one with a layout file, one whose sources are in one directory, one
without either, and one that is a package group. -/
def layoutFiles (root : String) (i : Nat) : FileTree :=
  let files : List (String × String) :=
    match i % 10 with
    | 0 => [(".bdelayoutconfig", "\x7b\"group_dirs\": [\"g1\", \"g2\"], " ++
        "\"stand_alone_package_dirs\": [\"sa\"], \"third_party_package_dirs\": [\"tp\"], " ++
        "\"app_package_dirs\": [\"apps\"], \"group_abs_dirs\": [\".\"]\x7d")]
    | 1 | 2 | 3 => [("src/readme", "")]
    | 4 | 5 | 6 => [("readme", "")]
    | _ => [("group/" ++ Path.baseName root ++ ".mem", "")]
  filesIn root (files.map fun (name, text) => (Path.join root name, text))

/-- Finds layouts: what each says, where it was taken from, and its text. -/
def layouts : Workload := ofRun fun bench size => do
  let rows ← (List.range size).mapM fun i => do
    let root := Path.join (bench.dir "layouts") ("repo" ++ toString i)
    let tree := layoutFiles root i
    let (layout, config) ← (Layout.find tree root).outcome
    let again ← (Layout.read layout.write).outcome
    return [Datum.list [.str layout.view.repr, .str ((config.map Path.baseName).getD ""),
      .bool (again.view.repr == layout.view.repr), .bool (tree.isDir root)], .str layout.write]
  let given ← (Layout.read "\x7b\"group_dirs\": [\"g1\"], \"other\": 1\x7d").outcome
  let last : Datum := match (Layout.read "not a layout").outcome with
    | .ok layout => .str layout.view.repr
    | .error e => .str (bench.nameOf e)
  return .list (rows.flatten ++ [.str given.view.repr, last])

/-! ## Loading -/

/-- The files of a component. -/
def componentFiles (dir name : String) : List (String × String) :=
  [(Path.join dir (name ++ ".h"), "#ifndef INCLUDED\n#define INCLUDED\n#endif\n"),
    (Path.join dir (name ++ ".cpp"), "#include <" ++ name ++ ".h>\n"),
    (Path.join dir (name ++ ".t.cpp"), "#include <" ++ name ++ ".h>\n")]

/-- The files that list the members and the dependencies of a unit. -/
def listFiles (dir place name : String) (members deps : List String) : List (String × String) :=
  let file (ending : String) : String := Path.joinAll dir [place, name ++ ending]
  [(file ".mem", unlines members), (file ".dep", unlines deps)]

/-- The files of a package with one component. -/
def packageFiles (dir name : String) (deps : List String) : List (String × String) :=
  let component := name ++ "_comp"
  listFiles dir "package" name [component] deps ++ componentFiles dir component

/-- The files of a package group: three packages, each depending on the one before, and one that is
not made of components.  A group depends on the one before. -/
def groupFiles (root : String) (i : Nat) : List (String × String) :=
  let name (k : Nat) : String := "gg" ++ toString k
  let inner (k : Nat) : String := name i ++ "p" ++ toString k
  let dir := Path.joinAll root ["groups", name i]
  let extra := name i ++ "+extra"
  listFiles dir "group" (name i) (table 3 inner ++ [extra]) (if i == 0 then [] else [name (i - 1)]) ++
    (table 3 fun k => packageFiles (Path.join dir (inner k)) (inner k)
      (if k == 0 then [] else [inner (k - 1)])).flatten ++
    listFiles (Path.join dir extra) "package" extra [] [] ++
    [(Path.joinAll dir [extra, "extra.h"], "#define EXTRA 1\n")]

/-- The files of a repository: some package groups, an adapter and an application that use the
first group, and a third-party directory. -/
def repositoryFiles (root : String) (size : Nat) : FileTree :=
  let adapter := Path.joinAll root ["adapters", "a_adp"]
  let application := Path.joinAll root ["applications", "m_app"]
  filesIn root ((table size (groupFiles root)).flatten ++
    packageFiles adapter "a_adp" ["gg0"] ++ packageFiles application "m_app" ["gg0"] ++
    [(Path.join application "m_app.m.cpp", "int main() \x7b return 0; \x7d\n"),
      (Path.joinAll root ["thirdparty", "mytp", "wscript"], "")])

/-- The dependencies of every node, in order. -/
def dependencyLists (g : Digraph) : Datum :=
  .list ((Text.sort g.keys).map fun n => .list [.str n, .strs (Text.sort (g.children n))])

/-- Loads and checks a repository: whether it is sound, its units, its units of release and what
they depend on. -/
def repositories : Workload := ofRun fun bench size => do
  let root := bench.dir "repository"
  let tree := repositoryFiles root size
  let context ← (Context.load tree false root).outcome
  let sound ← (context.verify tree).outcome
  return .list [.bool sound, .strs (Text.sort context.units.keys),
    .strs (Text.sort context.releases.keys), dependencyLists context.releaseGraph]

/-! ## Configuring -/

/-- Where everything of a unit is installed. -/
def installRow (c : InstallConfig) (unit : String) : Datum :=
  .list [.bool (c.installs unit), .str (c.targetName unit), .optStr (c.libPath unit),
    .optStr (c.binPath unit), .optStr (c.headerPath unit false "bsl+stdhdrs"),
    .optStr (c.headerPath unit true ""), .optStr (c.pcPath unit), .str c.pcLibDir,
    .str (c.pcIncludeDir unit false), .strs (InstallConfig.pcExtraIncludes unit)]

/-- The description of an installation. -/
def installText (c : InstallConfig) : String :=
  let units := "\x7b" ++ Text.join ", " (Text.sort (c.selected.map Text.quote)) ++ "\x7d"
  let part (name value : String) : String := Text.quote name ++ ": " ++ value
  let onOff (b : Bool) : String := (Datum.bool b).repr
  "\x7b" ++ Text.join ", "
    [part "is_flat_include" (onOff c.flatInclude), part "pc_dir" (Text.quote c.pcDir),
      part "lib_dir" (Text.quote c.libDir), part "lib_suffix" (Text.quote c.libSuffix),
      part "bin_dir" (Text.quote c.binDir), part "install_uors" units,
      part "is_install_h" (onOff c.installsHeaders), part "is_install_lib" (onOff c.installsLibs),
      part "is_install_pc" (onOff c.installsPc), part "is_install_bin" (onOff c.installsBins)] ++
    "\x7d"

/-- The opening of the description of a build, as far as the default flags. -/
def configText (b : BuildConfig) : String :=
  "\x7b'custom_envs': " ++ (Datum.ofTexts b.customEnvs).repr ++ ",\n 'default_flags': " ++
    b.defaultFlags.view.repr

/-- Configures the build of a repository and its installation: into a distribution package, with a
suffix, and of one unit only. -/
def buildConfigs : Workload := fun bench size => do
  let root := bench.dir "repository"
  let tree := repositoryFiles root size.toNat
  let path := bench.dir "def.opts"
  let rules ← (Rule.ofFile path (← bench.tree.read path) false).outcome
  return do
    let context ← (Context.load tree false root).outcome
    let ufid := Ufid.parse "dbg_exc_mt_64_shr"
    let plan : BuildConfig.Plan :=
      { style := .gnu, uplid := ← Uplid.parse "unix-linux-x86_64-3.10-gcc-4.9", ufid
        shell := bench.host.shell, environment := bench.environment }
    let config ← (BuildConfig.make plan context rules).outcome
    let graph := config.releaseGraph
    let units := Text.sort graph.keys
    let whole := InstallConfig.make ufid true false "lib" "bin" ""
    let (done, shipped) := (InstallConfig.select (Text.join "," units) true graph).on whole
    let () ← done
    let (done, plain) := (InstallConfig.select "" false graph).on
      (InstallConfig.make ufid false false "lib" "bin" ".dbg")
    let () ← done
    let (done, single) := (InstallConfig.select (units.headD "") false graph).on whole
    let () ← done
    let rows := [shipped, plain, single].flatMap fun c => units.map (installRow c)
    return .list [.str (Text.take 200 (configText config)), .strs units, dependencyLists graph,
      .list (rows ++ [.strs (InstallConfig.pcExtraIncludes "bsl")]), .str (installText shipped)]

end BuildMeta.Workload
