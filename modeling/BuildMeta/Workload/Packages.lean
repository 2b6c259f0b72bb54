import BuildMeta.Pkg.Query
import BuildMeta.Workload.Basic

/-!
# Workloads on packages

Comparing package versions and requirements, and querying a chain of packages.
-/

namespace BuildMeta.Workload

open Pkg

/-! ## Versions -/

/-- All comparisons of a version with the one of the next turn. -/
def versionRow (i : Nat) : Except Failure Datum := do
  let raw := Text.join "." [toString (i % 5), toString (3 * i % 10), toString (i % 7)]
  let a := Version.parse raw
  let order ← a.compare (Version.parse (toString ((i + 1) % 5) ++ ".5.2"))
  return .list (([Relation.less, .lessOrEqual, .equal, .notEqual, .greater, .greaterOrEqual].map
    fun r => .bool (r.accepts order)) ++ [.bool (← a.isEmpty), .str raw])

/-- What there is to say of a requirement, each relation in turn. -/
def relationRow (relation : Relation) : Except Failure (List Datum) := do
  let version := Version.parse "1.0"
  let r : Requirement := { name := "x", relation, version }
  let met : Datum := match r.metBy version with
    | .ok b => .bool b
    | .error _ => .str "typo"
  let same ← r.same { name := "x", relation, version := Version.parse "1.0" }
  let other ← r.same { name := "y", relation, version }
  return [.str relation.render, .list [.str (← r.render), met, .bool same, .bool (!other),
    .bool ((← Relation.ofCode relation.code) == relation), .bool other]]

/-- Compares versions, and renders and reads requirements. -/
def versions : Workload := ofRun fun _ size => do
  let rows ← (List.range size).mapM versionRow
  let same := (← (Version.parse "1.0").compare (Version.parse "1.0")) == .eq
  let longer := (← (Version.parse "1.0").compare (Version.parse "1.0.1")) == .lt
  let relations ← (Relation.table.map Prod.fst).mapM relationRow
  let written := ["<", "<=", "=", ">=", ">", "!="]
  let text := Text.join ", " (table (min size 30) fun i =>
    "pkg" ++ toString i ++ " " ++ inTurn written i ++ " 1." ++ toString i)
  let requirements ← (← Requirement.parseAll text).mapM Requirement.render
  return .list (rows ++ [.bool same, .bool longer] ++ relations.flatten ++
    [failureText (Relation.parse "z"), failureText (Relation.parse "??"),
      failureText (Relation.ofCode 99), .strs requirements])

/-! ## Package files -/

/-- The file of a package that requires the one before. -/
def packageText (i : Nat) : String :=
  let name := "lib" ++ toString i
  unlines (["prefix=/usr/local", "exec_prefix=$\x7bprefix\x7d", "libdir=$\x7bexec_prefix\x7d/lib",
    "includedir=$\x7bprefix\x7d/include", "extra=$\x7blibdir\x7d/sub" ++ toString i, "",
    "Name: " ++ name, "Description: A library number " ++ toString i,
    "Version: 1." ++ toString i ++ "." ++ toString (i % 5)] ++
    (if i == 0 then [] else ["Requires: lib" ++ toString (i - 1) ++ " >= 1.0"]) ++
    ["Cflags: -I$\x7bincludedir\x7d/" ++ name ++ " -DLIB" ++ toString i ++ "=1 -pthread",
      "Libs: -L$\x7blibdir\x7d -l" ++ name ++ " -lm -framework X", "Libs.private: -ldl"])

/-- Texts by name, in the order of the names. -/
def sortedTexts (t : Table String) : Datum :=
  .list ((Text.sort t.keys).map fun key => .strs [key, t.getD key ""])

/-- What the file of a package says when its place is overridden, and a text filled in from it. -/
def contentsRow (path text : String) : Except Failure (List Datum) := do
  let globals : Table String := .ofList [("prefix", "/override")]
  let lines := (Text.fullLines text.toList).map String.ofList
  let c ← (Contents.ofLines .initial (some path) globals lines).outcome
  return [.list [sortedTexts c.rawVariables, sortedTexts c.vars, sortedTexts c.properties],
    .str (← substitute "$\x7bprefix\x7d/x $$\x7besc\x7d" c.vars globals)]

/-- The answers of a query for the last package of the chain. -/
def queryRow (q : Query) : Except Failure Datum := do
  let version (name : String) : Datum := .optStr ((q.versionOf? name).map (·.raw))
  return .list [.str q.render, .str q.compileFlags, .str q.includeDirs, .str q.otherCompile,
    .str q.libs, .str q.libPaths, .str q.otherLink, .str q.linkFlags, .bool q.hasUninstalled,
    .strs ((← q.askedVersions).map (·.raw)), .strs (← q.asked.mapM Requirement.render),
    version "lib0", version "nosuchpkg"]

/-- All packages that can be listed, and what is wrong with the others. -/
def listRow (s : Search) : Except Failure Datum := do
  let (found, problems) := Search.sorted (← s.list.outcome)
  return .list [.list ((found.mergeSort Text.textsLe).map Datum.strs),
    .strs (Text.sort problems)]

/-- Reads a chain of package files and queries its last package. -/
def packages : Workload := fun bench size => do
  let dir := Path.join (bench.dir "bde_pc_") "pkgconfig"
  let path (name : String) : String := Path.join dir (name ++ ".pc")
  let files := table size.toNat fun i => (path ("lib" ++ toString i), packageText i)
  let some (_, first) := files.head? | throw (.noSuchFile (path "lib0"))
  let tree := filesIn dir (files ++ [(path "lib0-uninstalled", first),
    (path "broken", unlines ["Name: broken", "Description: broken", "Version: 1.0",
      "Cflags: -I$\x7bnope\x7d"])])
  let settings := Settings.initial.setAll (.ofList
    [("prefer_uninstalled", .bool false), ("private_libs", .bool true), ("command", .str "libs")])
  let site : Site := { tree, windows := bench.host.family == "win32", settings, globals := ∅ }
  return do
    let rows ← files.mapM fun (path, text) => contentsRow path text
    let joined ← joinLines ["a=1\\\n", "2\n", "Name: X\n"]
    let search ← (Search.start site
      { environment := .ofList [("PKG_CONFIG_PATH", dir)], toolPrefix := dir }).outcome
    let (query, found) := ({ search } : Query).find
      ("lib" ++ toString (files.length - 1) ++ " >= 1.0") true
    found.outcome
    let unnamed : Datum := match (query.find "" true).2.outcome with
      | .ok _ => .null
      | .error e => .str (bench.nameOf e)
    let package ← (Package.load site (path "lib0")).outcome
    return .list (rows.flatten ++
      [.strs joined, ← queryRow query, ← listRow search,
        .bool (← (search.canOpen (path "lib0")).outcome),
        .bool (← (search.canOpen (path "nosuchpkg")).outcome), unnamed,
        failureText (query.find "nosuchpkg" true).2.outcome, .str (Failure.badPath "/x").message,
        .str (← package.render), .str (Failure.fatal "msg").message,
        failureText (settings.get "no_such_opt"), failureText (substitute "$\x7bundefined_var\x7d" ∅ ∅)])

end BuildMeta.Workload
