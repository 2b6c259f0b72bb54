import BuildMeta.Proofs.Repo.Survey
import BuildMeta.Proofs.Text.Cut

/-!
# `Proofs.Repo.PlusPackages` — the headers that a plus package exports

The public headers of a plus package are the entries of a listing (`Listing.Lists`), if it has one.
A package without a listing should export every header that it has (`Exportable`), but exports none:
`headers_of_loadPlus` says what is exported for every tree of files.
-/

namespace BuildMeta

/-! ## Entries of a listing -/

namespace Listing

/-- A name is an entry of a listing: it stands in a line, in front of any comment, and the listing
    has not ended before. -/
def Lists (text name : String) : Prop :=
  ∃ before line after, Text.lines text = before ++ line :: after ∧ "#LEGACY" ∉ before ∧
  line ≠ "#LEGACY" ∧
    Text.Stands Text.isBlank name.toList (line.toList.takeWhile (· != '#'))

/-- The names in a line are its words before the comment. -/
theorem mem_namesIn_iff {line name : String} :
    name ∈ namesIn line ↔ Text.Stands Text.isBlank name.toList (line.toList.takeWhile (· != '#')) := by
  unfold namesIn Text.words Text.before
  rw [String.toList_ofList, List.mem_map, ← Text.mem_runsOutside_iff]
  constructor
  · rintro ⟨word, hword, rfl⟩
    rwa [String.toList_ofList]
  · intro hword
    exact ⟨name.toList, hword, String.ofList_toList⟩

/-- The lines of a listing are those up to the line that ends it. -/
theorem mem_takeWhile_iff {lines : List String} {line : String} :
    line ∈ lines.takeWhile (· != "#LEGACY") ↔
      ∃ before after, lines = before ++ line :: after ∧ "#LEGACY" ∉ before ∧ line ≠ "#LEGACY" := by
  constructor
  · intro hline
    obtain ⟨before, after, hsplit⟩ := List.append_of_mem hline
    refine ⟨before, after ++ lines.dropWhile (· != "#LEGACY"), ?_, ?_, ?_⟩
    · calc lines = lines.takeWhile (· != "#LEGACY") ++ lines.dropWhile (· != "#LEGACY") :=
            List.takeWhile_append_dropWhile.symm
        _ = before ++ line :: (after ++ lines.dropWhile (· != "#LEGACY")) := by rw [hsplit]; simp
    · intro hend
      have hin : "#LEGACY" ∈ lines.takeWhile (· != "#LEGACY") := by
        rw [hsplit]
        exact List.mem_append_left _ hend
      simpa using List.mem_takeWhile_imp hin
    · simpa using List.mem_takeWhile_imp hline
  · rintro ⟨before, after, rfl, hbefore, hline⟩
    rw [List.takeWhile_append_of_pos, List.takeWhile_cons_of_pos (by simpa using hline)]
    · exact List.mem_append_right _ List.mem_cons_self
    · intro l hl
      simpa using fun e : l = "#LEGACY" => hbefore (e ▸ hl)

/-- **What is read from a listing are its entries.** -/
theorem mem_names_iff {text name : String} : name ∈ names text ↔ Lists text name := by
  unfold names Lists
  rw [List.mem_flatMap]
  constructor
  · rintro ⟨line, hline, hname⟩
    obtain ⟨before, after, hlines, hbefore, hne⟩ := mem_takeWhile_iff.mp hline
    exact ⟨before, line, after, hlines, hbefore, hne, mem_namesIn_iff.mp hname⟩
  · rintro ⟨before, line, after, hlines, hbefore, hne, hname⟩
    exact ⟨line, mem_takeWhile_iff.mpr ⟨before, after, hlines, hbefore, hne⟩, mem_namesIn_iff.mpr hname⟩

end Listing

namespace SourceUnit

variable {tree : FileTree} {verbose : Bool} {path : String} {u : SourceUnit}

/-! ## Headers -/

/-- Whether a name is one of a header that is not hidden. -/
def isHeaderName (name : String) : Bool :=
  (Text.endsWith name ".h" || Text.endsWith name ".SUNWCCh") && !Text.startsWith name "."

/-- The headers of a package that are not for tests, by their paths inside the package: those in its
    directory, and those in a directory inside it. -/
inductive Exportable (tree : FileTree) (path : String) : String → Prop
  | here {name : String} (hheader : isHeaderName name = true) (hname : name ∈ tree.list path)
      (hfile : tree.isFile (Path.join path name) = true) : Exportable tree path name
  | below {dir name : String} (hdir : dir ∈ tree.subdirs path) (htest : dir ≠ "test")
      (hheader : isHeaderName name = true) (hname : name ∈ tree.list (Path.join path dir))
      (hfile : tree.isFile (Path.joinAll path [dir, name]) = true) :
      Exportable tree path (Path.join dir name)

/-! ## Loading a plus package -/

/-- A file of a package that is named for it. -/
def packageFile (path ending : String) : String :=
  Path.joinAll path ["package", Path.baseName path ++ ending]

/-- What is common to all packages is loaded if the three files of rules are. -/
theorem exists_loadCommon_iff {place : String} {kind : UnitKind} :
    (∃ u, (loadCommon tree verbose path place kind).outcome = .ok u) ↔
    ∀ ending ∈ [".opts", ".defs", ".cap"],
      ∃ rules, (loadRules tree verbose (Path.joinAll path [place, Path.baseName path ++ ending])).outcome
        = .ok rules := by
  unfold loadCommon
  simp only [List.forall_mem_cons, List.not_mem_nil, false_implies, implies_true, and_true]
  constructor
  · rintro ⟨u, h⟩
    obtain ⟨opts, hopts, hrest⟩ := Logged.outcome_bind_eq_ok_iff.mp h
    obtain ⟨defs, hdefs, hrest⟩ := Logged.outcome_bind_eq_ok_iff.mp hrest
    obtain ⟨cap, hcap, _⟩ := Logged.outcome_bind_eq_ok_iff.mp hrest
    exact ⟨⟨opts, hopts⟩, ⟨defs, hdefs⟩, ⟨cap, hcap⟩⟩
  · rintro ⟨⟨opts, hopts⟩, ⟨defs, hdefs⟩, ⟨cap, hcap⟩⟩
    rw [Logged.outcome_bind, hopts, Failure.ok_bind, Logged.outcome_bind, hdefs, Failure.ok_bind,
      Logged.outcome_bind, hcap]
    exact ⟨_, rfl⟩

/-- The listing of public headers, if a package has one. -/
def listedHeaders (tree : FileTree) (path : String) : Option (List String) :=
  if tree.isFile (packageFile path ".pub") then some
    (Listing.loadSet tree (packageFile path ".pub")) else none

theorem listedHeaders_of_read {text : String} (hfile : tree.isFile (packageFile path ".pub") = true)
    (htext : tree.read (packageFile path ".pub") = .ok text) :
    listedHeaders tree path = some (Text.sortedSet (Listing.names text)) := by
  unfold listedHeaders Listing.loadSet Listing.load
  rw [if_pos hfile, htext]

theorem listedHeaders_of_not_file (hfile : tree.isFile (packageFile path ".pub") = false) :
    listedHeaders tree path = none := by
  unfold listedHeaders
  rw [hfile, if_neg Bool.false_ne_true]

/-- A plus package is loaded if what it has in common with other packages is. -/
theorem loadPlus_ok : (loadPackage tree verbose path .plus).outcome = .ok u ↔
    ∃ common, (loadCommon tree verbose path "package" .plus).outcome = .ok common ∧
      u = { common with
        pub := listedHeaders tree path
        hasDums := tree.isFile (packageFile path ".dums")
        plusFiles := some (loadPlusFiles tree path (listedHeaders tree path)) } := by
  unfold loadPackage
  rw [Logged.outcome_bind_eq_ok_iff]
  refine exists_congr fun common => and_congr_right fun hcommon => ?_
  obtain ⟨_, _, hname, _⟩ := Context.loadCommon_ok hcommon
  unfold listedHeaders packageFile
  rw [if_pos (show (UnitKind.plus == .plus) = true from rfl), ← hname]
  constructor
  · intro h
    cases h
    rfl
  · rintro rfl
    rfl

/-- **A plus package exports the headers that it lists, and none if it lists none.**  So a package
    without a listing exports every header exactly if it has none. -/
theorem headers_of_loadPlus (tree : FileTree) (verbose : Bool) (path : String) :
    ((∃ u, (loadPackage tree verbose path .plus).outcome = .ok u) ↔
      ∀ ending ∈ [".opts", ".defs", ".cap"],
      ∃ rules, (loadRules tree verbose (packageFile path ending)).outcome = .ok rules) ∧
    ∀ u, (loadPackage tree verbose path .plus).outcome = .ok u → ∃ files, u.plusFiles = some files ∧
      (tree.isFile (packageFile path ".pub") = true → tree.isDir (packageFile path ".pub") = false →
        ∃ text, tree.read (packageFile path ".pub") = .ok text ∧ ∀ h, h ∈ files.headers ↔
          Listing.Lists text h) ∧
      (tree.isFile (packageFile path ".pub") = false → files.headers = [] ∧
        ((∀ h, Exportable tree path h → h ∈ files.headers) ↔ ∀ h, ¬ Exportable tree path h)) := by
  constructor
  · have hcommon : (∃ u, (loadCommon tree verbose path "package" .plus).outcome = .ok u) ↔ _ :=
      exists_loadCommon_iff
    refine Iff.trans ?_ hcommon
    constructor
    · rintro ⟨u, hu⟩
      obtain ⟨common, hcommon, _⟩ := loadPlus_ok.mp hu
      exact ⟨common, hcommon⟩
    · rintro ⟨common, hcommon⟩
      exact ⟨_, loadPlus_ok.mpr ⟨common, hcommon, rfl⟩⟩
  · intro u hu
    obtain ⟨common, _, rfl⟩ := loadPlus_ok.mp hu
    refine ⟨_, rfl, ?_, ?_⟩
    · intro hfile hdir
      have hread : ∃ text, tree.read (packageFile path ".pub") = .ok text := by
        unfold FileTree.read
        rw [hdir, if_neg Bool.false_ne_true, if_pos hfile]
        exact ⟨_, rfl⟩
      obtain ⟨text, htext⟩ := hread
      refine ⟨text, htext, fun h => ?_⟩
      rw [listedHeaders_of_read hfile htext, ← Listing.mem_names_iff]
      exact Text.mem_sortedSet
    · intro hfile
      rw [listedHeaders_of_not_file hfile]
      refine ⟨rfl, ?_⟩
      constructor
      · exact fun hall h hexportable => List.not_mem_nil (hall h hexportable)
      · exact fun hnone h hexportable => absurd hexportable (hnone h)

/-- The files of a plus package with one header, and no listing. -/
def plusTree : FileTree where
  files := .ofList [("/p+q/package/p+q.mem", ""), ("/p+q/a.h", "")]
  dirs := ["/", "/p+q", "/p+q/package"]

/-- The header is not exported. -/
theorem headers_missing : ∃ u files, (loadPackage plusTree false "/p+q" .plus).outcome = .ok u ∧
    u.plusFiles = some files ∧ plusTree.isFile (packageFile "/p+q" ".pub") = false ∧
    Exportable plusTree "/p+q" "a.h" ∧ files.headers = [] := by
  have hrules : ∀ ending ∈ [".opts", ".defs", ".cap"],
      ∃ rules, (loadRules plusTree false (packageFile "/p+q" ending)).outcome = .ok rules := by
    intro ending hending
    refine Failure.exists_of_isOk ?_
    simp only [List.mem_cons, List.not_mem_nil, or_false] at hending
    rcases hending with rfl | rfl | rfl <;> decide +kernel
  obtain ⟨common, hcommon⟩ : ∃ u, (loadCommon plusTree false "/p+q" "package" .plus).outcome = .ok u :=
    exists_loadCommon_iff.mpr hrules
  have hpub : plusTree.isFile (packageFile "/p+q" ".pub") = false := by decide +kernel
  have hlisted : "a.h" ∈ plusTree.list "/p+q" := Text.mem_sortedSet.mpr (by decide +kernel)
  refine ⟨_, _, loadPlus_ok.mpr ⟨common, hcommon, rfl⟩, rfl, hpub, ?_, ?_⟩
  · exact .here (by decide) hlisted (by decide +kernel)
  · rw [listedHeaders_of_not_file hpub]
    rfl

end SourceUnit

end BuildMeta
