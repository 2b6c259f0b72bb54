import BuildMeta.Proofs.Pkg.SearchOrder

/-!
# `Proofs.Pkg.Shadowing` — files behind the one that is taken

A search for a requirement takes the first file on its path that meets it.  The files behind that
one are shadowed, and should not matter.  But a search loads all files before it compares a version,
so each of them has to be harmless: it cannot be opened, or it can be loaded and its version be
compared.

* `find_eq_ok_iff` — a search delivers a package if and only if that is the best and all candidates
  are harmless;
* `load_congr` — what is loaded from a file depends on the text of that file only;
* `search_first_iff` — so the first file that meets a requirement is taken exactly if all others are
  harmless, and changing the shadowed files changes nothing exactly if they stay so.
-/

namespace BuildMeta.Pkg

/-- Searches a path for a package. -/
def Site.search (site : Site) (path : SearchPath) (r : Requirement) : Logged Package := do
  (← Search.start site path).find r

/-- A file that a search gets past: it cannot be opened, or it is loaded and its version can be
    compared. -/
def Site.Harmless (site : Site) (r : Requirement) (file : String) : Prop :=
  (∃ e reason, (Package.load site file).outcome = .error e ∧ e.systemText? = some reason) ∨
    ∃ p met, (Package.load site file).outcome = .ok p ∧ r.metBy p.version = .ok met

/-- The path of a package file is asked for in place of a name. -/
def Site.isDirect (site : Site) (r : Requirement) : Bool :=
  site.tree.isFile r.name && Path.extension r.name == ".pc"

/-- The search for a name can be told of, if it has to be. -/
def Site.Announces (site : Site) (r : Requirement) : Prop :=
  site.isDirect r = false → site.settings.isOn "debug" = true → ∃ text, r.render = .ok text

variable {site : Site} {s : Search} {r : Requirement} {p : Package} {packages : List Package}
  {paths : List String}

/-! ## Loading -/

theorem linkFlags_tree (tree : FileTree) : Site.linkFlags { site with tree } = site.linkFlags := by
  -- The words are gone through with the settings and the system only, so both recursions are the same.
  have hfrom : Site.linkFlagsFrom { site with tree } = site.linkFlagsFrom := by
    delta Site.linkFlagsFrom
    rfl
  unfold Site.linkFlags
  rw [hfrom]

theorem ofContents_tree (tree : FileTree) (file : String) (c : Contents) :
    Package.ofContents { site with tree } file c = Package.ofContents site file c := by
  unfold Package.ofContents
  rw [linkFlags_tree]
  rfl

/-- **What is loaded from a file depends on the text of that file only.** -/
theorem load_congr {tree : FileTree} {file : String} (h : tree.read file = site.tree.read file) :
    Package.load { site with tree } file = Package.load site file := by
  unfold Package.load
  dsimp only
  rw [h]
  simp only [ofContents_tree]

/-! ## Choosing -/

/-- Of some packages, those that meet a requirement. -/
def Requirement.choose (r : Requirement) (packages : List Package) : Except Failure (List Package) :=
  packages.filterMapM fun p => do return if ← r.metBy p.version then some p else none

/-- Whether a package is known to meet a requirement. -/
def Requirement.meets (r : Requirement) (p : Package) : Bool := (r.metBy p.version).toOption.getD false

theorem meets_of_ok {met : Bool} (h : r.metBy p.version = .ok met) : r.meets p = met := by
  rw [Requirement.meets, h]
  rfl

/-- Choosing goes through the packages one by one, and fails if one cannot be compared. -/
theorem choose_cons : r.choose (p :: packages) = r.metBy p.version >>= fun met =>
    r.choose packages >>= fun rest => pure (if met then p :: rest else rest) := by
  unfold Requirement.choose
  rw [List.filterMapM_cons]
  cases r.metBy p.version with
  | error e => rfl
  | ok met =>
    cases met with
    | true => rfl
    | false => exact (bind_pure _).symm

/-- One version after the other is compared, also behind a package that meets the requirement. -/
theorem choose_eq_ok_iff {fitting : List Package} : r.choose packages = .ok fitting ↔
    (∀ p ∈ packages, ∃ met, r.metBy p.version = .ok met) ∧ fitting = packages.filter r.meets := by
  induction packages generalizing fitting with
  | nil =>
    constructor
    · intro h
      exact ⟨fun p hp => absurd hp List.not_mem_nil, (Except.ok.inj h).symm⟩
    · rintro ⟨-, rfl⟩
      rfl
  | cons p packages ih =>
    have hfilter : ∀ {met}, r.metBy p.version = .ok met →
        (p :: packages).filter r.meets
          = if met then p :: packages.filter r.meets else packages.filter r.meets := by
      intro met hmet
      rw [List.filter_cons, meets_of_ok hmet]
    rw [choose_cons, Failure.bind_eq_ok_iff, List.forall_mem_cons]
    constructor
    · rintro ⟨met, hmet, h⟩
      obtain ⟨rest, hrest, h⟩ := Failure.bind_eq_ok_iff.mp h
      obtain ⟨hpackages, rfl⟩ := ih.mp hrest
      exact ⟨⟨⟨met, hmet⟩, hpackages⟩, by rw [hfilter hmet]; exact (Except.ok.inj h).symm⟩
    · rintro ⟨⟨⟨met, hmet⟩, hpackages⟩, rfl⟩
      refine ⟨met, hmet, ?_⟩
      rw [ih.mpr ⟨hpackages, rfl⟩, Failure.ok_bind, hfilter hmet]
      rfl

/-- All candidates are tried, and they all have to be harmless up to there. -/
theorem exists_tried (h : ∀ file ∈ paths, s.site.Harmless r file) :
    ∃ packages, s.Tried paths packages ∧ ∀ p ∈ packages, ∃ met, r.metBy p.version = .ok met := by
  induction paths with
  | nil => exact ⟨[], .nil, fun p hp => absurd hp List.not_mem_nil⟩
  | cons file paths ih =>
    rw [List.forall_mem_cons] at h
    obtain ⟨packages, htried, hmet⟩ := ih h.2
    rcases h.1 with ⟨e, reason, hload, hreason⟩ | ⟨p, met, hload, hp⟩
    · exact ⟨packages, .unopened hload hreason htried, hmet⟩
    · exact ⟨p :: packages, .opened hload htried, List.forall_mem_cons.mpr ⟨⟨met, hp⟩, hmet⟩⟩

/-- Files that were all tried and compared are harmless. -/
theorem harmless_of_tried (h : s.Tried paths packages)
    (hmet : ∀ p ∈ packages, ∃ met, r.metBy p.version = .ok met) :
    ∀ file ∈ paths, s.site.Harmless r file := by
  induction h with
  | nil => exact fun file hfile => absurd hfile List.not_mem_nil
  | opened hload _ ih =>
    rw [List.forall_mem_cons] at hmet ⊢
    obtain ⟨met, hp⟩ := hmet.1
    exact ⟨Or.inr ⟨_, met, hload, hp⟩, ih hmet.2⟩
  | unopened hload hreason _ ih =>
    exact List.forall_mem_cons.mpr ⟨Or.inl ⟨_, _, hload, hreason⟩, ih hmet⟩

theorem outcome_notOpened (settings : Settings) (file reason : String) :
    (Search.notOpened settings file reason).outcome = .ok () := by
  unfold Search.notOpened Settings.complain
  split <;> rfl

/-- **Loading candidates succeeds exactly if each of them can be loaded or cannot be opened.** -/
theorem loadAll_eq_ok_iff : (s.loadAll paths).outcome = .ok packages ↔ s.Tried paths packages := by
  refine ⟨Search.tried_of_loadAll, fun h => ?_⟩
  unfold Search.loadAll
  rw [Logged.outcome_bind, Logged.outcome_mapM]
  induction h with
  | nil => rfl
  | @opened file p paths packages hload _ ih =>
    obtain ⟨found, hfound, hfilter⟩ := Failure.bind_eq_ok_iff.mp ih
    refine Failure.bind_eq_ok_iff.mpr
      ⟨some p :: found, ?_, congrArg _ (congrArg (p :: ·) (Except.ok.inj hfilter))⟩
    rw [List.mapM_cons, hfound, Logged.outcome_bind, Logged.attempt, hload]
    rfl
  | @unopened file e reason paths packages hload hreason _ ih =>
    obtain ⟨found, hfound, hfilter⟩ := Failure.bind_eq_ok_iff.mp ih
    refine Failure.bind_eq_ok_iff.mpr ⟨none :: found, ?_, hfilter⟩
    rw [List.mapM_cons, hfound, Logged.outcome_bind, Logged.attempt, hload]
    dsimp only
    rw [Failure.ok_bind]
    split
    · next herror => cases herror
    · next herror =>
      obtain rfl := Except.error.inj herror
      cases hreason
    · next herror =>
      obtain rfl := Except.error.inj herror
      rw [hreason]
      dsimp only
      rw [Logged.outcome_bind, outcome_notOpened]
      rfl

/-! ## Searching -/

/-- Looking up candidates fails only if it cannot say for what it looks. -/
theorem pathsFor_eq_ok_iff :
    (s.pathsFor r).outcome = .ok paths ↔ s.site.Announces r ∧ paths = s.candidates r.name := by
  have hcandidates : s.site.Announces r → (s.pathsFor r).outcome = .ok (s.candidates r.name) := by
    intro h
    unfold Search.pathsFor Search.candidates
    cases hdirect : s.site.isDirect r with
    | true =>
      unfold Site.isDirect at hdirect
      dsimp only
      rw [if_pos hdirect, if_pos hdirect, Settings.outcome_debug_bind]
      rfl
    | false =>
      have hsaid := h hdirect
      unfold Site.isDirect at hdirect
      dsimp only
      rw [if_neg (Bool.eq_false_iff.mp hdirect), if_neg (Bool.eq_false_iff.mp hdirect)]
      cases hdebug : s.site.settings.isOn "debug" with
      | true =>
        obtain ⟨text, htext⟩ := hsaid hdebug
        rw [if_pos rfl, htext, Logged.lift_ok, pure_bind, Settings.outcome_debug_bind]
        exact Search.outcome_filesFor s r.name
      | false => exact Search.outcome_filesFor s r.name
  constructor
  · intro h
    refine ⟨fun hdirect hdebug => ?_, Search.outcome_pathsFor h⟩
    unfold Site.isDirect at hdirect
    unfold Search.pathsFor at h
    dsimp only at h
    rw [if_neg (Bool.eq_false_iff.mp hdirect), if_pos hdebug] at h
    obtain ⟨text, htext, -⟩ := Logged.outcome_bind_eq_ok_iff.mp h
    exact ⟨text, htext⟩
  · rintro ⟨hannounces, rfl⟩
    exact hcandidates hannounces

/-- A search delivers a package exactly if all candidates could be tried, and the package is the
    first one chosen. -/
theorem find_eq_ok_iff_choose : (s.find r).outcome = .ok p ↔ s.site.Announces r ∧
    ∃ packages rest, s.Tried (s.candidates r.name) packages ∧ r.choose packages = .ok (p :: rest) := by
  constructor
  · intro h
    obtain ⟨paths, packages, rest, hpaths, hpackages, hfitting⟩ := Search.exists_steps_of_find h
    obtain ⟨hannounces, rfl⟩ := pathsFor_eq_ok_iff.mp hpaths
    exact ⟨hannounces, packages, rest, loadAll_eq_ok_iff.mp hpackages, hfitting⟩
  · rintro ⟨hannounces, packages, rest, htried, hchoose⟩
    have hpackages : packages.isEmpty = false := by
      cases packages with
      | nil => cases hchoose
      | cons q packages => rfl
    have hcandidates : (s.candidates r.name).isEmpty = false := by
      cases hnil : s.candidates r.name with
      | nil =>
        rw [hnil] at htried
        cases htried
        cases hpackages
      | cons file files => rfl
    unfold Search.find
    rw [Logged.outcome_bind, pathsFor_eq_ok_iff.mpr ⟨hannounces, rfl⟩, Failure.ok_bind,
      Settings.outcome_debug_bind]
    dsimp only
    rw [hcandidates, if_neg Bool.false_ne_true, Logged.outcome_bind, loadAll_eq_ok_iff.mpr htried,
      Failure.ok_bind, hpackages, if_neg Bool.false_ne_true]
    have hfitting : (liftM (r.choose packages) : Logged (List Package)).outcome = .ok (p :: rest) := by
      rw [Logged.outcome_lift, hchoose]
    refine Logged.outcome_bind_eq_ok_iff.mpr ⟨p :: rest, hfitting, ?_⟩
    rw [Settings.outcome_debug_bind]
    rfl

/-- A candidate that is opened is among the packages. -/
theorem mem_of_tried {file : String} (h : s.Tried paths packages) (hfile : file ∈ paths)
    (hload : (Package.load s.site file).outcome = .ok p) : p ∈ packages := by
  induction h with
  | nil => cases hfile
  | @opened first q paths packages hfirst _ ih =>
    rcases List.mem_cons.mp hfile with rfl | hfile
    · rw [Except.ok.inj (hload.symm.trans hfirst)]
      exact List.mem_cons_self
    · exact List.mem_cons_of_mem q (ih hfile)
  | @unopened first e reason paths packages hfirst _ _ ih =>
    rcases List.mem_cons.mp hfile with rfl | hfile
    · cases hload.symm.trans hfirst
    · exact ih hfile

/-- **A search delivers a package if and only if that is the best, and all candidates are harmless.** -/
theorem find_eq_ok_iff : (s.find r).outcome = .ok p ↔
    s.Best r p ∧ s.site.Announces r ∧ ∀ file ∈ s.candidates r.name, s.site.Harmless r file := by
  constructor
  · intro h
    obtain ⟨hannounces, packages, rest, htried, hchoose⟩ := find_eq_ok_iff_choose.mp h
    exact ⟨Search.best_of_find h, hannounces, harmless_of_tried htried (choose_eq_ok_iff.mp hchoose).1⟩
  · rintro ⟨hbest, hannounces, hharmless⟩
    obtain ⟨packages, htried, hmet⟩ := exists_tried hharmless
    -- What meets the requirement comes first in what is chosen, and that is the best.
    have hp : p ∈ packages.filter r.meets := by
      obtain ⟨before, file, after, hsplit, -, hload, htrue⟩ := hbest
      have hfile : file ∈ s.candidates r.name := by
        rw [hsplit]
        exact List.mem_append_right _ List.mem_cons_self
      exact List.mem_filter.mpr ⟨mem_of_tried htried hfile hload, meets_of_ok htrue⟩
    obtain ⟨first, rest, hfilter⟩ := List.exists_cons_of_ne_nil (List.ne_nil_of_mem hp)
    have hchoose : r.choose packages = .ok (first :: rest) := choose_eq_ok_iff.mpr ⟨hmet, hfilter.symm⟩
    have hfirst : (s.find r).outcome = .ok first :=
      find_eq_ok_iff_choose.mpr ⟨hannounces, packages, rest, htried, hchoose⟩
    rw [hfirst, (Search.best_of_find hfirst).unique hbest]

/-! ## Searching a path -/

variable {path : SearchPath} {before after : List String} {file : String}

/-- A file that is offered for a name has a longer path than the name, so it is not the file that a
    name stands for itself. -/
theorem length_lt_of_mem_filesIn {tree : FileTree} {dirs : List String} {name : String}
    (h : file ∈ filesIn tree dirs name) :
    name.length < file.length := by
  obtain ⟨dir, -, rfl⟩ := List.mem_map.mp (List.mem_eraseDups.mp h)
  have hend : (".pc" : String).length = 3 := rfl
  unfold Path.join fileOf
  split
  · rw [String.length_append]
    omega
  · split
    · simp only [String.length_append]
      omega
    · simp only [String.length_append]
      omega

/-- What is offered for a name lies below a directory, so it is not the name. -/
theorem length_lt_of_mem_offered (hdirect : site.isDirect r = false)
    (h : file ∈ offered site path r.name) :
    r.name.length < file.length := by
  unfold Site.isDirect at hdirect
  unfold offered at h
  dsimp only at h
  rw [if_neg (Bool.eq_false_iff.mp hdirect)] at h
  split at h
  · have hlonger := length_lt_of_mem_filesIn h
    rw [String.length_append] at hlonger
    omega
  · split at h
    · cases h
    · exact length_lt_of_mem_filesIn h

/-- What is changed behind a candidate does not turn the path of a file into a name. -/
theorem announces_of_offered {tree : FileTree} {after' : List String} (h : site.Announces r)
    (hoffered : offered site path r.name = before ++ file :: after)
    (hoffered' : offered { site with tree } path r.name = before ++ file :: after') :
    Site.Announces { site with tree } r := by
  intro hdirect' hdebug
  cases hdirect : site.isDirect r with
  | false => exact h hdirect hdebug
  | true =>
    have hself : offered site path r.name = [r.name] := if_pos hdirect
    have hfile : file = r.name := by
      have hmem : file ∈ offered site path r.name := by
        rw [hoffered]
        exact List.mem_append_right _ List.mem_cons_self
      rw [hself] at hmem
      exact List.mem_singleton.mp hmem
    have hlonger : r.name.length < file.length := by
      apply length_lt_of_mem_offered hdirect'
      rw [hoffered']
      exact List.mem_append_right _ List.mem_cons_self
    rw [hfile] at hlonger
    exact absurd hlonger (Nat.lt_irrefl _)

/-- **The first file that counts.**  It is taken exactly if all candidates are harmless, itself
    included. -/
theorem search_eq_ok_iff (hwindows : site.windows = false)
    (hoffered : offered site path r.name = before ++ file :: after)
    (hbefore : ∀ other ∈ before, ∃ q, (Package.load site other).outcome = .ok q ∧
      r.metBy q.version ≠ .ok true)
    (hload : (Package.load site file).outcome = .ok p) (hmet : r.metBy p.version = .ok true) :
    (site.search path r).outcome = .ok p ↔ site.Announces r ∧
    ∀ other ∈ before ++ after, site.Harmless r other := by
  obtain ⟨s, hstart, rfl, hcandidates⟩ := exists_start path hwindows
  have hfind : (s.site.search path r).outcome = (s.find r).outcome := by
    unfold Site.search
    rw [Logged.outcome_bind, hstart, Failure.ok_bind]
  rw [hfind, find_eq_ok_iff, hcandidates, hoffered]
  have hfile : s.site.Harmless r file := Or.inr ⟨p, true, hload, hmet⟩
  constructor
  · rintro ⟨-, hannounces, hharmless⟩
    refine ⟨hannounces, fun other hother => hharmless other ?_⟩
    rcases List.mem_append.mp hother with hother | hother
    · exact List.mem_append_left _ hother
    · exact List.mem_append_right _ (List.mem_cons_of_mem file hother)
  · rintro ⟨hannounces, hharmless⟩
    rw [List.forall_mem_append] at hharmless
    refine ⟨⟨before, file, after, (hcandidates r.name).trans hoffered, fun other hother => ?_,
      hload, hmet⟩, hannounces, List.forall_mem_append.mpr ⟨hharmless.1,
      List.forall_mem_cons.mpr ⟨hfile, hharmless.2⟩⟩⟩
    -- A file before it was loaded and does not meet the requirement, and that is decided.
    obtain ⟨q, hq, hunmet⟩ := hbefore other hother
    rcases hharmless.1 other hother with ⟨e, _, herror, -⟩ | ⟨q', met, hq', hcompared⟩
    · cases hq.symm.trans herror
    · obtain rfl := Except.ok.inj (hq.symm.trans hq')
      cases met with
      | true => exact absurd hcompared hunmet
      | false => exact Or.inr ⟨q, hq, hcompared⟩

/-- **When shadowed files do not matter.**  Let all files before the first that meets a requirement
    be loaded.  A search delivers its package exactly if the other candidates are harmless, those
    behind it too.  If it does, then files behind it that are added, removed or changed leave its
    outcome as it is exactly if they are harmless. -/
theorem search_first_iff (hwindows : site.windows = false)
    (hoffered : offered site path r.name = before ++ file :: after)
    (hbefore : ∀ other ∈ before, ∃ q, (Package.load site other).outcome = .ok q ∧
      r.metBy q.version ≠ .ok true)
    (hload : (Package.load site file).outcome = .ok p) (hmet : r.metBy p.version = .ok true) :
    ((site.search path r).outcome = .ok p ↔ site.Announces r ∧
      ∀ other ∈ before ++ after, site.Harmless r other) ∧
      ((site.search path r).outcome = .ok p → ∀ (tree : FileTree) (after' : List String),
        offered { site with tree } path r.name = before ++ file :: after' →
        (∀ other ∈ before ++ [file], tree.read other = site.tree.read other) →
        ((Site.search { site with tree } path r).outcome = (site.search path r).outcome ↔
          ∀ other ∈ after', Site.Harmless { site with tree } r other)) := by
  have hfirst := search_eq_ok_iff hwindows hoffered hbefore hload hmet
  refine ⟨hfirst, fun hfound tree after' hoffered' hread => ?_⟩
  obtain ⟨hannounces, hharmless⟩ := hfirst.mp hfound
  rw [List.forall_mem_append] at hread hharmless
  have hsame : ∀ other ∈ before, Package.load { site with tree } other = Package.load site other :=
    fun other hother =>
    load_congr (hread.1 other hother)
  have hwindows' : ({ site with tree } : Site).windows = false := hwindows
  have hload' : (Package.load { site with tree } file).outcome = .ok p := by
    rw [load_congr (hread.2 file List.mem_cons_self)]
    exact hload
  have hbefore' : ∀ other ∈ before, ∃ q, (Package.load { site with tree } other).outcome = .ok q ∧
      r.metBy q.version ≠ .ok true := by
    intro other hother
    rw [hsame other hother]
    exact hbefore other hother
  have hharmless' : ∀ other ∈ before, Site.Harmless { site with tree } r other := by
    intro other hother
    unfold Site.Harmless
    rw [hsame other hother]
    exact hharmless.1 other hother
  rw [hfound, search_eq_ok_iff hwindows' hoffered' hbefore' hload' hmet, List.forall_mem_append]
  constructor
  · rintro ⟨-, -, hafter⟩
    exact hafter
  · intro hafter
    exact ⟨announces_of_offered hannounces hoffered hoffered', hharmless', hafter⟩

/-- A file whose version is compared, as far as that can be computed. -/
theorem exists_loaded {met : Bool}
    (h : ((Package.load site file).outcome.map fun p => r.metBy p.version) = .ok (.ok met)) :
    ∃ p, (Package.load site file).outcome = .ok p ∧ r.metBy p.version = .ok met := by
  cases hload : (Package.load site file).outcome with
  | error e =>
    rw [hload] at h
    cases h
  | ok p =>
    rw [hload] at h
    exact ⟨p, rfl, Except.ok.inj h⟩

/-- Three directories with a file for one name; the last is shadowed. -/
def layers (shadowed : String) : Site where
  tree := {
    files :=
      .ofList [("/old/a.pc", "Version: 1\n"), ("/new/a.pc", "Version: 3\n"), ("/far/a.pc", shadowed)]
    dirs := ["/", "/old", "/new", "/far"] }

def layersPath : SearchPath where
  environment := .ofList [("PKG_CONFIG_PATH", "/old:/new"), ("PKG_CONFIG_LIBDIR", "/far")]
  toolPrefix := "/none"

/-- At least version two of the package. -/
def atLeastTwo : Requirement where
  name := "a"
  relation := .greaterOrEqual
  version := Version.parse "2"

/-- The middle file is taken: the first one is too old, and the last one is harmless. -/
theorem search_first_iff_layers :
    offered (layers "Version: 2\n") layersPath "a" = ["/old/a.pc"] ++ "/new/a.pc" :: ["/far/a.pc"] ∧
      ∃ p, (Package.load (layers "Version: 2\n") "/new/a.pc").outcome = .ok p ∧
        atLeastTwo.metBy p.version = .ok true ∧
        ((layers "Version: 2\n").search layersPath atLeastTwo).outcome = .ok p := by
  have hoffered : offered (layers "Version: 2\n") layersPath "a"
      = ["/old/a.pc"] ++ "/new/a.pc" :: ["/far/a.pc"] := by
    decide +kernel
  obtain ⟨old, hold, hunmet⟩ : ∃ p, (Package.load (layers "Version: 2\n") "/old/a.pc").outcome = .ok p ∧
      atLeastTwo.metBy p.version = .ok false := exists_loaded (by decide +kernel)
  obtain ⟨p, hload, hmet⟩ : ∃ p, (Package.load (layers "Version: 2\n") "/new/a.pc").outcome = .ok p ∧
      atLeastTwo.metBy p.version = .ok true := exists_loaded (by decide +kernel)
  obtain ⟨far, hfar, hfarMet⟩ : ∃ p, (Package.load (layers "Version: 2\n") "/far/a.pc").outcome = .ok p ∧
      atLeastTwo.metBy p.version = .ok true := exists_loaded (by decide +kernel)
  have hbefore : ∀ other ∈ ["/old/a.pc"], ∃ q,
      (Package.load (layers "Version: 2\n") other).outcome = .ok q ∧
      atLeastTwo.metBy q.version ≠ .ok true := by
    intro other hother
    obtain rfl := List.mem_singleton.mp hother
    refine ⟨old, hold, ?_⟩
    rw [hunmet]
    decide
  refine ⟨hoffered, p, hload, hmet, (search_first_iff rfl hoffered hbefore hload hmet).1.mpr ⟨?_, ?_⟩⟩
  · intro _ hdebug
    exact absurd hdebug (by decide +kernel)
  · rw [List.forall_mem_append]
    constructor
    · intro other hother
      obtain rfl := List.mem_singleton.mp hother
      exact Or.inr ⟨old, false, hold, hunmet⟩
    · intro other hother
      obtain rfl := List.mem_singleton.mp hother
      exact Or.inr ⟨far, true, hfar, hfarMet⟩

/-- A shadowed file with an unknown variable, or with a version that cannot be compared, takes the
    package away. -/
theorem search_not_shadowed :
    ((layers "Version: 2\n").search layersPath atLeastTwo).outcome.map (·.path) = .ok "/new/a.pc" ∧
      ((layers "x=$\x7by\x7d\n").search layersPath atLeastTwo).outcome.map (·.path) =
        .error (.undefinedVariable "y" (some "/far/a.pc")) ∧
      ((layers "Version: beta\n").search layersPath atLeastTwo).outcome.map (·.path)
        = .error .wrongType := by
  decide +kernel

end BuildMeta.Pkg
