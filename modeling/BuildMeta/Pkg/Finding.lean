import BuildMeta.Pkg.Search

/-!
# Which file a requirement leads to

The candidates of a name are listed in the order of preference (`Search.candidates`).  A search that
succeeds delivers the package of the first of them that meets the requirement (`best_of_find`).
Files are read for what they hold: two ways to write a path lead to the same requirements
(`allRequires_eq`), so the packages of a tree require finitely many names (`exists_requiredNames`).
-/

namespace BuildMeta.Pkg

namespace Search

variable {s : Search} {r : Requirement} {p : Package}

/-! ## Candidates -/

/-- The package files known under a name; those of a package that is not installed take their place, if
    wanted. -/
def knownFor (s : Search) (name : String) : List String :=
  let installed := (s.known.get? name).getD []
  if s.site.settings.isOn "prefer_uninstalled" then
    (s.known.get? (name ++ "-uninstalled")).getD
      (if s.site.settings.isOn "uninstalled_only" then [] else installed)
  else installed

/-- The candidates of a name in the order of preference.  The path of a package file stands for this
    file. -/
def candidates (s : Search) (name : String) : List String :=
  if s.site.tree.isFile name && Path.extension name == ".pc" then [name] else s.knownFor name

/-- A candidate that does not count: it cannot be opened, or its version does not meet the
    requirement. -/
def PassedOver (s : Search) (r : Requirement) (path : String) : Prop :=
  (∃ e reason, (Package.load s.site path).outcome = .error e ∧ e.systemText? = some reason) ∨
    ∃ p, (Package.load s.site path).outcome = .ok p ∧ r.metBy p.version = .ok false

/-- The package of the first candidate that counts. -/
def Best (s : Search) (r : Requirement) (p : Package) : Prop :=
  ∃ before path after, s.candidates r.name = before ++ path :: after ∧
    (∀ other ∈ before, s.PassedOver r other) ∧
    (Package.load s.site path).outcome = .ok p ∧ r.metBy p.version = .ok true

/-- A candidate that counts is not passed over, so no other one counts after it. -/
theorem path_eq_of_passedOver {path path' : String} {after after' more : List String}
    (hload : (Package.load s.site path).outcome = .ok p) (hmet : r.metBy p.version = .ok true)
    (hmore : path :: after = more ++ path' :: after') (hpassed : ∀ other ∈ more, s.PassedOver r other) :
    path = path' := by
  cases more with
  | nil => exact (List.cons.inj hmore).1
  | cons other more =>
    obtain rfl : path = other := (List.cons.inj hmore).1
    rcases hpassed path List.mem_cons_self with ⟨e, _, herror, -⟩ | ⟨p', hload', hunmet⟩
    · cases hload.symm.trans herror
    · obtain rfl := Except.ok.inj (hload.symm.trans hload')
      cases hmet.symm.trans hunmet

theorem Best.unique {p' : Package} (h : s.Best r p) (h' : s.Best r p') : p = p' := by
  obtain ⟨before, path, after, hsplit, hbefore, hload, hmet⟩ := h
  obtain ⟨before', path', after', hsplit', hbefore', hload', hmet'⟩ := h'
  have hpath : path = path' := by
    rcases List.append_eq_append_iff.mp (hsplit.symm.trans hsplit')
      with ⟨more, rfl, hmore⟩ | ⟨more, rfl, hmore⟩
    · exact path_eq_of_passedOver hload hmet hmore fun other ho =>
        hbefore' other (List.mem_append_right _ ho)
    · exact (path_eq_of_passedOver hload' hmet' hmore fun other ho =>
        hbefore other (List.mem_append_right _ ho)).symm
  subst hpath
  exact Except.ok.inj (hload.symm.trans hload')

theorem outcome_filesFor (s : Search) (name : String) :
    (s.filesFor name).outcome = .ok (s.knownFor name) := by
  have hsaid : ∀ line (paths : List String),
      (do s.site.settings.debug line; return paths : Logged _).outcome = .ok paths :=
    fun line paths => Settings.outcome_debug_bind _ line fun _ => pure paths
  unfold filesFor knownFor
  rw [Settings.outcome_debug_bind]
  cases s.site.settings.isOn "prefer_uninstalled" with
  | false => cases s.known.get? name <;> exact hsaid _ _
  | true =>
    cases s.known.get? (name ++ "-uninstalled") with
    | some paths => exact hsaid _ _
    | none =>
      cases s.site.settings.isOn "uninstalled_only" with
      | true => exact hsaid _ _
      | false => cases s.known.get? name <;> exact hsaid _ _

/-! ## Packages of candidates -/

/-- The packages that can be loaded from some candidates; those that cannot be opened are left out. -/
inductive Tried (s : Search) : List String → List Package → Prop
  | nil : Tried s [] []
  | opened {path p paths packages} (hload : (Package.load s.site path).outcome = .ok p)
      (hrest : Tried s paths packages) : Tried s (path :: paths) (p :: packages)
  | unopened {path e reason paths packages} (hload : (Package.load s.site path).outcome = .error e)
      (hreason : e.systemText? = some reason) (hrest : Tried s paths packages) :
      Tried s (path :: paths) packages

theorem tried_of_loadAll {paths : List String} {packages : List Package}
    (h : (s.loadAll paths).outcome = .ok packages) : s.Tried paths packages := by
  unfold loadAll at h
  obtain ⟨found, hfound, hpackages⟩ := Logged.outcome_bind_eq_ok_iff.mp h
  obtain rfl := Except.ok.inj hpackages
  rw [Logged.outcome_mapM] at hfound
  clear h hpackages
  induction paths generalizing found with
  | nil =>
    rw [List.mapM_nil] at hfound
    cases hfound
    exact .nil
  | cons path paths ih =>
    rw [List.mapM_cons] at hfound
    obtain ⟨first, hfirst, hrest⟩ := Failure.bind_eq_ok_iff.mp hfound
    obtain ⟨more, hmore, hall⟩ := Failure.bind_eq_ok_iff.mp hrest
    cases hall
    obtain ⟨loaded, hloaded, hfirst⟩ := Logged.outcome_bind_eq_ok_iff.mp hfirst
    have hload : (Package.load s.site path).outcome = loaded := Except.ok.inj hloaded
    split at hfirst
    · obtain rfl := Except.ok.inj hfirst
      exact .opened hload (ih more hmore)
    · cases hfirst
    · split at hfirst
      · next reason hreason =>
        obtain ⟨_, _, hnone⟩ := Logged.outcome_bind_eq_ok_iff.mp hfirst
        obtain rfl := Except.ok.inj hnone
        exact .unopened hload hreason (ih more hmore)
      · cases hfirst

/-- Choosing among the packages of candidates is choosing among the candidates. -/
theorem exists_split_of_tried {paths : List String} {packages rest : List Package}
    (htried : s.Tried paths packages)
    (hfit : packages.filterMapM (fun p => do
      return if ← r.metBy p.version then some p else none :
      Package → Except Failure _) = .ok (p :: rest)) :
    ∃ before path after, paths = before ++ path :: after ∧ (∀ other ∈ before, s.PassedOver r other) ∧
      (Package.load s.site path).outcome = .ok p ∧ r.metBy p.version = .ok true := by
  induction htried with
  | nil => cases hfit
  | @opened path q paths packages hload _ ih =>
    rw [List.filterMapM_cons] at hfit
    obtain ⟨answer, hanswer, hfit⟩ := Failure.bind_eq_ok_iff.mp hfit
    obtain ⟨met, hmet, hanswer⟩ := Failure.bind_eq_ok_iff.mp hanswer
    cases met with
    | true =>
      cases hanswer
      obtain ⟨others, _, hall⟩ := Failure.bind_eq_ok_iff.mp hfit
      cases hall
      exact ⟨[], path, paths, rfl, fun _ hother => absurd hother List.not_mem_nil, hload, hmet⟩
    | false =>
      cases hanswer
      obtain ⟨before, chosen, after, rfl, hbefore, hchosen⟩ := ih hfit
      exact ⟨path :: before, chosen, after, rfl,
        List.forall_mem_cons.mpr ⟨Or.inr ⟨q, hload, hmet⟩, hbefore⟩, hchosen⟩
  | @unopened path e reason paths packages hload hreason _ ih =>
    obtain ⟨before, chosen, after, rfl, hbefore, hchosen⟩ := ih hfit
    exact ⟨path :: before, chosen, after, rfl,
      List.forall_mem_cons.mpr ⟨Or.inl ⟨e, reason, hload, hreason⟩, hbefore⟩, hchosen⟩

theorem outcome_pathsFor {paths : List String} (h : (s.pathsFor r).outcome = .ok paths) :
    paths = s.candidates r.name := by
  unfold pathsFor at h
  unfold candidates
  dsimp only at h
  split at h
  · next hfile =>
    rw [Settings.outcome_debug_bind] at h
    rw [if_pos hfile]
    exact (Except.ok.inj h).symm
  · next hfile =>
    have hknown : (s.filesFor r.name).outcome = .ok paths := by
      split at h
      · obtain ⟨text, _, h⟩ := Logged.outcome_bind_eq_ok_iff.mp h
        rwa [Settings.outcome_debug_bind] at h
      · exact h
    rw [outcome_filesFor] at hknown
    rw [if_neg hfile]
    exact (Except.ok.inj hknown).symm

/-- A search that succeeds has taken three steps: it has looked up the candidates, loaded them, and
    compared their versions. -/
theorem exists_steps_of_find (h : (s.find r).outcome = .ok p) : ∃ paths packages rest,
    (s.pathsFor r).outcome = .ok paths ∧ (s.loadAll paths).outcome = .ok packages ∧
      packages.filterMapM (fun p => do
        return if ← r.metBy p.version then some p else none :
        Package → Except Failure _) = .ok (p :: rest) := by
  unfold find at h
  obtain ⟨paths, hpaths, h⟩ := Logged.outcome_bind_eq_ok_iff.mp h
  rw [Settings.outcome_debug_bind] at h
  dsimp only at h
  split at h
  · obtain ⟨_, _, h⟩ := Logged.outcome_bind_eq_ok_iff.mp h
    cases h
  obtain ⟨packages, hpackages, h⟩ := Logged.outcome_bind_eq_ok_iff.mp h
  split at h
  · obtain ⟨_, _, h⟩ := Logged.outcome_bind_eq_ok_iff.mp h
    cases h
  unfold firstFitting at h
  obtain ⟨fitting, hfitting, h⟩ := Logged.outcome_bind_eq_ok_iff.mp h
  rw [Settings.outcome_debug_bind] at h
  cases fitting with
  | nil =>
    obtain ⟨_, _, h⟩ := Logged.outcome_bind_eq_ok_iff.mp h
    cases h
  | cons q rest =>
    obtain rfl := Except.ok.inj h
    exact ⟨paths, packages, rest, hpaths, hpackages, hfitting⟩

/-- **A search that succeeds delivers the best candidate.** -/
theorem best_of_find (h : (s.find r).outcome = .ok p) : s.Best r p := by
  obtain ⟨paths, packages, rest, hpaths, hpackages, hfitting⟩ := exists_steps_of_find h
  obtain ⟨before, path, after, hsplit, hbest⟩ :=
    exists_split_of_tried (tried_of_loadAll hpackages) hfitting
  exact ⟨before, path, after, outcome_pathsFor hpaths ▸ hsplit, hbest⟩

end Search

/-! ## The same file -/

namespace Contents

variable {s : Settings} {file file' : Option String} {globals : Table String} {c c₁ c₂ : Contents}

/-- A remark on a line adds nothing. -/
theorem kept_of_say {x : Logged Unit} (h : (do x; return c : Logged Contents).outcome = .ok c₁) :
    c = c₁ := by
  obtain ⟨_, _, h⟩ := Logged.outcome_bind_eq_ok_iff.mp h
  exact Except.ok.inj h

/-- What a line adds does not depend on the name of its file. -/
theorem addLine_unique {line : String} (h₁ : (addLine s file globals c line).outcome = .ok c₁)
    (h₂ : (addLine s file' globals c line).outcome = .ok c₂) : c₁ = c₂ := by
  unfold addLine at h₁ h₂
  split at h₁
  · next hempty =>
    rw [if_pos hempty] at h₂
    exact Except.ok.inj (h₁.symm.trans h₂)
  · next hempty =>
    rw [if_neg hempty] at h₂
    rcases hparse : Line.parse line with ⟨key, value⟩ | ⟨key, value⟩ | _
    all_goals rw [hparse] at h₁ h₂
    · -- A property that is known, or is remarked on.
      dsimp only at h₁ h₂
      split at h₁
      · cases h₁
      · next hnew =>
        rw [if_neg hnew] at h₂
        split at h₁
        · next hknown =>
          rw [if_pos hknown] at h₂
          exact Except.ok.inj (h₁.symm.trans h₂)
        · next hknown =>
          rw [if_neg hknown] at h₂
          exact (kept_of_say h₁).symm.trans (kept_of_say h₂)
    · exact Except.ok.inj (h₁.symm.trans h₂)
    · exact (kept_of_say h₁).symm.trans (kept_of_say h₂)

/-- Nor does what all lines add. -/
theorem ofLines_unique {lines : List String} (h₁ : (ofLines s file globals lines).outcome = .ok c₁)
    (h₂ : (ofLines s file' globals lines).outcome = .ok c₂) : c₁ = c₂ := by
  unfold ofLines at h₁ h₂
  obtain ⟨joined, hjoined, h₁⟩ := Logged.outcome_bind_eq_ok_iff.mp h₁
  obtain ⟨joined', hjoined', h₂⟩ := Logged.outcome_bind_eq_ok_iff.mp h₂
  obtain rfl := Except.ok.inj (hjoined.symm.trans hjoined')
  clear hjoined hjoined'
  generalize empty = c at h₁ h₂
  induction joined generalizing c with
  | nil =>
    rw [List.foldlM_nil] at h₁ h₂
    exact Except.ok.inj (h₁.symm.trans h₂)
  | cons line rest ih =>
    rw [List.foldlM_cons] at h₁ h₂
    obtain ⟨d₁, hd₁, h₁⟩ := Logged.outcome_bind_eq_ok_iff.mp h₁
    obtain ⟨d₂, hd₂, h₂⟩ := Logged.outcome_bind_eq_ok_iff.mp h₂
    obtain rfl := addLine_unique hd₁ hd₂
    exact ih d₁ h₁ h₂

end Contents

namespace Package

variable {s : Site} {path path' : String} {p p' : Package}

/-- The properties of a package with the variables put in. -/
def expanded (s : Site) (vars : Table String) (c : Contents) : Logged (List (String × String)) :=
  c.properties.entries.mapM fun e =>
    (do return (e.1, ← substitute e.2 vars s.globals) : Except Failure _)

/-- Where the requirements of a package come from. -/
theorem exists_properties {c : Contents} (h : (ofContents s path c).outcome = .ok p) :
    ∃ vars entries inner, (placedVariables s path c.vars).outcome = .ok vars ∧
      (expanded s vars c).outcome = .ok entries ∧
      (s.settings.readRequirements ((Table.ofList entries).getD "requires" "")).outcome
        = .ok p.requires ∧
      (s.settings.readRequirements ((Table.ofList entries).getD "requires.private" "")).outcome
        = .ok inner ∧
      p.allRequires = inner ++ p.requires := by
  unfold ofContents at h
  obtain ⟨vars, hvars, h⟩ := Logged.outcome_bind_eq_ok_iff.mp h
  obtain ⟨entries, hentries, h⟩ := Logged.outcome_bind_eq_ok_iff.mp h
  dsimp only at h
  split at h
  all_goals
    obtain ⟨version, -, h⟩ := Logged.outcome_bind_eq_ok_iff.mp h
    obtain ⟨requires, hrequires, h⟩ := Logged.outcome_bind_eq_ok_iff.mp h
    obtain ⟨inner, hinner, h⟩ := Logged.outcome_bind_eq_ok_iff.mp h
    obtain ⟨conflicts, -, h⟩ := Logged.outcome_bind_eq_ok_iff.mp h
    obtain ⟨compile, -, h⟩ := Logged.outcome_bind_eq_ok_iff.mp h
    obtain ⟨link, -, h⟩ := Logged.outcome_bind_eq_ok_iff.mp h
    obtain ⟨privateLink, -, h⟩ := Logged.outcome_bind_eq_ok_iff.mp h
    obtain rfl := Except.ok.inj h
    exact ⟨vars, entries, inner, hvars, hentries, hrequires, hinner, rfl⟩

/-- A package comes from the contents of a file of the tree. -/
theorem exists_contents_of_load (h : (load s path).outcome = .ok p) :
    ∃ text c, s.tree.read path = .ok text ∧
      (Contents.ofLines s.settings (some path) s.globals
        ((Text.fullLines text.toList).map String.ofList)).outcome = .ok c ∧
      (ofContents s path c).outcome = .ok p := by
  unfold load at h
  rw [Settings.outcome_debug_bind] at h
  obtain ⟨text, htext, h⟩ := Logged.outcome_bind_eq_ok_iff.mp h
  dsimp only at h
  split at h
  · cases h
  · obtain ⟨c, hc, h⟩ := Logged.outcome_bind_eq_ok_iff.mp h
    exact ⟨text, c, htext, hc, h⟩

/-- A file that can be read is in the tree, where its path leads. -/
theorem of_read {tree : FileTree} {text : String} (h : tree.read path = .ok text) :
    Path.normalize path ∈ tree.files.keys ∧
      text = String.ofList (Text.unifyNewlines (tree.files.getD (Path.normalize path) "").toList) := by
  unfold FileTree.read at h
  split at h
  · cases h
  · split at h
    · next hfile =>
      rw [FileTree.isFile, Bool.and_eq_true] at hfile
      exact ⟨Table.has_iff.mp hfile.2, (Except.ok.inj h).symm⟩
    · cases h

/-- The same file requires the same packages, however its path is written. -/
theorem allRequires_eq (hpath : Path.normalize path = Path.normalize path')
    (h : (load s path).outcome = .ok p) (h' : (load s path').outcome = .ok p') :
    p.allRequires = p'.allRequires := by
  obtain ⟨text, c, htext, hc, hp⟩ := exists_contents_of_load h
  obtain ⟨text', c', htext', hc', hp'⟩ := exists_contents_of_load h'
  have hsame : text = text' := by rw [(of_read htext).2, (of_read htext').2, hpath]
  subst hsame
  obtain rfl := Contents.ofLines_unique hc hc'
  have hplaced : placedVariables s path c.vars = placedVariables s path' c.vars := by
    unfold placedVariables windowsPrefix?
    rw [hpath]
  obtain ⟨vars, entries, inner, hvars, hentries, hrequires, hinner, hall⟩ := exists_properties hp
  obtain ⟨vars', entries', inner', hvars', hentries', hrequires', hinner', hall'⟩ :=
    exists_properties hp'
  rw [hplaced] at hvars
  obtain rfl := Except.ok.inj (hvars.symm.trans hvars')
  obtain rfl := Except.ok.inj (hentries.symm.trans hentries')
  rw [hall, hall', Except.ok.inj (hinner.symm.trans hinner'),
    Except.ok.inj (hrequires.symm.trans hrequires')]

/-- All requirements of a package are among those that count the private ones in. -/
theorem requires_subset (h : (load s path).outcome = .ok p) : ∀ r ∈ p.requires, r ∈ p.allRequires := by
  obtain ⟨text, c, -, -, hp⟩ := exists_contents_of_load h
  obtain ⟨vars, entries, inner, -, -, -, -, hall⟩ := exists_properties hp
  intro r hr
  rw [hall]
  exact List.mem_append_right _ hr

/-- The packages of a tree require finitely many names. -/
theorem exists_requiredNames (s : Site) : ∃ names : List String,
    ∀ path p, (load s path).outcome = .ok p → ∀ r ∈ p.allRequires, r.name ∈ names := by
  -- For every file of the tree one of the paths that lead to it speaks for all.
  have hfile : ∀ key : String, ∃ names : List String, ∀ path p, Path.normalize path = key →
      (load s path).outcome = .ok p → ∀ r ∈ p.allRequires, r.name ∈ names := by
    intro key
    by_cases hexists : ∃ path p, Path.normalize path = key ∧ (load s path).outcome = .ok p
    · obtain ⟨path, p, hkey, hp⟩ := hexists
      refine ⟨p.allRequires.map (·.name), fun path' p' hkey' hp' r hr => ?_⟩
      rw [allRequires_eq (hkey.trans hkey'.symm) hp hp']
      exact List.mem_map_of_mem hr
    · exact ⟨[], fun path p hkey hp => absurd ⟨path, p, hkey, hp⟩ hexists⟩
  refine ⟨s.tree.files.keys.flatMap fun key => Classical.choose (hfile key), fun path p hp r hr =>
    List.mem_flatMap.mpr ?_⟩
  obtain ⟨text, c, htext, -, -⟩ := exists_contents_of_load hp
  exact ⟨_, (of_read htext).1, Classical.choose_spec (hfile _) path p rfl hp r hr⟩

end Package

end BuildMeta.Pkg
