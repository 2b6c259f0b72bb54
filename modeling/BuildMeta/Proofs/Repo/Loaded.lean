import BuildMeta.Proofs.Repo.Survey

/-!
# `Proofs.Repo.Loaded` — what is so of every unit of a loaded repository

What is so of every unit as it is read from its files, and does not depend on documentation and
version, is so of every unit of a loaded repository (`every_of_load`).  The steps of loading are
gone through once, for any property (`Keeps`).  Two properties are derived: an application has a
main file (`exists_main_of_load`), and units of release have their documentation
(`exists_doc_of_load`).
-/

namespace BuildMeta.Context

variable {tree : FileTree} {verbose : Bool} {root path name : String} {c c' : Context} {u : SourceUnit}
  {P : SourceUnit → Prop}

/-! ## Properties of all units -/

/-- All units have a property. -/
def Every (P : SourceUnit → Prop) (c : Context) : Prop := ∀ ⦃name u⦄, c.units.get? name = some u → P u

theorem every_empty (root : String) : Every P (empty root) := by
  intro name u hu
  have hnone : (empty root).units.get? name = none := rfl
  rw [hnone] at hu
  cases hu

theorem Every.put (h : Every P c) (hu : P u) : Every P (c.put u) := by
  intro name v hv
  by_cases hname : name = u.name
  · rw [hname, get?_put_self, Option.some.injEq] at hv
    exact hv ▸ hu
  · rw [get?_put_of_ne hname] at hv
    exact h hv

theorem Every.add (h : Every P c) (hu : P u) (hadd : c.add u = .ok c') : Every P c' := by
  obtain ⟨_, rfl⟩ := add_ok.mp hadd
  exact h.put hu

/-- A property that every unit has when it is read, and that documentation and version do not change. -/
structure OfUnits (tree : FileTree) (verbose : Bool) (P : SourceUnit → Prop) : Prop where
  group : ∀ ⦃path u⦄, (SourceUnit.loadGroup tree verbose path).outcome = .ok u → P u
  package : ∀ ⦃path kind u⦄, (SourceUnit.loadPackage tree verbose path kind).outcome = .ok u → P u
  thirdParty : ∀ path, P { name := Path.baseName path, path, kind := .thirdParty }
  completed : ∀ ⦃u⦄, P u → ∀ doc version, P { u with doc, version }

/-! ## Steps of loading -/

/-- A step of loading that adds only units with a property. -/
def Keeps (P : SourceUnit → Prop) (step : Context → Logged Context) : Prop :=
  ∀ ⦃c c'⦄, Every P c → (step c).outcome = .ok c' → Every P c'

theorem keeps_pure : Keeps P (fun c => return c) := by
  intro c c' h hout
  cases hout
  exact h

theorem Keeps.bind {step next : Context → Logged Context} (h : Keeps P step) (h' : Keeps P next) :
    Keeps P (fun c => step c >>= next) := by
  intro c c' hc hout
  obtain ⟨c₁, hstep, hnext⟩ := Logged.outcome_bind_eq_ok_iff.mp hout
  exact h' (h hc hstep) hnext

/-- What is said before a step changes nothing. -/
theorem Keeps.after {α : Type} {x : Logged α} {step : α → Context → Logged Context}
    (h : ∀ a, Keeps P (step a)) :
    Keeps P (fun c => x >>= fun a => step a c) := by
  intro c c' hc hout
  obtain ⟨a, _, hstep⟩ := Logged.outcome_bind_eq_ok_iff.mp hout
  exact h a hc hstep

theorem keeps_foldlM {α : Type} {add : Context → α → Logged Context} (hadd : ∀ a, Keeps P (add · a))
    (xs : List α) :
    Keeps P (xs.foldlM add) := by
  induction xs with
  | nil => exact keeps_pure
  | cons x rest ih => exact (hadd x).bind ih

/-- What adding one place keeps is kept when all places of a directory are added. -/
theorem keeps_addPlaces {test : String → Bool} {add : Context → String → Logged Context}
    (hadd : ∀ path, Keeps P (add · path)) (dir : String) :
    Keeps P (addPlaces tree root test add · dir) := by
  intro c c' h hout
  change (if tree.isDir (Path.join root dir) then
    (placesIn tree test (Path.join root dir)).foldlM add c else return c).outcome = .ok c' at hout
  split at hout
  · exact keeps_foldlM hadd _ h hout
  · exact keeps_pure h hout

/-- The same for a field of the layout, which lists directories. -/
theorem keeps_addField {add : Context → String → Logged Context} (hadd : ∀ dir, Keeps P (add · dir))
    (field : Datum) :
    Keeps P (addField add field) := by
  refine Keeps.after fun dirs => keeps_foldlM (fun dir => ?_) dirs
  intro c c' h hout
  cases dir with
  | str d => exact hadd d h hout
  -- What is no text makes the whole step fail.
  | _ => cases hout

section OfUnits

variable (hP : OfUnits tree verbose P)
include hP

/-- The members of a group are added one by one. -/
theorem OfUnits.addMembers (names : List String) : Keeps P (addMembers tree verbose path names) := by
  induction names with
  | nil => exact keeps_pure
  | cons name rest ih =>
    intro c c' h hout
    rw [Context.addMembers] at hout
    obtain ⟨p, hp, hrest⟩ := Logged.outcome_bind_eq_ok_iff.mp hout
    obtain ⟨c₁, hadd, hrest⟩ := Logged.outcome_bind_eq_ok_iff.mp hrest
    exact ih (h.add (hP.package hp) hadd) hrest

/-- A group is added before its members, and both are units as they should be. -/
theorem OfUnits.addGroup (path : String) : Keeps P (addGroup tree verbose · path) := by
  intro c c' h hout
  obtain ⟨group, c₁, hgroup, hadd, hmembers⟩ := addGroup_ok hout
  exact hP.addMembers _ (h.add (hP.group hgroup) hadd) hmembers

/-- A package is added by itself. -/
theorem OfUnits.addPackage (kind : UnitKind) (path : String) :
    Keeps P (addPackage tree verbose kind · path) := by
  intro c c' h hout
  obtain ⟨p, hp, hadd⟩ := addPackage_ok hout
  exact h.add (hP.package hp) hadd

theorem OfUnits.addThirdParty (path : String) : Keeps P (addThirdParty · path) :=
  fun _ _ h hout => h.add (hP.thirdParty path) (addThirdParty_ok hout)

theorem OfUnits.addRoot (dir : String) : Keeps P (addRoot tree verbose root · dir) := by
  intro c c' h hout
  change (if SourceUnit.isGroupPath tree (rootPath root dir) then
    Context.addGroup tree verbose c (rootPath root dir) else return c).outcome = .ok c' at hout
  split at hout
  · exact hP.addGroup _ h hout
  · exact keeps_pure h hout

/-- The five fields of a layout are gone through one after the other. -/
theorem OfUnits.addLayout (layout : Layout) : Keeps P (addLayout tree verbose root layout) :=
  (keeps_addField (keeps_addPlaces hP.addGroup) layout.groups).bind <|
  (keeps_addField (keeps_addPlaces (hP.addPackage .standAlone)) layout.standAlones).bind <|
  (keeps_addField (keeps_addPlaces (hP.addPackage .application)) layout.applications).bind <|
  (keeps_addField (keeps_addPlaces hP.addThirdParty) layout.thirdParties).bind <|
  keeps_addField hP.addRoot layout.groupRoots

/-- A repository is added place by place, and each place keeps what its units keep. -/
theorem OfUnits.addRepository (root : String) : Keeps P (addRepository tree verbose · root) := by
  intro c c' h hout
  unfold Context.addRepository at hout
  obtain ⟨⟨layout, file⟩, _, hout⟩ := Logged.outcome_bind_eq_ok_iff.mp hout
  cases file with
  | none => exact hP.addLayout layout h hout
  | some path =>
    obtain ⟨_, _, hout⟩ := Logged.outcome_bind_eq_ok_iff.mp hout
    obtain ⟨_, _, hout⟩ := Logged.outcome_bind_eq_ok_iff.mp hout
    exact hP.addLayout layout h hout

/-- Completing units goes through them one by one, and each stays as it should. -/
theorem OfUnits.completeFrom {us : List SourceUnit} {known : Release.Known} (h : Every P c)
    (hus : ∀ u ∈ us, P u) (hout : completeFrom tree us known c = .ok c') : Every P c' := by
  induction us generalizing known c with
  | nil =>
    cases hout
    exact h
  | cons u rest ih =>
    rw [Context.completeFrom] at hout
    obtain ⟨version, _, hrest⟩ := Failure.bind_eq_ok_iff.mp hout
    have hu := hP.completed (hus u List.mem_cons_self) (some (Release.doc tree u.name u.path)) version
    exact ih (h.put hu) (fun v hv => hus v (List.mem_cons_of_mem _ hv)) hrest

end OfUnits

/-- Units are found first, then completed. -/
theorem exists_complete_of_load (h : (load tree verbose root).outcome = .ok c) :
    ∃ c₁, complete tree c₁ = .ok c ∧ ∀ ⦃P⦄, OfUnits tree verbose P → Every P c₁ := by
  unfold load at h
  by_cases hworkspace : tree.isFile (Path.join root ".bdeworkspaceconfig") = true
  · rw [if_pos hworkspace] at h
    obtain ⟨c₁, hfold, hc⟩ := Logged.outcome_bind_eq_ok_iff.mp h
    refine ⟨c₁, hc, fun P hP => keeps_foldlM (fun path => ?_) _ (every_empty root) hfold⟩
    exact Keeps.after fun _ => Keeps.after fun _ => hP.addRepository path
  · rw [if_neg hworkspace] at h
    obtain ⟨c₁, hone, hc⟩ := Logged.outcome_bind_eq_ok_iff.mp h
    exact ⟨c₁, hc, fun P hP => hP.addRepository root (every_empty root) hone⟩

/-- **What is so of the units as they are read is so of all units of a loaded repository.** -/
theorem every_of_load (hP : OfUnits tree verbose P) (h : (load tree verbose root).outcome = .ok c) :
    Every P c := by
  obtain ⟨c₁, hcomplete, hevery⟩ := exists_complete_of_load h
  refine hP.completeFrom (hevery hP) (fun u hu => ?_) hcomplete
  obtain ⟨name, hname⟩ := Table.mem_values_iff.mp hu
  exact hevery hP (get?_releases.mp hname).1

/-! ## Documentation -/

/-- What was completed stays so: a unit is put only with its documentation. -/
theorem completeFrom_doc {us : List SourceUnit} {known : Release.Known}
    (hout : completeFrom tree us known c = .ok c')
    (hall : ∀ ⦃name u⦄, c.releases.get? name = some u → u.doc = none → u ∈ us) :
    ∀ ⦃name u⦄, c'.releases.get? name = some u → ∃ doc, u.doc = some doc := by
  induction us generalizing known c with
  | nil =>
    cases hout
    intro name u hu
    cases hdoc : u.doc with
    | none => exact absurd (hall hu hdoc) List.not_mem_nil
    | some doc => exact ⟨doc, rfl⟩
  | cons w rest ih =>
    rw [Context.completeFrom] at hout
    obtain ⟨version, _, hrest⟩ := Failure.bind_eq_ok_iff.mp hout
    refine ih hrest fun name v hv hdoc => ?_
    obtain ⟨hget, hkind⟩ := get?_releases.mp hv
    by_cases hname : name = w.name
    · -- The unit that was completed last has its documentation.
      rw [hname] at hget
      obtain rfl := Option.some.inj ((Table.get?_set_self _ _ _).symm.trans hget)
      cases hdoc
    · have hbefore : c.units.get? name = some v := (Table.get?_set_of_ne _ _ hname).symm.trans hget
      have hmem := hall (get?_releases.mpr ⟨hbefore, hkind⟩) hdoc
      rcases List.mem_cons.mp hmem with rfl | hmem
      · exact absurd (c.named hbefore).symm hname
      · exact hmem

/-- **The units of release of a loaded repository have their documentation.** -/
theorem exists_doc_of_load (h : (load tree verbose root).outcome = .ok c)
    (hu : c.releases.get? name = some u) :
    ∃ doc, u.doc = some doc := by
  obtain ⟨c₁, hcomplete, -⟩ := exists_complete_of_load h
  refine completeFrom_doc hcomplete (fun name v hv _ => ?_) hu
  exact Table.mem_values_iff.mpr ⟨name, hv⟩

/-! ## Main files -/

/-- The main file of an application is named for the package, or for what follows `m_` in its name
    if there is no file named for the package. -/
inductive MainOf (tree : FileTree) (path name : String) : String → Prop
  | whole (hfile : tree.isFile (Path.join path (name ++ ".m.cpp")) = true) : MainOf tree path name name
  | short {main : String} (hname : name = "m_" ++ main) (hne : main ≠ "")
      (hnone : tree.isFile (Path.join path (name ++ ".m.cpp")) = false)
      (hfile : tree.isFile (Path.join path (main ++ ".m.cpp")) = true) : MainOf tree path name main

/-- The main file is the first candidate that is there; an empty name does not count. -/
theorem findMain_ok {main : String} (h : SourceUnit.findMain tree path name = .ok main) :
    (name :: if Text.startsWith name "m_" then [Text.drop 2 name] else []).find?
      (fun c => tree.isFile (Path.join path (c ++ ".m.cpp"))) = some main ∧ main ≠ "" := by
  unfold SourceUnit.findMain at h
  dsimp only at h
  split at h
  · cases h
  · next hne hfound =>
    cases h
    exact ⟨hfound, hne⟩
  · cases h

/-- The main file that is found is the one that the specification asks for. -/
theorem mainOf_of_findMain {main : String} (h : SourceUnit.findMain tree path name = .ok main) :
    MainOf tree path name main := by
  obtain ⟨hfound, hne⟩ := findMain_ok h
  rw [List.find?_cons] at hfound
  split at hfound
  · next hwhole =>
    cases hfound
    exact .whole hwhole
  · next hwhole =>
    have hfile := List.find?_some hfound
    have hmem := List.mem_of_find?_eq_some hfound
    split at hmem
    · next hshort =>
      obtain ⟨rest, hrest⟩ := List.isPrefixOf_iff_prefix.mp hshort
      have hname : name = "m_" ++ main := by
        apply String.toList_injective
        rw [List.mem_singleton.mp hmem, Text.drop, String.toList_append, ← hrest]
        simp
      exact .short hname hne hwhole hfile
    · cases hmem

/-- **Every application has a main file of its own directory.**  It is found when the application is
    loaded, and nothing changes it after that. -/
theorem ofUnits_main (tree : FileTree) (verbose : Bool) : OfUnits tree verbose fun u =>
    u.kind = .application → ∃ main, u.appMain = some main ∧ MainOf tree u.path u.name main where
  group := by
    intro path u h happlication
    obtain ⟨_, hkind, _⟩ := loadCommon_ok h
    rw [hkind] at happlication
    cases happlication
  package := by
    intro path kind u h happlication
    unfold SourceUnit.loadPackage at h
    obtain ⟨common, hcommon, hrest⟩ := Logged.outcome_bind_eq_ok_iff.mp h
    obtain ⟨hpath, hkind, hname, _⟩ := loadCommon_ok hcommon
    by_cases hplus : (kind == .plus) = true
    · rw [if_pos hplus] at hrest
      cases hrest
      rw [show kind = .application from hkind.symm.trans happlication] at hplus
      cases hplus
    · rw [if_neg hplus] at hrest
      by_cases hmain : (kind == .application) = true
      · rw [if_pos hmain] at hrest
        obtain ⟨found, hfound, hrest⟩ := Logged.outcome_bind_eq_ok_iff.mp hrest
        obtain ⟨_, _, hout⟩ := Logged.outcome_bind_eq_ok_iff.mp hrest
        cases hout
        have hfind : (SourceUnit.findMain tree path common.name).map some = .ok found := hfound
        cases hresult : SourceUnit.findMain tree path common.name with
        | error e =>
          rw [hresult] at hfind
          cases hfind
        | ok main =>
          rw [hresult] at hfind
          cases hfind
          refine ⟨main, rfl, ?_⟩
          show MainOf tree common.path common.name main
          rw [hpath]
          exact mainOf_of_findMain hresult
      · -- Any other kind of package is none of an application.
        rw [if_neg hmain] at hrest
        obtain ⟨_, _, hrest⟩ := Logged.outcome_bind_eq_ok_iff.mp hrest
        obtain ⟨_, _, hout⟩ := Logged.outcome_bind_eq_ok_iff.mp hrest
        cases hout
        exact absurd (beq_iff_eq.mpr (hkind.symm.trans happlication)) hmain
  thirdParty := by
    intro path happlication
    cases happlication
  completed := fun _ hu _ _ => hu

/-- **Every application of a loaded repository has a main file.** -/
theorem exists_main_of_load (h : (load tree verbose root).outcome = .ok c)
    (hu : c.units.get? name = some u) (hkind : u.kind = .application) :
    ∃ main, u.appMain = some main ∧ MainOf tree u.path u.name main :=
  every_of_load (ofUnits_main tree verbose) h hu hkind

end BuildMeta.Context
