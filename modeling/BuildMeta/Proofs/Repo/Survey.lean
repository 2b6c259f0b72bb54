import BuildMeta.Proofs.Repo.Members
import BuildMeta.Proofs.Text.Sort
import Mathlib.Data.List.Nodup

/-!
# `Proofs.Repo.Survey` — a loaded repository is what is found in its places

A survey lists the places of a file tree at which units are met: those that the layouts of its
repositories lead to, each followed by the places of its members if it is a group (`UnitSite`,
`met`).  It looks at the tree only, not at any unit.  Loading gives exactly the units of the survey,
each under the last part of its path (`surveyed_of_load`): every step of loading adds the units of
the sites that it comes to (`Surveys`), and adding one whose name is there already fails.

What is said here of a loaded repository follows from the survey: that no package belongs to two groups
(`Surveyed.membersApart`), and that the groups and the packages inside them fit together (`WellFormed`).
-/

namespace BuildMeta

/-! ## Characters of names -/

namespace Text

theorem hasInfix_singleton {ch : Char} {s : List Char} : hasInfix [ch] s = true ↔ ch ∈ s := by
  induction s with
  | nil => simp [hasInfix]
  | cons d rest ih => simp [hasInfix, ih]

theorem contains_char {s p : String} {ch : Char} (hp : p.toList = [ch]) :
    contains s p = true ↔ ch ∈ s.toList := by
  unfold contains
  rw [hp]
  exact hasInfix_singleton

end Text

/-! ## Sites -/

/-- A place at which a unit is met, with the kind of unit that is looked for there. -/
structure UnitSite where
  path : String
  kind : UnitKind
deriving Repr, DecidableEq

namespace UnitSite

/-- The name of the unit at a site. -/
def name (s : UnitSite) : String := Path.baseName s.path

/-- The names that a group lists as its members. -/
def listed (tree : FileTree) (s : UnitSite) : List String :=
  if s.kind = .group then Listing.loadSet tree (Path.joinAll s.path ["group", s.name ++ ".mem"]) else []

/-- The site of a member of a group. -/
def inside (s : UnitSite) (m : String) : UnitSite := ⟨Path.join s.path m, Context.memberKind m⟩

/-- A site, followed by those of its members. -/
def withMembers (tree : FileTree) (s : UnitSite) : List UnitSite := s :: (s.listed tree).map s.inside

variable {s : UnitSite} {tree : FileTree} {path m : String} {kind : UnitKind}

@[simp] theorem name_inside : (s.inside m).name = Path.baseName m := Path.baseName_join _ _

@[simp] theorem kind_inside : (s.inside m).kind = Context.memberKind m := by rw [inside]

theorem nodup_listed : (s.listed tree).Nodup := by
  unfold listed
  split
  · exact Text.nodup_sort.mpr (Text.nodup_eraseDups _)
  · exact List.nodup_nil

theorem kind_of_mem_listed (h : m ∈ s.listed tree) : s.kind = .group := by
  by_contra hkind
  rw [listed, if_neg hkind] at h
  cases h

theorem withMembers_of_ne (h : kind ≠ .group) : withMembers tree ⟨path, kind⟩ = [⟨path, kind⟩] := by
  rw [withMembers, listed, if_neg h]
  rfl

theorem inside_mem_withMembers (h : m ∈ s.listed tree) : s.inside m ∈ s.withMembers tree :=
  List.mem_cons_of_mem _ (List.mem_map_of_mem h)

end UnitSite

namespace Context

/-! ## What a survey meets -/

section Survey

variable (tree : FileTree) (root : String)

/-- The directories that a field of a layout lists. -/
def fieldDirs (field : Datum) : List String := (field.members.toOption.getD []).filterMap Datum.str?

/-- The sites inside a directory of a repository. -/
def placeSites (test : String → Bool) (kind : UnitKind) (dir : String) : List UnitSite :=
  if tree.isDir (Path.join root dir) then (placesIn tree test (Path.join root dir)).map
    (⟨·, kind⟩) else []

/-- The path of a directory of a repository, which may be the root itself. -/
def rootPath (dir : String) : String := if dir == "." then root else Path.join root dir

/-- The site of a group that a directory of a repository is itself. -/
def rootSites (dir : String) : List UnitSite :=
  if SourceUnit.isGroupPath tree (rootPath root dir) then [⟨rootPath root dir, .group⟩] else []

/-- The sites to which a layout leads. -/
def layoutSites (layout : Layout) : List UnitSite :=
  (fieldDirs layout.groups).flatMap (placeSites tree root (SourceUnit.isGroupPath tree) .group) ++
  ((fieldDirs layout.standAlones).flatMap
    (placeSites tree root (SourceUnit.isPackagePath tree) .standAlone) ++
  ((fieldDirs layout.applications).flatMap
    (placeSites tree root (SourceUnit.isPackagePath tree) .application) ++
  ((fieldDirs layout.thirdParties).flatMap
    (placeSites tree root (SourceUnit.isThirdPartyPath tree) .thirdParty) ++
  (fieldDirs layout.groupRoots).flatMap (rootSites tree root))))

/-- The sites in a repository; there are none if its layout cannot be read. -/
def repositorySites : List UnitSite :=
  match (Layout.find tree root).outcome with
  | .ok found => layoutSites tree root found.1
  | .error _ => []

/-- The roots of the repositories: those of a workspace, or just one. -/
def repositories : List String :=
  if tree.isFile (Path.join root ".bdeworkspaceconfig") then placesIn tree
    SourceUnit.isRepositoryPath root
  else [root]

/-- The sites of all units of release. -/
def sites : List UnitSite := (repositories tree root).flatMap (repositorySites tree)

/-- The sites of all units. -/
def met : List UnitSite := (sites tree root).flatMap (UnitSite.withMembers tree)

end Survey

variable {tree : FileTree} {verbose : Bool} {root path m name : String} {s : UnitSite}
  {heads : List UnitSite} {c c' : Context} {u g p : SourceUnit}

/-- The sites at places for units of release are sites of units of release. -/
theorem isRelease_of_mem_placeSites {test : String → Bool} {kind : UnitKind} {dirs : List String}
    (hkind : kind.isRelease = true) (h : s ∈ dirs.flatMap (placeSites tree root test kind)) :
    s.kind.isRelease = true := by
  obtain ⟨dir, _, hs⟩ := List.mem_flatMap.mp h
  unfold placeSites at hs
  split at hs
  · obtain ⟨path, _, rfl⟩ := List.mem_map.mp hs
    exact hkind
  · cases hs

theorem isRelease_of_mem_rootSites {dirs : List String} (h : s ∈ dirs.flatMap (rootSites tree root)) :
    s.kind.isRelease = true := by
  obtain ⟨dir, _, hs⟩ := List.mem_flatMap.mp h
  unfold rootSites at hs
  split at hs
  · rw [List.mem_singleton.mp hs]
    rfl
  · cases hs

/-- The layouts lead to units of release only. -/
theorem isRelease_of_mem_sites (h : s ∈ sites tree root) : s.kind.isRelease = true := by
  obtain ⟨repository, _, hs⟩ := List.mem_flatMap.mp h
  unfold repositorySites at hs
  split at hs
  · simp only [layoutSites, List.mem_append] at hs
    rcases hs with hs | hs | hs | hs | hs
    · exact isRelease_of_mem_placeSites rfl hs
    · exact isRelease_of_mem_placeSites rfl hs
    · exact isRelease_of_mem_placeSites rfl hs
    · exact isRelease_of_mem_placeSites rfl hs
    · exact isRelease_of_mem_rootSites hs
  · cases hs

theorem memberKind_isInner (name : String) : (memberKind name).isInner = true := by
  unfold memberKind
  split <;> rfl

theorem memberKind_ne_group (name : String) : memberKind name ≠ .group := by
  intro hgroup
  have hinner := memberKind_isInner name
  rw [hgroup] at hinner
  cases hinner

/-- A site is one of a unit of release, or inside the site of a group. -/
theorem mem_met_iff : s ∈ met tree root ↔
    s ∈ sites tree root ∨ ∃ g ∈ sites tree root, ∃ m ∈ g.listed tree, s = g.inside m := by
  simp only [met, UnitSite.withMembers, List.mem_flatMap, List.mem_cons, List.mem_map]
  constructor
  · rintro ⟨g, hg, rfl | ⟨m, hm, rfl⟩⟩
    · exact Or.inl hg
    · exact Or.inr ⟨g, hg, m, hm, rfl⟩
  · rintro (hs | ⟨g, hg, m, hm, rfl⟩)
    · exact ⟨s, hs, Or.inl rfl⟩
    · exact ⟨g, hg, Or.inr ⟨m, hm, rfl⟩⟩

theorem mem_sites_of_group (hs : s ∈ met tree root) (hkind : s.kind = .group) : s ∈ sites tree root := by
  rcases mem_met_iff.mp hs with hs | ⟨g, _, m, _, rfl⟩
  · exact hs
  · rw [UnitSite.kind_inside] at hkind
    exact absurd hkind (memberKind_ne_group m)

theorem exists_group_of_inner (hs : s ∈ met tree root) (hkind : s.kind.isInner = true) :
    ∃ g ∈ sites tree root, ∃ m ∈ g.listed tree, s = g.inside m := by
  rcases mem_met_iff.mp hs with hs | hinside
  · have hrelease := isRelease_of_mem_sites hs
    revert hkind hrelease
    cases s.kind <;> simp [UnitKind.isInner, UnitKind.isRelease]
  · exact hinside

/-! ## Contexts that hold a survey -/

/-- A unit is what a site says: it has the path, the name and the kind of the site, and its members
    if it is a group. -/
structure Found (tree : FileTree) (u : SourceUnit) (s : UnitSite) : Prop where
  path : u.path = s.path
  kind : u.kind = s.kind
  name : u.name = s.name
  members : s.kind = .group → u.members = s.listed tree

/-- The units are those found at the sites, in the order of these. -/
structure Surveyed (tree : FileTree) (sites : List UnitSite) (c : Context) : Prop where
  keys : c.units.keys = sites.map UnitSite.name
  found : ∀ ⦃name u⦄, c.units.get? name = some u → ∃ s ∈ sites, Found tree u s

theorem surveyed_empty (tree : FileTree) (root : String) : Surveyed tree [] (empty root) where
  keys := rfl
  found := by
    intro name u hu
    have hnone : (empty root).units.get? name = none := rfl
    rw [hnone] at hu
    cases hu

/-- No two sites have the same name. -/
theorem Surveyed.nodup {sites : List UnitSite} (h : Surveyed tree sites c) :
    (sites.map UnitSite.name).Nodup :=
  h.keys ▸ c.units.nodup

/-- Every site of a survey has its unit, under its name. -/
theorem Surveyed.exists_unit {sites : List UnitSite} (h : Surveyed tree sites c) (hs : s ∈ sites) :
    ∃ u, c.units.get? s.name = some u ∧ Found tree u s := by
  have hkey : s.name ∈ c.units.keys := by
    rw [h.keys]
    exact List.mem_map_of_mem hs
  obtain ⟨u, hu⟩ := Table.mem_keys_iff.mp hkey
  -- It was found at some site of this name, and there is only one.
  obtain ⟨s', hs', hfound⟩ := h.found hu
  have hname : s'.name = s.name := hfound.name.symm.trans (c.named hu)
  rw [List.inj_on_of_nodup_map h.nodup hs' hs hname] at hfound
  exact ⟨u, hu, hfound⟩

/-- **Adding a unit adds its site.** -/
theorem Surveyed.add {sites : List UnitSite} (h : Surveyed tree sites c) (hfound : Found tree u s)
    (hadd : c.add u = .ok c') : Surveyed tree (sites ++ [s]) c' := by
  obtain ⟨hnew, rfl⟩ := add_ok.mp hadd
  constructor
  · rw [keys_put, if_neg hnew, h.keys, hfound.name, List.map_append]
    rfl
  · intro name v hv
    by_cases hname : name = u.name
    · rw [hname, get?_put_self, Option.some.injEq] at hv
      exact ⟨s, List.mem_append_right _ List.mem_cons_self, hv ▸ hfound⟩
    · rw [get?_put_of_ne hname] at hv
      obtain ⟨s', hs', hfound'⟩ := h.found hv
      exact ⟨s', List.mem_append_left _ hs', hfound'⟩

/-- Replacing a unit by another one of its site keeps the sites. -/
theorem Surveyed.put {sites : List UnitSite} (h : Surveyed tree sites c) (hs : s ∈ sites)
    (hfound : Found tree u s) : Surveyed tree sites (c.put u) := by
  have hkey : u.name ∈ c.units.keys := by
    rw [h.keys, hfound.name]
    exact List.mem_map_of_mem hs
  constructor
  · rw [keys_put, if_pos hkey, h.keys]
  · intro name v hv
    by_cases hname : name = u.name
    · rw [hname, get?_put_self, Option.some.injEq] at hv
      exact ⟨s, hs, hv ▸ hfound⟩
    · rw [get?_put_of_ne hname] at hv
      exact h.found hv

/-! ## Loading single units -/

/-- What all units have in common is read from their directory and from the list of members in
    it. -/
theorem loadCommon_ok {place : String} {kind : UnitKind}
    (h : (SourceUnit.loadCommon tree verbose path place kind).outcome = .ok u) :
    u.path = path ∧ u.kind = kind ∧ u.name = Path.baseName path ∧
      u.members = Listing.loadSet tree (Path.joinAll path [place, Path.baseName path ++ ".mem"]) := by
  unfold SourceUnit.loadCommon at h
  obtain ⟨_, _, hrest⟩ := Logged.outcome_bind_eq_ok_iff.mp h
  obtain ⟨_, _, hrest⟩ := Logged.outcome_bind_eq_ok_iff.mp hrest
  obtain ⟨_, _, hout⟩ := Logged.outcome_bind_eq_ok_iff.mp hrest
  cases hout
  exact ⟨rfl, rfl, rfl, rfl⟩

theorem found_of_loadGroup (h : (SourceUnit.loadGroup tree verbose path).outcome = .ok u) :
    Found tree u ⟨path, .group⟩ := by
  obtain ⟨hpath, hkind, hname, hmembers⟩ := loadCommon_ok h
  exact ⟨hpath, hkind, hname, fun _ => hmembers⟩

/-- A package is found where it was loaded from: its name, its kind and its lists come from
    there. -/
theorem found_of_loadPackage {kind : UnitKind} (hpackage : kind ≠ .group)
    (h : (SourceUnit.loadPackage tree verbose path kind).outcome = .ok u) :
    Found tree u ⟨path, kind⟩ := by
  unfold SourceUnit.loadPackage at h
  obtain ⟨common, hcommon, hrest⟩ := Logged.outcome_bind_eq_ok_iff.mp h
  obtain ⟨hpath, hkind, hname, _⟩ := loadCommon_ok hcommon
  have hmembers : kind = .group → u.members = UnitSite.listed tree ⟨path, kind⟩ :=
    fun e => absurd e hpackage
  by_cases hplus : (kind == .plus) = true
  · rw [if_pos hplus] at hrest
    cases hrest
    exact ⟨hpath, hkind, hname, hmembers⟩
  · rw [if_neg hplus] at hrest
    by_cases happlication : (kind == .application) = true
    · rw [if_pos happlication] at hrest
      obtain ⟨_, _, hrest⟩ := Logged.outcome_bind_eq_ok_iff.mp hrest
      obtain ⟨_, _, hout⟩ := Logged.outcome_bind_eq_ok_iff.mp hrest
      cases hout
      exact ⟨hpath, hkind, hname, hmembers⟩
    · rw [if_neg happlication] at hrest
      obtain ⟨_, _, hrest⟩ := Logged.outcome_bind_eq_ok_iff.mp hrest
      obtain ⟨_, _, hout⟩ := Logged.outcome_bind_eq_ok_iff.mp hrest
      cases hout
      exact ⟨hpath, hkind, hname, hmembers⟩

/-! ## Steps of loading -/

/-- A step of loading that, if it succeeds, adds the units at some sites with their members. -/
def Surveys (tree : FileTree) (step : Context → Logged Context) (heads : List UnitSite) : Prop :=
  ∀ ⦃before c c'⦄, Surveyed tree before c → (step c).outcome = .ok c' →
    Surveyed tree (before ++ heads.flatMap (UnitSite.withMembers tree)) c'

theorem surveys_pure : Surveys tree (fun c => return c) [] := by
  intro before c c' h hout
  cases hout
  rw [List.flatMap_nil, List.append_nil]
  exact h

/-- Steps one after the other add the sites one after the other. -/
theorem Surveys.bind {step next : Context → Logged Context} {heads' : List UnitSite}
    (h : Surveys tree step heads) (h' : Surveys tree next heads') :
    Surveys tree (fun c => step c >>= next) (heads ++ heads') := by
  intro before c c' hc hout
  obtain ⟨c₁, hstep, hnext⟩ := Logged.outcome_bind_eq_ok_iff.mp hout
  rw [List.flatMap_append, ← List.append_assoc]
  exact h' (h hc hstep) hnext

theorem surveys_foldlM {α : Type} {add : Context → α → Logged Context} {sitesAt : α → List UnitSite}
    (hadd : ∀ a, Surveys tree (add · a) (sitesAt a)) (xs : List α) :
    Surveys tree (xs.foldlM add) (xs.flatMap sitesAt) := by
  induction xs with
  | nil => exact surveys_pure
  | cons x rest ih => exact (hadd x).bind ih

/-- The members of a group are added in turn. -/
theorem Surveyed.addMembers {before : List UnitSite} {names : List String} (h : Surveyed tree before c)
    (hout : (addMembers tree verbose path names c).outcome = .ok c') (kind : UnitKind) :
    Surveyed tree (before ++ names.map (UnitSite.inside ⟨path, kind⟩)) c' := by
  induction names generalizing before c with
  | nil =>
    cases hout
    rw [List.map_nil, List.append_nil]
    exact h
  | cons name rest ih =>
    rw [Context.addMembers] at hout
    obtain ⟨p, hp, hrest⟩ := Logged.outcome_bind_eq_ok_iff.mp hout
    obtain ⟨c₁, hadd, hrest⟩ := Logged.outcome_bind_eq_ok_iff.mp hrest
    have hfound : Found tree p (UnitSite.inside ⟨path, kind⟩ name) := by
      rw [UnitSite.inside]
      exact found_of_loadPackage (memberKind_ne_group name) hp
    have h₁ := h.add hfound hadd
    rw [List.map_cons, List.append_cons]
    exact ih h₁ hrest

/-- A group is loaded and added before its members. -/
theorem addGroup_ok (h : (addGroup tree verbose c path).outcome = .ok c') : ∃ group c₁,
    (SourceUnit.loadGroup tree verbose path).outcome = .ok group ∧ c.add group = .ok c₁ ∧
    (addMembers tree verbose path group.members c₁).outcome = .ok c' := by
  unfold addGroup at h
  obtain ⟨_, _, hrest⟩ := Logged.outcome_bind_eq_ok_iff.mp h
  obtain ⟨group, hgroup, hrest⟩ := Logged.outcome_bind_eq_ok_iff.mp hrest
  obtain ⟨c₁, hadd, hrest⟩ := Logged.outcome_bind_eq_ok_iff.mp hrest
  obtain ⟨c₂, hmembers, hrest⟩ := Logged.outcome_bind_eq_ok_iff.mp hrest
  obtain ⟨_, _, hlast⟩ := Logged.outcome_bind_eq_ok_iff.mp hrest
  cases hlast
  exact ⟨group, c₁, hgroup, hadd, hmembers⟩

theorem addPackage_ok {kind : UnitKind} (h : (addPackage tree verbose kind c path).outcome = .ok c') :
    ∃ p, (SourceUnit.loadPackage tree verbose path kind).outcome = .ok p ∧ c.add p = .ok c' := by
  unfold addPackage at h
  obtain ⟨_, _, hrest⟩ := Logged.outcome_bind_eq_ok_iff.mp h
  obtain ⟨p, hp, hrest⟩ := Logged.outcome_bind_eq_ok_iff.mp hrest
  obtain ⟨c₁, hadd, hrest⟩ := Logged.outcome_bind_eq_ok_iff.mp hrest
  obtain ⟨_, _, hlast⟩ := Logged.outcome_bind_eq_ok_iff.mp hrest
  cases hlast
  exact ⟨p, hp, hadd⟩

theorem addThirdParty_ok (h : (addThirdParty c path).outcome = .ok c') :
    c.add { name := Path.baseName path, path, kind := .thirdParty } = .ok c' := by
  unfold addThirdParty at h
  obtain ⟨_, _, hrest⟩ := Logged.outcome_bind_eq_ok_iff.mp h
  obtain ⟨c₁, hadd, hrest⟩ := Logged.outcome_bind_eq_ok_iff.mp hrest
  obtain ⟨_, _, hlast⟩ := Logged.outcome_bind_eq_ok_iff.mp hrest
  cases hlast
  exact hadd

/-- Adding a group accounts for one site.  Its members are added with it, but have no site of their
    own. -/
theorem surveys_addGroup (path : String) :
    Surveys tree (addGroup tree verbose · path) [⟨path, .group⟩] := by
  intro before c c' h hout
  obtain ⟨group, c₁, hgroup, hadd, hmembers⟩ := addGroup_ok hout
  have hfound := found_of_loadGroup hgroup
  have hc := (h.add hfound hadd).addMembers hmembers .group
  rw [hfound.members rfl, List.append_assoc] at hc
  rw [List.flatMap_singleton]
  exact hc

theorem surveys_of_add {kind : UnitKind} (hkind : kind ≠ .group) {step : Context → Logged Context}
    (h : ∀ ⦃c c'⦄, (step c).outcome = .ok c' → ∃ u, Found tree u ⟨path, kind⟩ ∧ c.add u = .ok c') :
    Surveys tree step [⟨path, kind⟩] := by
  intro before c c' hc hout
  obtain ⟨u, hfound, hadd⟩ := h hout
  rw [List.flatMap_singleton, UnitSite.withMembers_of_ne hkind]
  exact hc.add hfound hadd

/-- Adding a package accounts for its site. -/
theorem surveys_addPackage {kind : UnitKind} (hkind : kind ≠ .group) (path : String) :
    Surveys tree (addPackage tree verbose kind · path) [⟨path, kind⟩] := by
  refine surveys_of_add hkind fun c c' hout => ?_
  obtain ⟨p, hp, hadd⟩ := addPackage_ok hout
  exact ⟨p, found_of_loadPackage hkind hp, hadd⟩

/-- Adding a third-party directory accounts for its site, which need not be read. -/
theorem surveys_addThirdParty (path : String) :
    Surveys tree (addThirdParty · path) [⟨path, .thirdParty⟩] := by
  have hkind : UnitKind.thirdParty ≠ .group := by decide
  refine surveys_of_add hkind fun c c' hout => ?_
  exact ⟨_, ⟨rfl, rfl, rfl, fun e => absurd e hkind⟩, addThirdParty_ok hout⟩

/-! ## Whole repositories -/

/-- Adding the places of a directory accounts for those that pass the test, in their order. -/
theorem surveys_addPlaces {test : String → Bool} {kind : UnitKind}
    {add : Context → String → Logged Context}
    (hadd : ∀ path, Surveys tree (add · path) [⟨path, kind⟩]) (dir : String) :
    Surveys tree (addPlaces tree root test add · dir) (placeSites tree root test kind dir) := by
  intro before c c' h hout
  unfold placeSites
  change (if tree.isDir (Path.join root dir) then
    (placesIn tree test (Path.join root dir)).foldlM add c else return c).outcome = .ok c' at hout
  by_cases hdir : tree.isDir (Path.join root dir) = true
  · rw [if_pos hdir] at hout ⊢
    rw [← List.flatMap_singleton' ((placesIn tree test (Path.join root dir)).map _), List.flatMap_map]
    exact surveys_foldlM hadd _ h hout
  · rw [if_neg hdir] at hout ⊢
    exact surveys_pure h hout

/-- A field of the layout accounts for the sites of the directories that it lists. -/
theorem surveys_addField {add : Context → String → Logged Context} {sitesAt : String → List UnitSite}
    (hadd : ∀ dir, Surveys tree (add · dir) (sitesAt dir)) (field : Datum) :
    Surveys tree (addField add field) ((fieldDirs field).flatMap sitesAt) := by
  intro before c c' h hout
  unfold addField at hout
  obtain ⟨dirs, hdirs, hfold⟩ := Logged.outcome_bind_eq_ok_iff.mp hout
  have hmembers : field.members = .ok dirs := hdirs
  unfold fieldDirs
  rw [hmembers]
  show Surveyed tree (before ++ ((dirs.filterMap Datum.str?).flatMap sitesAt).flatMap _) c'
  clear hdirs hmembers hout
  induction dirs generalizing before c with
  | nil => exact surveys_pure h hfold
  | cons dir rest ih =>
    rw [List.foldlM_cons] at hfold
    obtain ⟨c₁, hone, hrest⟩ := Logged.outcome_bind_eq_ok_iff.mp hfold
    cases dir with
    | str d =>
      have hrestSites := ih (hadd d h hone) hrest
      rw [List.append_assoc, ← List.flatMap_append] at hrestSites
      exact hrestSites
    -- What is no text makes the whole step fail.
    | _ => cases hone

/-- A directory of the repository accounts for all that is found in it: groups, packages and
    third-party directories. -/
theorem surveys_addRoot (dir : String) :
    Surveys tree (addRoot tree verbose root · dir) (rootSites tree root dir) := by
  intro before c c' h hout
  unfold rootSites
  change (if SourceUnit.isGroupPath tree (rootPath root dir) then
    addGroup tree verbose c (rootPath root dir) else return c).outcome = .ok c' at hout
  by_cases hgroup : SourceUnit.isGroupPath tree (rootPath root dir) = true
  · rw [if_pos hgroup] at hout ⊢
    exact surveys_addGroup _ h hout
  · rw [if_neg hgroup] at hout ⊢
    exact surveys_pure h hout

/-- The five fields of a layout are gone through one after the other. -/
theorem surveys_addLayout (layout : Layout) :
    Surveys tree (addLayout tree verbose root layout) (layoutSites tree root layout) :=
  (surveys_addField (surveys_addPlaces surveys_addGroup) layout.groups).bind <|
  (surveys_addField (surveys_addPlaces (surveys_addPackage (by decide))) layout.standAlones).bind <|
  (surveys_addField (surveys_addPlaces (surveys_addPackage (by decide))) layout.applications).bind <|
  (surveys_addField (surveys_addPlaces surveys_addThirdParty) layout.thirdParties).bind <|
  surveys_addField surveys_addRoot layout.groupRoots

/-- So the repository is surveyed as a whole, field by field of its layout. -/
theorem surveys_addRepository (root : String) :
    Surveys tree (addRepository tree verbose · root) (repositorySites tree root) := by
  intro before c c' h hout
  unfold addRepository at hout
  obtain ⟨⟨layout, file⟩, hfind, hout⟩ := Logged.outcome_bind_eq_ok_iff.mp hout
  have hsites : repositorySites tree root = layoutSites tree root layout := by
    unfold repositorySites
    rw [hfind]
  rw [hsites]
  cases file with
  | none => exact surveys_addLayout layout h hout
  | some path =>
    obtain ⟨_, _, hout⟩ := Logged.outcome_bind_eq_ok_iff.mp hout
    obtain ⟨_, _, hout⟩ := Logged.outcome_bind_eq_ok_iff.mp hout
    exact surveys_addLayout layout h hout

/-- Documentation and versions change no site. -/
theorem Surveyed.completeFrom {sites : List UnitSite} {us : List SourceUnit} {known : Release.Known}
    (h : Surveyed tree sites c) (hus : ∀ u ∈ us, ∃ s ∈ sites, Found tree u s)
    (hout : completeFrom tree us known c = .ok c') : Surveyed tree sites c' := by
  induction us generalizing known c with
  | nil =>
    cases hout
    exact h
  | cons u rest ih =>
    rw [Context.completeFrom] at hout
    obtain ⟨version, _, hrest⟩ := Failure.bind_eq_ok_iff.mp hout
    obtain ⟨s, hs, hfound⟩ := hus u List.mem_cons_self
    refine ih (h.put hs ?_) (fun v hv => hus v (List.mem_cons_of_mem _ hv)) hrest
    exact ⟨hfound.path, hfound.kind, hfound.name, hfound.members⟩

/-- **A loaded repository holds what the survey of its tree meets.** -/
theorem surveyed_of_load (h : (load tree verbose root).outcome = .ok c) :
    Surveyed tree (met tree root) c := by
  have hcomplete : ∀ c₁, Surveyed tree (met tree root) c₁ → complete tree c₁ = .ok c →
      Surveyed tree (met tree root) c := by
    intro c₁ h₁ hout
    refine h₁.completeFrom (fun u hu => ?_) hout
    obtain ⟨name, hname⟩ := Table.mem_values_iff.mp hu
    exact h₁.found (get?_releases.mp hname).1
  unfold load at h
  by_cases hworkspace : tree.isFile (Path.join root ".bdeworkspaceconfig") = true
  · rw [if_pos hworkspace] at h
    obtain ⟨c₁, hfold, hc⟩ := Logged.outcome_bind_eq_ok_iff.mp h
    refine hcomplete c₁ ?_ hc
    rw [met, sites, repositories, if_pos hworkspace]
    refine surveys_foldlM (fun path before c c' hstep hout => ?_) _ (surveyed_empty tree root) hfold
    obtain ⟨_, _, hout⟩ := Logged.outcome_bind_eq_ok_iff.mp hout
    obtain ⟨_, _, hout⟩ := Logged.outcome_bind_eq_ok_iff.mp hout
    exact surveys_addRepository path hstep hout
  · rw [if_neg hworkspace] at h
    obtain ⟨c₁, hone, hc⟩ := Logged.outcome_bind_eq_ok_iff.mp h
    refine hcomplete c₁ ?_ hc
    rw [met, sites, repositories, if_neg hworkspace, List.flatMap_singleton]
    exact surveys_addRepository root (surveyed_empty tree root) hone

/-! ## Groups and their members -/

section Loaded

variable (h : Surveyed tree (met tree root) c)
include h

theorem Surveyed.exists_group (hu : c.units.get? name = some g) (hkind : g.kind = .group) :
    ∃ s ∈ sites tree root, Found tree g s ∧ s.kind = .group ∧ g.members = s.listed tree := by
  obtain ⟨s, hs, hfound⟩ := h.found hu
  have hgroup : s.kind = .group := hfound.kind.symm.trans hkind
  exact ⟨s, mem_sites_of_group hs hgroup, hfound, hgroup, hfound.members hgroup⟩

theorem Surveyed.nodup_members (hu : c.units.get? name = some g) (hkind : g.kind = .group) :
    g.members.Nodup := by
  obtain ⟨s, _, _, _, hmembers⟩ := h.exists_group hu hkind
  rw [hmembers]
  exact UnitSite.nodup_listed

/-- **No package of a loaded repository belongs to two groups**: it would have been added for both. -/
theorem Surveyed.membersApart : c.MembersApart := by
  intro name name' u v m hu hv hukind hvkind hm hm'
  obtain ⟨s, hs, hfound, _, hmembers⟩ := h.exists_group hu hukind
  obtain ⟨s', hs', hfound', _, hmembers'⟩ := h.exists_group hv hvkind
  by_cases heq : s = s'
  · rw [← c.named hu, ← c.named hv, hfound.name, hfound'.name, heq]
  · -- The member has a site inside each of the two, and these have the same name.
    exfalso
    have hnodup := h.nodup
    rw [met, List.map_flatMap, List.nodup_flatMap] at hnodup
    have hmem : ∀ t : UnitSite, m ∈ t.listed tree →
        Path.baseName m ∈ (t.withMembers tree).map UnitSite.name :=
      fun t ht => List.mem_map.mpr ⟨_, UnitSite.inside_mem_withMembers ht, UnitSite.name_inside⟩
    have hsymm : Std.Symm (Function.onFun List.Disjoint fun t : UnitSite =>
        (t.withMembers tree).map UnitSite.name) := ⟨fun _ _ hdisjoint => hdisjoint.symm⟩
    have hdisjoint := hnodup.2.forall hs hs' heq
    exact hdisjoint (hmem s (hmembers ▸ hm)) (hmem s' (hmembers' ▸ hm'))

/-- The packages that a group lists are there, inside it. -/
theorem Surveyed.exists_member (hu : c.units.get? name = some g) (hkind : g.kind = .group)
    (hm : m ∈ g.members) : ∃ p, c.units.get? (Path.baseName m) = some p ∧ p.kind = memberKind m ∧
      p.path = Path.join g.path m := by
  obtain ⟨s, hs, hfound, _, hmembers⟩ := h.exists_group hu hkind
  have hinside : s.inside m ∈ met tree root := mem_met_iff.mpr (Or.inr ⟨s, hs, m, hmembers ▸ hm, rfl⟩)
  obtain ⟨p, hp, hplace⟩ := h.exists_unit hinside
  rw [UnitSite.name_inside] at hp
  refine ⟨p, hp, hplace.kind.trans UnitSite.kind_inside, ?_⟩
  rw [hplace.path, hfound.path]
  rfl

/-- The packages inside groups are there because some group lists them. -/
theorem Surveyed.exists_listing (hp : c.units.get? name = some p) (hkind : p.kind.isInner = true) :
    ∃ g m, g ∈ c.units.values ∧ g.kind = .group ∧ m ∈ g.members ∧ Path.baseName m = name := by
  obtain ⟨s, hs, hfound⟩ := h.found hp
  obtain ⟨t, ht, m, hm, rfl⟩ := exists_group_of_inner hs (hfound.kind ▸ hkind)
  obtain ⟨g, hg, hplace⟩ := h.exists_unit (mem_met_iff.mpr (Or.inl ht))
  have hgroup : t.kind = .group := UnitSite.kind_of_mem_listed hm
  refine ⟨g, m, Table.mem_values_iff.mpr ⟨_, hg⟩, hplace.kind.trans hgroup, ?_, ?_⟩
  · rw [hplace.members hgroup]
    exact hm
  · rw [← c.named hp, hfound.name, UnitSite.name_inside]

end Loaded

/-! ## Well-formed repositories -/

/-- The members of all groups are plain names. -/
def PlainMembers (tree : FileTree) (root : String) : Prop :=
  ∀ s ∈ sites tree root, ∀ m ∈ s.listed tree, '/' ∉ m.toList

/-- The kind of a member with a plain name can be read off the name. -/
theorem memberKind_of_plain (hplain : '/' ∉ m.toList) :
    memberKind m = if '+' ∈ m.toList then .plus else .normal := by
  unfold memberKind
  rw [Path.baseName_of_not_mem hplain]
  exact if_congr (Text.contains_char rfl) rfl rfl

/-- The units stand under their names, and the groups and the packages inside them fit together. -/
structure WellFormed (c : Context) : Prop where
  named : ∀ ⦃name u⦄, c.units.get? name = some u → u.name = name ∧ Path.baseName u.path = name
  member : ∀ ⦃name g⦄, c.units.get? name = some g → g.kind = .group → ∀ m ∈ g.members,
    ∃ p, c.units.get? m = some p ∧ p.kind = (if '+' ∈ m.toList then .plus else .normal) ∧
      p.path = Path.join g.path m
  home : ∀ ⦃name p⦄, c.units.get? name = some p → p.kind.isInner = true →
    ∃! g, g ∈ c.units.values ∧ g.kind = .group ∧ name ∈ g.members
  graph : ∀ ⦃name g⦄, c.units.get? name = some g → g.kind = .group →
    ∃ graph, c.packageGraph g = .ok graph ∧ ∀ m, m ∈ graph.keys ↔ m ∈ g.members

/-- **A surveyed repository is well formed.**  Two groups that list one package have the same
    directory above it, so they are one group. -/
theorem Surveyed.wellFormed (h : Surveyed tree (met tree root) c) (hplain : PlainMembers tree root) :
    c.WellFormed := by
  have hlocal : ∀ ⦃name g⦄, c.units.get? name = some g → g.kind = .group → ∀ m ∈ g.members,
      '/' ∉ m.toList := by
    intro name g hg hkind m hm
    obtain ⟨s, hs, _, _, hmembers⟩ := h.exists_group hg hkind
    exact hplain s hs m (hmembers ▸ hm)
  have hmember : ∀ ⦃name g⦄, c.units.get? name = some g → g.kind = .group → ∀ m ∈ g.members,
      ∃ p, c.units.get? m = some p ∧ p.kind = (if '+' ∈ m.toList then .plus else .normal) ∧
        p.path = Path.join g.path m := by
    intro name g hg hkind m hm
    have hm' := hlocal hg hkind m hm
    obtain ⟨p, hp, hpkind, hpath⟩ := h.exists_member hg hkind hm
    rw [Path.baseName_of_not_mem hm'] at hp
    rw [memberKind_of_plain hm'] at hpkind
    exact ⟨p, hp, hpkind, hpath⟩
  refine ⟨?_, hmember, ?_, ?_⟩
  · intro name u hu
    obtain ⟨s, _, hfound⟩ := h.found hu
    refine ⟨c.named hu, ?_⟩
    rw [hfound.path, ← c.named hu, hfound.name]
    rfl
  · intro name p hp hinner
    obtain ⟨g, m, hg, hgroup, hm, hbase⟩ := h.exists_listing hp hinner
    obtain ⟨key, hkey⟩ := Table.mem_values_iff.mp hg
    rw [Path.baseName_of_not_mem (hlocal hkey hgroup m hm)] at hbase
    refine ⟨g, ⟨hg, hgroup, hbase ▸ hm⟩, ?_⟩
    -- Another group that lists the package has the name of this one.
    rintro g' ⟨hg', hgroup', hm'⟩
    obtain ⟨key', hkey'⟩ := Table.mem_values_iff.mp hg'
    have hsame : key' = key := h.membersApart hkey' hkey hgroup' hgroup hm' (hbase ▸ hm)
    rw [hsame, hkey, Option.some.injEq] at hkey'
    exact hkey'.symm
  · intro name g hg hkind
    refine exists_packageGraph hkind fun m hm => ?_
    obtain ⟨p, hp, hpkind, _⟩ := hmember hg hkind m hm
    refine ⟨p, hp, ?_⟩
    rw [hpkind]
    split <;> rfl

/-- **A loaded repository is well formed.**  If the members of groups are plain names, a successful
    load gives exactly the units of the survey, and a well-formed context of them; if two of the
    units that the survey meets have the same name, wherever they are, loading does not succeed. -/
theorem wellFormed_of_load (tree : FileTree) (verbose : Bool) (root : String)
    (hplain : PlainMembers tree root) :
    (∀ c, (load tree verbose root).outcome = .ok c →
      c.units.keys = (met tree root).map UnitSite.name ∧
      (∀ s ∈ met tree root, ∃ u, c.units.get? s.name = some u ∧ Found tree u s) ∧ c.WellFormed) ∧
    (¬ ((met tree root).map UnitSite.name).Nodup → ∀ c, (load tree verbose root).outcome ≠ .ok c) := by
  refine ⟨fun c hload => ?_, fun hdup c hload => ?_⟩
  · have hsurveyed := surveyed_of_load hload
    exact ⟨hsurveyed.keys, fun s hs => hsurveyed.exists_unit hs, hsurveyed.wellFormed hplain⟩
  · exact hdup (surveyed_of_load hload).nodup

/-- A workspace with one repository, which is a group with one member. -/
def workspaceTree (member : String) : FileTree where
  files := .ofList [("/w/.bdeworkspaceconfig", ""), ("/w/kit/group/kit.mem", member)]
  dirs := ["/", "/w", "/w/kit", "/w/kit/group"]

/-- With the member `kit+a` the workspace is loaded, and the package is found in the directory of
    the group; with the member `kit` it is not, as the group has that name already. -/
theorem wellFormed_of_load_workspace :
    (∃ c, (load (workspaceTree "kit+a") false "/w").outcome = .ok c ∧
      c.units.keys = ["kit", "kit+a"] ∧ c.WellFormed) ∧
    ∀ c, (load (workspaceTree "kit") false "/w").outcome ≠ .ok c := by
  constructor
  · have hplain : PlainMembers (workspaceTree "kit+a") "/w" := by
      unfold PlainMembers
      decide +kernel
    have hok : (load (workspaceTree "kit+a") false "/w").outcome.isOk = true := by decide +kernel
    obtain ⟨c, hload⟩ := Failure.exists_of_isOk hok
    obtain ⟨hkeys, _, hwell⟩ := (wellFormed_of_load _ _ _ hplain).1 c hload
    have hnames : (met (workspaceTree "kit+a") "/w").map UnitSite.name = ["kit", "kit+a"] := by
      decide +kernel
    exact ⟨c, hload, hkeys.trans hnames, hwell⟩
  · have hplain : PlainMembers (workspaceTree "kit") "/w" := by
      unfold PlainMembers
      decide +kernel
    have hnames : (met (workspaceTree "kit") "/w").map UnitSite.name = ["kit", "kit"] := by
      decide +kernel
    refine (wellFormed_of_load _ _ _ hplain).2 ?_
    rw [hnames]
    decide

end Context

end BuildMeta
