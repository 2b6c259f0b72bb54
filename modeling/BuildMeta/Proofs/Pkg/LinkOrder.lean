import BuildMeta.Proofs.Pkg.Dependencies
import BuildMeta.Proofs.Pkg.LinkTokens
import Mathlib.Data.List.Basic

/-!
# `Proofs.Pkg.LinkOrder` — the order of libraries for linking

A linker that reads its libraries once needs each of them before those that it requires.  A query
answers with the libraries in the order in which a depth-first walk meets their packages first, and
this need not be such an order: if a list of requirements names a package before another one that
requires it, the walk meets them the wrong way round.

* `DepthFirst.leading_iff_apart` — the walk meets every name before those that it requires exactly
  if all lists of requirements that it goes through are listed in the right order (`Apart`);
* `idxOf_flag_lt_iff` — libraries stand as their packages were loaded;
* `link_order_iff` — so this is also when the answer for linking is in the order that a linker needs.
-/

namespace BuildMeta.Pkg

/-! ## Places in a list -/

section Places

variable {front order : List String} {a b : String}

/-- What belongs to the front of a list stands before what does not. -/
theorem idxOf_lt_of_front (hfront : front <+: order) (ha : a ∈ front) (hb : b ∉ front) :
    order.idxOf a < order.idxOf b := by
  obtain ⟨back, rfl⟩ := hfront
  rw [List.idxOf_append_of_mem ha, List.idxOf_append_of_notMem hb]
  exact Nat.lt_add_right _ (List.idxOf_lt_length_of_mem ha)

/-- What the front of a list says about the places of its members holds in the whole list. -/
theorem idxOf_lt_of_isPrefix (hfront : front <+: order) (ha : a ∈ front)
    (h : front.idxOf a < front.idxOf b) :
    order.idxOf a < order.idxOf b := by
  by_cases hb : b ∈ front
  · obtain ⟨back, rfl⟩ := hfront
    rwa [List.idxOf_append_of_mem ha, List.idxOf_append_of_mem hb]
  · exact idxOf_lt_of_front hfront ha hb

end Places

/-! ## Depth-first order and requirements -/

section Graph

variable {needs : String → List Requirement} {asked before waiting met below : List Requirement}
  {seen seen₁ seen' order : List String} {r : Requirement} {n m : String}

/-- Requirements go in no circle. -/
def Acyclic (needs : String → List Requirement) : Prop := ∀ n, ¬ Reached needs (needs n) n

/-- A list of requirements is in the right order: wherever it is cut, a name that only the later
    ones lead to requires nothing that the earlier ones lead to. -/
def Apart (needs : String → List Requirement) (rs : List Requirement) : Prop :=
  ∀ before after, rs = before ++ after → ∀ n, Reached needs after n → ¬ Reached needs before n →
    ∀ r ∈ needs n, ¬ Reached needs before r.name

/-- All that a name requires comes after it. -/
def Leading (needs : String → List Requirement) (order : List String) (n : String) : Prop :=
  ∀ r ∈ needs n, order.idxOf n < order.idxOf r.name

theorem Reached.mono {asked' : List Requirement} (h : Reached needs asked n) (hsub : asked ⊆ asked') :
    Reached needs asked' n :=
  h.trans fun _ hr => .asked (hsub hr)

/-- What a name requires is reached with the name. -/
theorem Reached.of_needs (h : Reached needs (needs n) m) (hn : Reached needs asked n) :
    Reached needs asked m :=
  h.trans fun _ hr => .required hn hr

theorem not_reached_nil : ¬ Reached needs [] n := by
  intro h
  induction h with
  | asked hr => cases hr
  | required _ _ ih => exact ih

/-- What two lists lead to is what either of them leads to. -/
theorem reached_append_iff :
    Reached needs (before ++ waiting) n ↔ Reached needs before n ∨ Reached needs waiting n := by
  constructor
  · intro h
    induction h with
    | asked hr => exact (List.mem_append.mp hr).imp .asked .asked
    | required _ hr ih => exact ih.imp (.required · hr) (.required · hr)
  · rintro (h | h)
    · exact h.mono (List.subset_append_left _ _)
    · exact h.mono (List.subset_append_right _ _)

/-- One requirement leads to its name and to what that requires. -/
theorem reached_singleton_iff : Reached needs [r] n ↔ n = r.name ∨ Reached needs (needs r.name) n := by
  constructor
  · intro h
    induction h with
    | asked hr => exact Or.inl (by rw [List.mem_singleton.mp hr])
    | required _ hq ih =>
      rcases ih with rfl | ih
      · exact Or.inr (.asked hq)
      · exact Or.inr (.required ih hq)
  · rintro (rfl | h)
    · exact .asked List.mem_cons_self
    · exact h.of_needs (.asked List.mem_cons_self)

/-- Of what requirements lead to, the names that were seen are done with: all that they require was
    seen, too. -/
def Finished (needs : String → List Requirement) (seen : List String) (waiting : List Requirement) :
    Prop :=
  ∀ n, Reached needs waiting n → n ∈ seen → ∀ r ∈ needs n, r.name ∈ seen

/-- Of what requirements lead to, the names that were not seen require nothing that was seen. -/
def Untouched (needs : String → List Requirement) (seen : List String)
    (waiting : List Requirement) : Prop :=
  ∀ n, Reached needs waiting n → n ∉ seen → ∀ r ∈ needs n, r.name ∉ seen

/-- Without circles a name is not reached from what it requires, so it may count as seen there. -/
theorem Finished.inner (h : Finished needs seen (r :: waiting)) (hacyclic : Acyclic needs) :
    Finished needs (seen ++ [r.name]) (needs r.name) := by
  intro n hn hseen q hq
  rcases List.mem_append.mp hseen with hseen | hself
  · exact List.mem_append_left _ (h n (hn.of_needs (.asked List.mem_cons_self)) hseen q hq)
  · rw [List.mem_singleton.mp hself] at hn
    exact absurd hn (hacyclic _)

/-- A walk that goes down to what a name requires finds nothing touched there, since the name does
    not lead to itself. -/
theorem Untouched.inner (h : Untouched needs seen (r :: waiting)) (hacyclic : Acyclic needs) :
    Untouched needs (seen ++ [r.name]) (needs r.name) := by
  intro n hn hseen q hq hin
  rcases List.mem_append.mp hin with hin | hself
  · exact h n (hn.of_needs (.asked List.mem_cons_self))
      (fun hn => hseen (List.mem_append_left _ hn)) q hq hin
  · have hreached : Reached needs (needs r.name) q.name := .required hn hq
    rw [List.mem_singleton.mp hself] at hreached
    exact hacyclic r.name hreached

namespace DepthFirst

theorem isPrefix (h : DepthFirst needs seen waiting met seen') : seen <+: seen' := by
  induction h with
  | done => exact List.prefix_rfl
  | again _ _ ih => exact ih
  | first _ _ _ ihinner ih => exact (List.prefix_append _ _).trans (ihinner.trans ih)

/-- The walk goes through the first requirements before the others. -/
theorem append {xs ys : List Requirement} (h : DepthFirst needs seen (xs ++ ys) met seen') :
    ∃ between met₁ met₂, DepthFirst needs seen xs met₁ between ∧
      DepthFirst needs between ys met₂ seen' := by
  generalize hwaiting : xs ++ ys = waiting at h
  induction h generalizing xs with
  | done =>
    obtain ⟨rfl, rfl⟩ := List.append_eq_nil_iff.mp hwaiting
    exact ⟨_, _, _, .done, .done⟩
  | again hseen hrest ih =>
    cases xs with
    | nil =>
      obtain rfl := hwaiting
      exact ⟨_, _, _, .done, .again hseen hrest⟩
    | cons x xs =>
      obtain ⟨rfl, rfl⟩ := List.cons.inj hwaiting
      obtain ⟨between, met₁, met₂, hxs, hys⟩ := ih rfl
      exact ⟨between, _, met₂, .again hseen hxs, hys⟩
  | first hnew hinner hrest _ ih =>
    cases xs with
    | nil =>
      obtain rfl := hwaiting
      exact ⟨_, _, _, .done, .first hnew hinner hrest⟩
    | cons x xs =>
      obtain ⟨rfl, rfl⟩ := List.cons.inj hwaiting
      obtain ⟨between, met₁, met₂, hxs, hys⟩ := ih rfl
      exact ⟨between, _, met₂, .first hnew hinner hxs, hys⟩

/-- Where a name is met first, the walk goes through what it requires. -/
theorem exists_inner (h : DepthFirst needs seen waiting met seen') (hn : n ∈ seen') (hnew : n ∉ seen) :
    ∃ front inner mid, n ∉ front ∧ DepthFirst needs (front ++ [n]) (needs n) inner mid ∧
      mid <+: seen' := by
  induction h with
  | done => exact absurd hn hnew
  | again _ _ ih => exact ih hn hnew
  | @first seen r waiting inner met seen₁ seen' hr hinner hrest ihinner ih =>
    by_cases hmid : n ∈ seen₁
    · by_cases hself : n = r.name
      · subst hself
        exact ⟨seen, inner, seen₁, hr, hinner, hrest.isPrefix⟩
      · obtain ⟨front, inner', mid, hfront, hwalk, hmid⟩ := ihinner hmid (by simp [hnew, hself])
        exact ⟨front, inner', mid, hfront, hwalk, hmid.trans hrest.isPrefix⟩
    · exact ih hn hmid

/-- The names seen afterwards, in terms of requirements alone. -/
theorem mem_iff_of_finished (h : DepthFirst needs seen waiting met seen')
    (hfinished : Finished needs seen waiting) :
    n ∈ seen' ↔ n ∈ seen ∨ Reached needs waiting n := by
  have hmet : ∀ {r : Requirement}, r ∈ met → r.name ∈ seen' := fun hr =>
    h.mem_seen_iff.mpr (Or.inr (List.mem_map_of_mem hr))
  constructor
  · intro hn
    refine (h.mem_seen_iff.mp hn).imp_right fun hn => ?_
    obtain ⟨r, hr, rfl⟩ := List.mem_map.mp hn
    exact h.reached_of_met hr
  · rintro (hn | hn)
    · exact h.subset_seen hn
    · induction hn with
      | asked hr => exact hmet (h.mem_met hr)
      | @required k r hk hr ih =>
        by_cases hold : k ∈ seen
        · exact h.subset_seen (hfinished k hk hold r hr)
        · exact hmet (h.needs_met ih hold hr)

/-- After a name the walk is done with all that it requires. -/
theorem finished_rest (h : DepthFirst needs (seen ++ [r.name]) (needs r.name) below seen₁)
    (hfinished : Finished needs seen (r :: waiting)) : Finished needs seen₁ waiting := by
  intro n hn hseen q hq
  by_cases hold : n ∈ seen
  · exact h.subset_seen
      (List.mem_append_left _ (hfinished n (hn.mono (List.subset_cons_self _ _)) hold q hq))
  · refine h.mem_seen_iff.mpr (Or.inr (List.mem_map_of_mem ?_))
    by_cases hself : n = r.name
    · subst hself
      exact h.mem_met hq
    · exact h.needs_met hseen (by simp [hold, hself]) hq

/-- The names seen after a new name and all that it requires. -/
theorem mem_seen₁_iff (h : DepthFirst needs (seen ++ [r.name]) (needs r.name) below seen₁)
    (hacyclic : Acyclic needs) (hfinished : Finished needs seen (r :: waiting)) :
    n ∈ seen₁ ↔ n ∈ seen ∨ Reached needs [r] n := by
  rw [h.mem_iff_of_finished (hfinished.inner hacyclic), reached_singleton_iff, List.mem_append,
    List.mem_singleton, or_assoc]

/-- In a list in the right order, what is left to go through does not require what the walk has just
    gone through. -/
theorem untouched_rest (h : DepthFirst needs (seen ++ [r.name]) (needs r.name) below seen₁)
    (hacyclic : Acyclic needs) (hfinished : Finished needs seen (r :: waiting))
    (huntouched : Untouched needs seen (r :: waiting))
    (hlist : Apart needs (before ++ r :: waiting)) (hbefore : ∀ n, Reached needs before n → n ∈ seen) :
    Untouched needs seen₁ waiting := by
  have hseen₁ : ∀ {n}, n ∈ seen₁ ↔ n ∈ seen ∨ Reached needs [r] n := h.mem_seen₁_iff hacyclic hfinished
  intro n hn hnew q hq hin
  rcases hseen₁.mp hin with hin | hin
  · exact huntouched n (hn.mono (List.subset_cons_self _ _))
      (fun hold => hnew (hseen₁.mpr (Or.inl hold))) q hq hin
  · -- The name that requires it would have been met before.
    refine hlist (before ++ [r]) waiting (by simp) n hn ?_ q hq (hin.mono (List.subset_append_right _ _))
    rw [reached_append_iff]
    rintro (hold | hold)
    · exact hnew (hseen₁.mpr (Or.inl (hbefore n hold)))
    · exact hnew (hseen₁.mpr (Or.inr hold))

/-- Where all lists of requirements are in the right order, every name that is met comes before what
    it requires. -/
theorem leading (h : DepthFirst needs seen waiting met seen') (hacyclic : Acyclic needs)
    (before : List Requirement) (hfinished : Finished needs seen waiting)
    (huntouched : Untouched needs seen waiting) (hlist : Apart needs (before ++ waiting))
    (hbefore : ∀ n, Reached needs before n → n ∈ seen) (hlists : ∀ n ∈ seen', Apart needs (needs n))
    (hn : n ∈ seen') (hnew : n ∉ seen) : Leading needs seen' n := by
  -- The induction follows the walk.  `before` holds the requirements of the list that the walk is
  -- through with.
  induction h generalizing before with
  | done => exact absurd hn hnew
  | @again seen r waiting met seen' hr hrest ih =>
    have hless : ∀ {k}, Reached needs waiting k → Reached needs (r :: waiting) k :=
      fun hk => hk.mono (List.subset_cons_self _ _)
    refine ih (before ++ [r]) (fun k hk => hfinished k (hless hk)) (fun k hk => huntouched k (hless hk))
      (by simpa using hlist) ?_ hlists hn hnew
    intro k hk
    rcases reached_append_iff.mp hk with hk | hk
    · exact hbefore k hk
    · have hdone : Finished needs seen [r] := fun k hk => hfinished k (hk.mono (by simp))
      exact ((DepthFirst.again hr .done).mem_iff_of_finished hdone).mpr (Or.inr hk)
  | @first seen r waiting inner met seen₁ seen' hr hinner hrest ihinner ih =>
    have hmid : ∀ {k}, k ∈ seen₁ ↔ k ∈ seen ∨ Reached needs [r] k :=
      hinner.mem_seen₁_iff hacyclic hfinished
    by_cases hin : n ∈ seen₁
    · have hself : r.name ∈ seen' := hrest.subset_seen (hmid.mpr (Or.inr (.asked List.mem_cons_self)))
      by_cases hn' : n = r.name
      · -- Nothing that the name requires was seen before it.
        subst hn'
        intro q hq
        refine idxOf_lt_of_front (hinner.isPrefix.trans hrest.isPrefix) (by simp) ?_
        rw [List.mem_append, List.mem_singleton, not_or]
        refine ⟨huntouched r.name (.asked List.mem_cons_self) hr q hq, fun hcircle => ?_⟩
        have hreached : Reached needs (needs r.name) q.name := .asked hq
        rw [hcircle] at hreached
        exact hacyclic r.name hreached
      · have hinnerLeading :=
          ihinner [] (hfinished.inner hacyclic) (huntouched.inner hacyclic) (hlists r.name hself)
          (fun k hk => absurd hk not_reached_nil) (fun k hk => hlists k (hrest.subset_seen hk)) hin
          (by simp [hnew, hn'])
        exact fun q hq => idxOf_lt_of_isPrefix hrest.isPrefix hin (hinnerLeading q hq)
    · refine ih (before ++ [r]) (hinner.finished_rest hfinished)
        (hinner.untouched_rest hacyclic hfinished huntouched hlist hbefore) (by simpa using hlist)
          ?_ hlists hn hin
      intro k hk
      rcases reached_append_iff.mp hk with hk | hk
      · exact hmid.mpr (Or.inl (hbefore k hk))
      · exact hmid.mpr (Or.inr hk)

/-- In an order in which every name comes before what it requires, it comes before all that it leads
    to. -/
theorem idxOf_lt_of_reached (h : DepthFirst needs [] asked met order)
    (hleading : ∀ n ∈ order, Leading needs order n) (hn : n ∈ order)
    (hm : Reached needs (needs n) m) : m ∈ order ∧ order.idxOf n < order.idxOf m := by
  have hstep : ∀ {k r}, k ∈ order → r ∈ needs k → r.name ∈ order := fun hk hr =>
    h.mem_seen_iff.mpr (Or.inr (List.mem_map_of_mem (h.needs_met hk List.not_mem_nil hr)))
  induction hm with
  | asked hr => exact ⟨hstep hn hr, hleading n hn _ hr⟩
  | required _ hr ih => exact ⟨hstep ih.1 hr, ih.2.trans (hleading _ ih.1 _ hr)⟩

/-- A list of requirements of which nothing was seen before is in the right order, if its names are
    met in the right order. -/
theorem apart (h : DepthFirst needs seen waiting met seen') (hfront : seen' <+: order)
    (hleading : ∀ n ∈ order, Leading needs order n) (hfresh : ∀ n ∈ seen, ¬ Reached needs waiting n) :
    Apart needs waiting := by
  rintro before after rfl n hn hnot r hr hin
  obtain ⟨between, met₁, met₂, hfirst, hrest⟩ := h.append
  have hnone : ∀ {k}, k ∈ seen → ¬ Reached needs (before ++ after) k := fun hk => hfresh _ hk
  have hbetween : ∀ {k}, k ∈ between ↔ k ∈ seen ∨ Reached needs before k :=
    hfirst.mem_iff_of_finished fun k hk hseen =>
      absurd (hk.mono (List.subset_append_left _ _)) (hnone hseen)
  have hnew : n ∉ between := by
    intro hold
    rcases hbetween.mp hold with hold | hold
    · exact hnone hold (hn.mono (List.subset_append_right _ _))
    · exact hnot hold
  have hmem : n ∈ order := by
    refine hfront.subset
      ((h.mem_iff_of_finished fun k hk hseen => absurd hk (hnone hseen)).mpr (Or.inr ?_))
    exact hn.mono (List.subset_append_right _ _)
  -- What `n` requires was met with the first part, and `n` was not.
  have hearlier := idxOf_lt_of_front (hrest.isPrefix.trans hfront) (hbetween.mpr (Or.inr hin)) hnew
  exact absurd (hleading n hmem r hr) (Nat.lt_asymm hearlier)

/-- **When a depth-first walk meets names in the right order.**  Without circles, every name comes
    before what it requires if and only if the list of what was asked for is in the right order, and
    so is what each name requires. -/
theorem leading_iff_apart (h : DepthFirst needs [] asked met order) (hacyclic : Acyclic needs) :
    (∀ n ∈ order, Leading needs order n) ↔ Apart needs asked ∧ ∀ n ∈ order, Apart needs (needs n) := by
  constructor
  · intro hleading
    refine ⟨h.apart List.prefix_rfl hleading fun n hn => absurd hn List.not_mem_nil, fun n hn => ?_⟩
    obtain ⟨front, inner, mid, hfront, hinner, hmid⟩ := h.exists_inner hn List.not_mem_nil
    refine hinner.apart hmid hleading fun k hk hreached => ?_
    obtain ⟨-, hlater⟩ := h.idxOf_lt_of_reached hleading hn hreached
    rcases List.mem_append.mp hk with hk | hk
    · have hpre : front <+: order := (List.prefix_append _ _).trans (hinner.isPrefix.trans hmid)
      exact Nat.lt_asymm hlater (idxOf_lt_of_front hpre hk hfront)
    · rw [List.mem_singleton.mp hk] at hlater
      exact Nat.lt_irrefl _ hlater
  · rintro ⟨hasked, hlists⟩ n hn
    exact h.leading hacyclic [] (fun k _ hk => absurd hk List.not_mem_nil)
      (fun k _ _ r _ => List.not_mem_nil) hasked
      (fun k hk => absurd hk not_reached_nil) hlists hn List.not_mem_nil

end DepthFirst

/-- If what a name requires is always lower, so is all that it leads to. -/
theorem Reached.height_lt {height : String → Nat}
    (hheight : ∀ n, ∀ r ∈ needs n, height r.name < height n) (h : Reached needs (needs n) m) :
    height m < height n := by
  induction h with
  | asked hr => exact hheight n _ hr
  | required _ hr ih => exact (hheight _ _ hr).trans ih

end Graph

/-! ## Libraries -/

namespace Query

variable {q : Query} {lib : String → String} {flags kept : List String} {f g n m : String}

/-- Every package has one library, and it is its own: the flags for linking of no other package name
    it. -/
structure OwnLibraries (q : Query) (lib : String → String) : Prop where
  one : ∀ e ∈ q.packages, e.2.link.libs = [lib e.1]
  own : ∀ e ∈ q.packages, ∀ e' ∈ q.packages, "-l" ++ lib e.1 ∈ q.allLinkFlags e'.2 → e'.1 = e.1

theorem LastBefore.idxOf_reverse_lt (h : LastBefore flags f g) :
    flags.reverse.idxOf g < flags.reverse.idxOf f := by
  obtain ⟨front, back, rfl, hlast, hmem⟩ := h
  have hfront : back.reverse <+: (front ++ f :: back).reverse := ⟨f :: front.reverse, by simp⟩
  exact idxOf_lt_of_front hfront (List.mem_reverse.mpr hmem) fun hin => hlast (List.mem_reverse.mp hin)

/-- What is kept stands as the last occurrences do. -/
theorem KeepsLast.idxOf_lt (h : KeepsLast flags kept) (hlast : LastBefore flags f g) :
    kept.idxOf f < kept.idxOf g := by
  have hlater := hlast.idxOf_reverse_lt
  obtain ⟨front, back, hsplit, -, hback⟩ := hlast
  have hf : f ∈ kept := (h.mem_iff f).mpr (by simp [hsplit])
  have hg : g ∈ kept := (h.mem_iff g).mpr (by simp [hsplit, hback])
  rcases Nat.lt_trichotomy (kept.idxOf f) (kept.idxOf g) with hlt | heq | hgt
  · exact hlt
  · obtain rfl := (List.idxOf_inj hf).mp heq
    exact absurd hlater (Nat.lt_irrefl _)
  · have hpair := List.pairwise_iff_getElem.mp h.order _ _ (List.idxOf_lt_length_of_mem hg)
      (List.idxOf_lt_length_of_mem hf) hgt
    rw [List.getElem_idxOf, List.getElem_idxOf] at hpair
    exact absurd hlater (Nat.lt_asymm hpair.idxOf_reverse_lt)

theorem OwnLibraries.mem_allLinkFlags (h : q.OwnLibraries lib) (hsystem : q.search.site.windows = false)
    {e : String × Package} (he : e ∈ q.packages) : "-l" ++ lib e.1 ∈ q.allLinkFlags e.2 := by
  refine List.mem_append_right _ (List.mem_flatMap.mpr ⟨e.2.link, link_mem_linkParts q e.2, ?_⟩)
  rw [windowsLinker_eq_false hsystem, h.one e he]
  exact List.mem_cons_self

/-- The library of a package stands for the last time before all that later packages state. -/
theorem OwnLibraries.lastBefore (h : q.OwnLibraries lib) (hsystem : q.search.site.windows = false)
    (hnodup : (names q.packages).Nodup) {front back : List (String × Package)} {e e' : String × Package}
    (hsplit : q.packages = front ++ e :: back) (he' : e' ∈ back) :
    LastBefore (q.stated q.allLinkFlags) ("-l" ++ lib e.1) ("-l" ++ lib e'.1) := by
  have hmem : ∀ d ∈ e :: back, d ∈ q.packages := fun d hd => hsplit ▸ List.mem_append_right _ hd
  obtain ⟨late, early, hflags, hlate⟩ := List.eq_append_cons_of_mem
    (List.mem_reverse.mpr (h.mem_allLinkFlags hsystem (hmem e List.mem_cons_self)))
  rw [List.reverse_eq_iff, List.reverse_append, List.reverse_cons, List.append_assoc] at hflags
  refine ⟨front.flatMap (fun d => q.allLinkFlags d.2) ++ early.reverse,
    late.reverse ++ back.flatMap fun d => q.allLinkFlags d.2, ?_, ?_, ?_⟩
  · show q.packages.flatMap (fun d => q.allLinkFlags d.2) = _
    rw [hsplit, List.flatMap_append, List.flatMap_cons, hflags]
    simp
  · rw [List.mem_append, List.mem_reverse, List.mem_flatMap]
    rintro (hin | ⟨d, hd, hin⟩)
    · exact hlate hin
    · -- A later package of another name does not state it.
      have hname := h.own e (hmem e List.mem_cons_self) d (hmem d (List.mem_cons_of_mem _ hd)) hin
      rw [hsplit, names, List.map_append, List.map_cons, List.nodup_append, List.nodup_cons] at hnodup
      exact hnodup.2.1.1 (hname ▸ List.mem_map_of_mem hd)
  · refine List.mem_append_right _ (List.mem_flatMap.mpr ⟨e', he', ?_⟩)
    exact h.mem_allLinkFlags hsystem (hmem e' (List.mem_cons_of_mem _ he'))

/-- **Libraries stand as their packages were loaded.** -/
theorem idxOf_flag_lt_iff (h : q.OwnLibraries lib) (hsystem : q.search.site.windows = false)
    (hnodup : (names q.packages).Nodup) (hn : n ∈ names q.packages) (hm : m ∈ names q.packages) :
    (q.collect q.allLinkFlags).idxOf ("-l" ++ lib n) < (q.collect q.allLinkFlags).idxOf ("-l" ++ lib m) ↔
      (names q.packages).idxOf n < (names q.packages).idxOf m := by
  have hforward : ∀ {n m}, n ∈ names q.packages → m ∈ names q.packages →
      (names q.packages).idxOf n < (names q.packages).idxOf m →
      (q.collect q.allLinkFlags).idxOf ("-l" ++ lib n)
        < (q.collect q.allLinkFlags).idxOf ("-l" ++ lib m) := by
    intro n m hn hm hlt
    obtain ⟨e, he, rfl⟩ := List.mem_map.mp hn
    obtain ⟨e', he', rfl⟩ := List.mem_map.mp hm
    obtain ⟨front, back, hsplit⟩ := List.append_of_mem he
    have hlater : e' ∈ back := by
      rw [hsplit] at he'
      rcases List.mem_append.mp he' with hin | hin
      · have hout : e.1 ∉ names front := by
          rw [hsplit, names, List.map_append, List.map_cons, List.nodup_append] at hnodup
          exact fun hin => hnodup.2.2 _ hin _ List.mem_cons_self rfl
        have hfront : names front <+: names q.packages := by
          rw [hsplit, names, names, List.map_append]
          exact List.prefix_append _ _
        exact absurd hlt (Nat.lt_asymm (idxOf_lt_of_front hfront (List.mem_map_of_mem hin) hout))
      · rcases List.mem_cons.mp hin with rfl | hin
        · exact absurd hlt (Nat.lt_irrefl _)
        · exact hin
    exact (keepsLast_lastOnly _).idxOf_lt (h.lastBefore hsystem hnodup hsplit hlater)
  refine ⟨fun hlt => ?_, hforward hn hm⟩
  rcases Nat.lt_trichotomy ((names q.packages).idxOf n) ((names q.packages).idxOf m)
    with hlt' | heq | hgt
  · exact hlt'
  · rw [(List.idxOf_inj hn).mp heq] at hlt
    exact absurd hlt (Nat.lt_irrefl _)
  · exact absurd hlt (Nat.lt_asymm (hforward hm hn hgt))

theorem search_find (q : Query) (text : String) (deep : Bool) :
    (q.find text deep).1.search = q.search := by
  unfold find
  dsimp only
  split <;> rfl

/-- **When libraries stand in the order that a linker needs.**  After a query that succeeds, where
    every package has a library of its own and requirements go in no circle, the answer for linking
    names every library once, and it names them before the libraries of all packages that theirs
    require, directly or not, if and only if the list of what was asked for is in the right order,
    and so are the requirements of every package, the private ones first. -/
theorem link_order_iff (s : Search) (text : String) (q : Query) (y : Logged Unit) (lib : String → String)
    (hsystem : s.site.windows = false) (hfind : ({ search := s } : Query).find text true = (q, y))
    (hok : y.outcome = .ok ()) (hown : q.OwnLibraries lib) (hacyclic : Acyclic (needs q.packages)) :
    (q.collect q.allLinkFlags).Nodup ∧
    (∀ n ∈ names q.packages, "-l" ++ lib n ∈ q.collect q.allLinkFlags) ∧
    ((∀ n ∈ names q.packages, ∀ m ∈ names q.packages, Reached (needs q.packages) (needs q.packages n) m →
        (q.collect q.allLinkFlags).idxOf ("-l" ++ lib n)
          < (q.collect q.allLinkFlags).idxOf ("-l" ++ lib m)) ↔
      Apart (needs q.packages) q.asked ∧
      ∀ e ∈ q.packages, Apart (needs q.packages) e.2.allRequires) := by
  obtain ⟨-, hloads⟩ := loads_of_find { search := s } text (by rw [hfind]; exact hok)
  have hsearch := search_find { search := s } text true
  rw [hfind] at hloads hsearch
  have hlinker : q.search.site.windows = false := by rw [hsearch]; exact hsystem
  have hnodup : (names q.packages).Nodup := hloads.nodup List.nodup_nil
  obtain ⟨met, hmet, -⟩ := hloads.exists_met
  have hkept := keepsLast_lastOnly (q.stated q.allLinkFlags)
  refine ⟨hkept.nodup, fun n hn => ?_, ?_⟩
  · obtain ⟨e, he, rfl⟩ := List.mem_map.mp hn
    exact (hkept.mem_iff _).mpr (List.mem_flatMap.mpr ⟨e, he, hown.mem_allLinkFlags hlinker he⟩)
  · have hleading : (∀ n ∈ names q.packages, ∀ m ∈ names q.packages,
        Reached (needs q.packages) (needs q.packages n) m →
        (names q.packages).idxOf n < (names q.packages).idxOf m) ↔
        ∀ n ∈ names q.packages, Leading (needs q.packages) (names q.packages) n := by
      constructor
      · intro h n hn r hr
        have hin : r.name ∈ names q.packages :=
          hmet.mem_iff_reached.mpr (.required (hmet.mem_iff_reached.mp hn) hr)
        exact h n hn r.name hin (.asked hr)
      · exact fun h n hn m _ hm => (hmet.idxOf_lt_of_reached h hn hm).2
    have hlists : (∀ e ∈ q.packages, Apart (needs q.packages) e.2.allRequires) ↔
        ∀ n ∈ names q.packages, Apart (needs q.packages) (needs q.packages n) := by
      constructor
      · intro h n hn
        obtain ⟨e, he, rfl⟩ := List.mem_map.mp hn
        rw [needs_of_mem hnodup he]
        exact h e he
      · intro h e he
        rw [← needs_of_mem hnodup he]
        exact h e.1 (List.mem_map_of_mem he)
    rw [hlists, ← hmet.leading_iff_apart hacyclic, ← hleading]
    exact forall₂_congr fun n hn => forall₂_congr fun m hm => imp_congr_right fun _ =>
      idxOf_flag_lt_iff hown hlinker hnodup hn hm

/-- Two packages that require the same others, of which one requires the other.  The first lists
    them in the right order, the second does not. -/
def bench : Search where
  site := { tree := {
    files := .ofList [("/pc/base.pc", "Version: 1\nLibs: -lbase\n"),
      ("/pc/tool.pc", "Version: 1\nRequires: base\nLibs: -ltool\n"),
      ("/pc/kit.pc", "Version: 1\nRequires: tool base\nLibs: -lkit\n"),
      ("/pc/box.pc", "Version: 1\nRequires: base tool\nLibs: -lbox\n")]
    dirs := ["/", "/pc"] } }
  known := .ofList [("base", ["/pc/base.pc"]), ("tool", ["/pc/tool.pc"]), ("kit", ["/pc/kit.pc"]),
    ("box", ["/pc/box.pc"])]

/-- What the packages of the bench require. -/
def benchNeeds : String → List String
  | "tool" => ["base"]
  | "kit" => ["tool", "base"]
  | "box" => ["base", "tool"]
  | _ => []

/-- How high the packages of the bench stand above each other. -/
def benchHeight (name : String) : Nat := ["base", "tool", "kit", "box"].idxOf name

/-- Packages of the bench require only lower ones. -/
theorem benchHeight_lt {name other : String} (h : other ∈ benchNeeds name) :
    benchHeight other < benchHeight name := by
  have htool : ∀ other ∈ ["base"], benchHeight other < benchHeight "tool" := by decide
  have hkit : ∀ other ∈ ["tool", "base"], benchHeight other < benchHeight "kit" := by decide
  have hbox : ∀ other ∈ ["base", "tool"], benchHeight other < benchHeight "box" := by decide
  unfold benchNeeds at h
  split at h
  · exact htool other h
  · exact hkit other h
  · exact hbox other h
  · cases h

/-- A package of the bench as it is loaded under its name. -/
structure OnBench (name : String) (p : Package) : Prop where
  load : (loadOne bench (.unbounded name)).outcome = .ok p
  requires : p.allRequires = (benchNeeds name).map .unbounded
  link : p.link = { libs := [name] }

theorem exists_onBench : ∀ name ∈ ["base", "tool", "kit", "box"], ∃ p, OnBench name p := by
  have hshown : ∀ name ∈ ["base", "tool", "kit", "box"],
      (loadOne bench (.unbounded name)).outcome.toOption.map (fun p => (p.allRequires, p.link)) =
        some ((benchNeeds name).map .unbounded, { libs := [name] }) := by decide +kernel
  intro name hname
  obtain ⟨p, hp, hview⟩ := exists_loadOne (hshown name hname)
  obtain ⟨hrequires, hlink⟩ := Prod.mk.inj hview
  exact ⟨p, hp, hrequires, hlink⟩

/-- A query on the bench has loaded packages of the bench only. -/
structure BenchQuery (q : Query) : Prop where
  search : q.search = bench
  packages : ∀ e ∈ q.packages, OnBench e.1 e.2

namespace BenchQuery

theorem stated (h : BenchQuery q) {e : String × Package} (he : e ∈ q.packages) :
    q.allLinkFlags e.2 = ["-l" ++ e.1] := by
  have hparts : q.linkParts e.2 = [{ libs := [e.1] }] := by
    rw [linkParts, h.search, (h.packages e he).link]
    rfl
  have hlinker : q.windowsLinker = false := windowsLinker_eq_false (by rw [h.search]; rfl)
  simp [allLinkFlags, otherLinkFlags, libPathFlags, libFlags, hparts, hlinker]

theorem collect_eq (h : BenchQuery q) :
    q.collect q.allLinkFlags = lastOnly ((names q.packages).map ("-l" ++ ·)) := by
  have hstated : q.stated q.allLinkFlags = (names q.packages).map ("-l" ++ ·) := by
    show q.packages.flatMap (fun e => q.allLinkFlags e.2) = _
    rw [List.flatMap_congr fun e he => h.stated he, names, List.map_map]
    exact List.flatMap_pure_eq_map _ _
  rw [collect, hstated]

theorem ownLibraries (h : BenchQuery q) : q.OwnLibraries id := by
  refine ⟨fun e he => ?_, fun e he e' he' hin => ?_⟩
  · rw [(h.packages e he).link]
    rfl
  · rw [h.stated he', List.mem_singleton] at hin
    exact ((String.append_right_inj _).mp hin).symm

/-- So do those that a query has loaded from it, which keeps them out of circles. -/
theorem height_lt (h : BenchQuery q) :
    ∀ n, ∀ r ∈ needs q.packages n, benchHeight r.name < benchHeight n := by
  intro n r hr
  obtain ⟨p, hp, hr⟩ : ∃ p, (n, p) ∈ q.packages ∧ r ∈ p.allRequires := by
    unfold needs loaded? at hr
    cases hlookup : q.packages.lookup n with
    | none =>
      rw [hlookup] at hr
      cases hr
    | some p =>
      rw [hlookup] at hr
      exact ⟨p, Table.mem_entries_of_lookup hlookup, hr⟩
  rw [(h.packages (n, p) hp).requires] at hr
  obtain ⟨other, hother, rfl⟩ := List.mem_map.mp hr
  exact benchHeight_lt hother

theorem acyclic (h : BenchQuery q) : Acyclic (needs q.packages) :=
  fun _ hn => Nat.lt_irrefl _ (hn.height_lt h.height_lt)

end BenchQuery

/-- A query that goes through some packages of the bench. -/
theorem exists_benchQuery (text : String) {asked : List Requirement} {packages : List (String × Package)}
    (hread : (bench.site.settings.readRequirements text).outcome = .ok asked) (hasked : asked ≠ [])
    (hpackages : ∀ e ∈ packages, OnBench e.1 e.2) (hloads : Loads bench [] asked packages) :
    ∃ q y, ({ search := bench } : Query).find text true = (q, y) ∧ y.outcome = .ok () ∧ BenchQuery q ∧
      q.packages = packages := by
  obtain ⟨hquery, hok⟩ := find_of_loads (q := { search := bench }) hread hasked hloads
  generalize ({ search := bench } : Query).find text true = result at hquery hok
  obtain ⟨q, y⟩ := result
  obtain rfl : q = _ := hquery
  exact ⟨_, y, rfl, hok, ⟨rfl, hpackages⟩, rfl⟩

/-- The query for the kit meets the tool before the base that it requires. -/
theorem find_kit :
    ∃ q y, ({ search := bench } : Query).find "kit" true = (q, y) ∧ y.outcome = .ok () ∧ BenchQuery q ∧
    names q.packages = ["kit", "tool", "base"] := by
  obtain ⟨base, hbase⟩ := exists_onBench "base" (by decide)
  obtain ⟨tool, htool⟩ := exists_onBench "tool" (by decide)
  obtain ⟨kit, hkit⟩ := exists_onBench "kit" (by decide)
  have hloads : Loads bench [] [.unbounded "kit"] [("kit", kit), ("tool", tool), ("base", base)] := by
    refine .load List.not_mem_nil hkit.load ?_
    rw [hkit.requires]
    refine .load (by simp [names, Requirement.unbounded]) htool.load ?_
    rw [htool.requires]
    refine .load (by simp [names, Requirement.unbounded]) hbase.load ?_
    rw [hbase.requires]
    exact .again (by simp [names, Requirement.unbounded]) .done
  obtain ⟨q, y, hfind, hok, hq, hpackages⟩ := exists_benchQuery "kit" (by decide +kernel)
    (List.cons_ne_nil _ _) (by simp [hkit, htool, hbase]) hloads
  exact ⟨q, y, hfind, hok, hq, by rw [hpackages]; rfl⟩

/-- The query for the box meets the base before the tool that requires it. -/
theorem find_box :
    ∃ q y, ({ search := bench } : Query).find "box" true = (q, y) ∧ y.outcome = .ok () ∧ BenchQuery q ∧
    names q.packages = ["box", "base", "tool"] ∧
    Reached (needs q.packages) (needs q.packages "tool") "base" := by
  obtain ⟨base, hbase⟩ := exists_onBench "base" (by decide)
  obtain ⟨tool, htool⟩ := exists_onBench "tool" (by decide)
  obtain ⟨box, hbox⟩ := exists_onBench "box" (by decide)
  have hloads : Loads bench [] [.unbounded "box"] [("box", box), ("base", base), ("tool", tool)] := by
    refine .load List.not_mem_nil hbox.load ?_
    rw [hbox.requires]
    refine .load (by simp [names, Requirement.unbounded]) hbase.load ?_
    rw [hbase.requires]
    refine .load (by simp [names, Requirement.unbounded]) htool.load ?_
    rw [htool.requires]
    exact .again (by simp [names, Requirement.unbounded]) .done
  obtain ⟨q, y, hfind, hok, hq, hpackages⟩ := exists_benchQuery "box" (by decide +kernel)
    (List.cons_ne_nil _ _) (by simp [hbox, htool, hbase]) hloads
  refine ⟨q, y, hfind, hok, hq, by rw [hpackages]; rfl, ?_⟩
  have hneeds : needs q.packages "tool" = [.unbounded "base"] := by
    rw [hpackages]
    exact htool.requires
  rw [hneeds]
  exact .asked (r := .unbounded "base") List.mem_cons_self

/-- A package that lists what it requires in the right order gets the libraries in the right order. -/
theorem link_order_iff_kit :
    ∃ q y, ({ search := bench } : Query).find "kit" true = (q, y) ∧ y.outcome = .ok () ∧
    q.OwnLibraries id ∧ Acyclic (needs q.packages) ∧ q.linkFlags = "-lkit -ltool -lbase" ∧
    Apart (needs q.packages) q.asked ∧ ∀ e ∈ q.packages, Apart (needs q.packages) e.2.allRequires := by
  obtain ⟨q, y, hfind, hok, hq, hnames⟩ := find_kit
  obtain ⟨-, -, hiff⟩ := link_order_iff bench "kit" q y id rfl hfind hok hq.ownLibraries hq.acyclic
  have hflags : q.collect q.allLinkFlags = ["-lkit", "-ltool", "-lbase"] := by
    rw [hq.collect_eq, hnames]
    decide +kernel
  refine ⟨q, y, hfind, hok, hq.ownLibraries, hq.acyclic, ?_, hiff.mp fun n hn m hm hreached => ?_⟩
  · rw [linkFlags, gather, hflags]
    decide +kernel
  · have hplaces : ∀ n ∈ ["kit", "tool", "base"], ∀ m ∈ ["kit", "tool", "base"],
        benchHeight m < benchHeight n →
        ["-lkit", "-ltool", "-lbase"].idxOf ("-l" ++ id n)
          < ["-lkit", "-ltool", "-lbase"].idxOf ("-l" ++ id m) := by
      decide +kernel
    rw [hnames] at hn hm
    rw [hflags]
    exact hplaces n hn m hm (hreached.height_lt hq.height_lt)

/-- A package that lists a library before another one that requires it gets them in this order. -/
theorem link_order_broken :
    ∃ q y, ({ search := bench } : Query).find "box" true = (q, y) ∧ y.outcome = .ok () ∧
    q.OwnLibraries id ∧ Acyclic (needs q.packages) ∧ "tool" ∈ names q.packages ∧
    "base" ∈ names q.packages ∧
    Reached (needs q.packages) (needs q.packages "tool") "base" ∧ q.linkFlags = "-lbox -lbase -ltool" ∧
    ¬ (q.collect q.allLinkFlags).idxOf ("-l" ++ id "tool") <
      (q.collect q.allLinkFlags).idxOf ("-l" ++ id "base") := by
  obtain ⟨q, y, hfind, hok, hq, hnames, hreached⟩ := find_box
  have hflags : q.collect q.allLinkFlags = ["-lbox", "-lbase", "-ltool"] := by
    rw [hq.collect_eq, hnames]
    decide +kernel
  refine ⟨q, y, hfind, hok, hq.ownLibraries, hq.acyclic, ?_, ?_, hreached, ?_, ?_⟩
  · rw [hnames]
    decide
  · rw [hnames]
    decide
  · rw [linkFlags, gather, hflags]
    decide +kernel
  · rw [hflags]
    decide +kernel

end Query

end BuildMeta.Pkg
