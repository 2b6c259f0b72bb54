import BuildMeta.Pkg.Query
import BuildMeta.Proofs.Pkg.Reading

/-!
# `Proofs.Pkg.Dependencies` — loading what packages require

Requirements may go in circles.  A run goes on in turns, of which there is no endless sequence
(`wellFounded_turn`).  A query that succeeds has gone through the requirements in
depth-first order (`DepthFirst`): it has loaded the names that can be reached and no others, each
with the best candidate for the requirement by which the name was met first.  What is required of
the name later on is not looked at.
-/

namespace BuildMeta.Pkg

/-! ## Depth-first order -/

section Graph

variable {needs : String → List Requirement}

/-- The names that requirements lead to, where `needs` says what a name requires. -/
inductive Reached (needs : String → List Requirement) (asked : List Requirement) : String → Prop
  | asked {r : Requirement} (h : r ∈ asked) : Reached needs asked r.name
  | required {n : String} {r : Requirement} (h : Reached needs asked n) (hr : r ∈ needs n) :
      Reached needs asked r.name

theorem Reached.trans {asked asked' : List Requirement} {n : String} (h : Reached needs asked n)
    (hasked : ∀ r ∈ asked, Reached needs asked' r.name) : Reached needs asked' n := by
  induction h with
  | asked hr => exact hasked _ hr
  | required _ hr ih => exact .required ih hr

/-- Going through requirements in depth-first order.  `met` lists all requirements in the order in
    which they are met: what a name requires is met when the name is met for the first time, right
    after it.  `seen` and `seen'` list the names met before and after, in the order in which they
    were met first. -/
inductive DepthFirst (needs : String → List Requirement) :
    (seen : List String) → (waiting met : List Requirement) → (seen' : List String) → Prop
  | done {seen} : DepthFirst needs seen [] [] seen
  | again {seen r waiting met seen'} (hseen : r.name ∈ seen)
      (hrest : DepthFirst needs seen waiting met seen') :
      DepthFirst needs seen (r :: waiting) (r :: met) seen'
  | first {seen r waiting inner met seen₁ seen'} (hnew : r.name ∉ seen)
      (hinner : DepthFirst needs (seen ++ [r.name]) (needs r.name) inner seen₁)
      (hrest : DepthFirst needs seen₁ waiting met seen') :
      DepthFirst needs seen (r :: waiting) (r :: (inner ++ met)) seen'

namespace DepthFirst

variable {seen seen' : List String} {waiting met : List Requirement}

/-- There is one depth-first order only. -/
theorem unique {met' : List Requirement} {seen'' : List String}
    (h : DepthFirst needs seen waiting met seen') (h' : DepthFirst needs seen waiting met' seen'') :
    met = met' ∧ seen' = seen'' := by
  induction h generalizing met' seen'' with
  | done =>
    cases h'
    exact ⟨rfl, rfl⟩
  | again hseen _ ih =>
    cases h' with
    | again _ hrest' =>
      obtain ⟨rfl, rfl⟩ := ih hrest'
      exact ⟨rfl, rfl⟩
    | first hnew => exact absurd hseen hnew
  | first hnew _ _ ihinner ih =>
    cases h' with
    | again hseen => exact absurd hseen hnew
    | first _ hinner' hrest' =>
      obtain ⟨rfl, rfl⟩ := ihinner hinner'
      obtain ⟨rfl, rfl⟩ := ih hrest'
      exact ⟨rfl, rfl⟩

/-- The names seen afterwards are those seen before and those that are met. -/
theorem mem_seen_iff (h : DepthFirst needs seen waiting met seen') {n : String} :
    n ∈ seen' ↔ n ∈ seen ∨ n ∈ met.map (·.name) := by
  induction h with
  | done => simp
  | again hseen _ ih =>
    rw [ih, List.map_cons, List.mem_cons]
    constructor
    · exact Or.imp_right Or.inr
    · rintro (h | rfl | h)
      · exact Or.inl h
      · exact Or.inl hseen
      · exact Or.inr h
  | first _ _ _ ihinner ih =>
    rw [ih, ihinner, List.mem_append, List.mem_singleton, List.map_cons, List.mem_cons, List.map_append,
      List.mem_append, or_assoc, or_assoc]

/-- A walk meets all requirements that were waiting. -/
theorem mem_met (h : DepthFirst needs seen waiting met seen') {r : Requirement} (hr : r ∈ waiting) :
    r ∈ met := by
  induction h with
  | done => cases hr
  | again _ _ ih =>
    rcases List.mem_cons.mp hr with rfl | hr
    · exact List.mem_cons_self
    · exact List.mem_cons_of_mem _ (ih hr)
  | first _ _ _ _ ih =>
    rcases List.mem_cons.mp hr with rfl | hr
    · exact List.mem_cons_self
    · exact List.mem_cons_of_mem _ (List.mem_append_right _ (ih hr))

/-- What a new name requires is met. -/
theorem needs_met (h : DepthFirst needs seen waiting met seen') {n : String} (hn : n ∈ seen')
    (hnew : n ∉ seen) {r : Requirement} (hr : r ∈ needs n) : r ∈ met := by
  induction h with
  | done => exact absurd hn hnew
  | again _ _ ih => exact List.mem_cons_of_mem _ (ih hn hnew)
  | @first seen r' waiting inner met seen₁ seen' _ hinner hrest ihinner ih =>
    refine List.mem_cons_of_mem _ (List.mem_append.mpr ?_)
    by_cases hin : n ∈ seen₁
    · by_cases hself : n = r'.name
      · subst hself
        exact Or.inl (hinner.mem_met hr)
      · refine Or.inl (ihinner hin ?_)
        simp [hnew, hself]
    · exact Or.inr (ih hn hin)

theorem subset_seen (h : DepthFirst needs seen waiting met seen') {n : String} (hn : n ∈ seen) :
    n ∈ seen' :=
  h.mem_seen_iff.mpr (Or.inl hn)

/-- What is met is asked for, or required by a new name. -/
theorem of_met (h : DepthFirst needs seen waiting met seen') {r : Requirement} (hr : r ∈ met) :
    r ∈ waiting ∨ ∃ n ∈ seen', r ∈ needs n := by
  induction h with
  | done => cases hr
  | again _ _ ih =>
    rcases List.mem_cons.mp hr with rfl | hr
    · exact Or.inl List.mem_cons_self
    · exact (ih hr).imp_left (List.mem_cons_of_mem _)
  | first _ hinner hrest ihinner ih =>
    rcases List.mem_cons.mp hr with rfl | hr
    · exact Or.inl List.mem_cons_self
    rcases List.mem_append.mp hr with hr | hr
    · rcases ihinner hr with hr | ⟨n, hn, hr⟩
      · exact Or.inr ⟨_, hrest.subset_seen (hinner.subset_seen (by simp)), hr⟩
      · exact Or.inr ⟨n, hrest.subset_seen hn, hr⟩
    · exact (ih hr).imp_left (List.mem_cons_of_mem _)

/-- A walk meets nothing but what the waiting requirements lead to. -/
theorem reached_of_met (h : DepthFirst needs seen waiting met seen') {r : Requirement} (hr : r ∈ met) :
    Reached needs waiting r.name := by
  induction h with
  | done => cases hr
  | again _ _ ih =>
    rcases List.mem_cons.mp hr with rfl | hr
    · exact .asked List.mem_cons_self
    · exact (ih hr).trans fun q hq => .asked (List.mem_cons_of_mem _ hq)
  | first _ _ _ ihinner ih =>
    rcases List.mem_cons.mp hr with rfl | hr
    · exact .asked List.mem_cons_self
    rcases List.mem_append.mp hr with hr | hr
    · exact (ihinner hr).trans fun q hq => .required (.asked List.mem_cons_self) hq
    · exact (ih hr).trans fun q hq => .asked (List.mem_cons_of_mem _ hq)

/-- **The names that are met are those that can be reached.** -/
theorem mem_iff_reached {asked : List Requirement} (h : DepthFirst needs [] asked met seen')
    {n : String} :
    n ∈ seen' ↔ Reached needs asked n := by
  have hmet : ∀ {r : Requirement}, r ∈ met → r.name ∈ seen' := fun hr =>
    h.mem_seen_iff.mpr (Or.inr (List.mem_map_of_mem hr))
  constructor
  · intro hn
    rcases h.mem_seen_iff.mp hn with hn | hn
    · cases hn
    · obtain ⟨r, hr, rfl⟩ := List.mem_map.mp hn
      exact h.reached_of_met hr
  · intro hn
    induction hn with
    | asked hr => exact hmet (h.mem_met hr)
    | required _ hr ih => exact hmet (h.needs_met ih List.not_mem_nil hr)

end DepthFirst

end Graph

/-! ## Runs -/

namespace Query

/-- The names under which packages are loaded. -/
def names (packages : List (String × Package)) : List String := packages.map Prod.fst

/-- What the package loaded under a name requires. -/
def needs (packages : List (String × Package)) (name : String) : List Requirement :=
  ((loaded? packages name).map (·.allRequires)).getD []

/-- What a run that succeeds does: a name that is loaded is passed over, and any other is loaded
    before the requirements of its package. -/
inductive Loads (s : Search) :
    (packages : List (String × Package)) → (waiting : List Requirement) →
    (packages' : List (String × Package)) → Prop
  | done {packages} : Loads s packages [] packages
  | again {packages r waiting packages'} (hloaded : r.name ∈ names packages)
      (hrest : Loads s packages waiting packages') : Loads s packages (r :: waiting) packages'
  | load {packages r p waiting packages'} (hnew : r.name ∉ names packages)
      (hp : (loadOne s r).outcome = .ok p)
      (hrest : Loads s (packages ++ [(r.name, p)]) (p.allRequires ++ waiting) packages') :
      Loads s packages (r :: waiting) packages'

variable {s : Search} {packages packages' : List (String × Package)} {waiting : List Requirement}

theorem isSome_loaded?_iff {name : String} :
    (loaded? packages name).isSome = true ↔ name ∈ names packages := by
  unfold loaded? names
  rw [List.lookup_isSome_iff, List.mem_map]
  exact exists_congr fun e => and_congr_right fun _ => beq_iff_eq.trans eq_comm

/-- A query that succeeds has loaded packages in the way of the specification. -/
theorem loads_of_loadFrom (h : (loadFrom s true packages waiting).2.outcome = .ok ()) :
    Loads s packages waiting (loadFrom s true packages waiting).1 := by
  fun_induction loadFrom s true packages waiting with
  | case1 packages => exact .done
  | case2 packages r waiting hloaded ih => exact .again (isSome_loaded?_iff.mp hloaded) (ih h)
  | case3 packages r waiting hnew x e hp => cases h
  | case4 packages r waiting hnew x p hp next packages' y hrest ih =>
    rw [hrest] at ih
    exact .load (fun hin => hnew (isSome_loaded?_iff.mpr hin)) hp (ih h)

theorem names_append (packages : List (String × Package)) (name : String) (p : Package) :
    names (packages ++ [(name, p)]) = names packages ++ [name] :=
  List.map_append

/-- What is added to some packages is loaded for the requirement by which its name is met first. -/
def LoadedFirst (s : Search) (packages : List (String × Package)) (met : List Requirement)
    (packages' : List (String × Package)) : Prop :=
  ∀ n p, (n, p) ∈ packages' → (n, p) ∈ packages ∨
    n ∉ names packages ∧ ∃ r, met.find? (·.name == n) = some r ∧ (loadOne s r).outcome = .ok p

/-- A requirement of a name that is loaded does not count. -/
theorem LoadedFirst.again {met : List Requirement} {r : Requirement}
    (h : LoadedFirst s packages met packages') (hloaded : r.name ∈ names packages) :
    LoadedFirst s packages (r :: met) packages' := by
  intro n p hp
  refine (h n p hp).imp_right ?_
  rintro ⟨hnew, q, hfind, hload⟩
  refine ⟨hnew, q, ?_, hload⟩
  rwa [List.find?_cons_of_neg (by simpa using ne_of_mem_of_not_mem hloaded hnew)]

/-- A requirement of a new name counts before those met after it. -/
theorem LoadedFirst.first {inner met : List Requirement} {r : Requirement} {p : Package}
    {between : List (String × Package)}
    (hinner : LoadedFirst s (packages ++ [(r.name, p)]) inner between)
    (hnew : r.name ∉ names packages) (hp : (loadOne s r).outcome = .ok p)
    (hseen : ∀ n, n ∈ names (packages ++ [(r.name, p)]) ∨ n ∈ inner.map (·.name) →
      n ∈ names between)
    (hrest : LoadedFirst s between met packages') :
    LoadedFirst s packages (r :: (inner ++ met)) packages' := by
  rw [names_append] at hseen
  intro n q hq
  rcases hrest n q hq with hq | ⟨hlater, r', hfind, hload⟩
  · rcases hinner n q hq with hq | ⟨hlater, r', hfind, hload⟩
    · rcases List.mem_append.mp hq with hq | hq
      · exact Or.inl hq
      · obtain ⟨rfl, rfl⟩ := Prod.mk.inj (List.mem_singleton.mp hq)
        exact Or.inr ⟨hnew, r, List.find?_cons_of_pos (by simp), hp⟩
    · rw [names_append, List.mem_append, List.mem_singleton, not_or] at hlater
      refine Or.inr ⟨hlater.1, r', ?_, hload⟩
      rw [List.find?_cons_of_neg (by simpa using Ne.symm hlater.2), List.find?_append, hfind]
      rfl
  · -- A name that is met later is none of those met within.
    have hnone : (r :: inner).find? (·.name == n) = none := by
      rw [List.find?_eq_none]
      intro m hm hname
      rw [beq_iff_eq] at hname
      subst hname
      refine hlater (hseen _ ?_)
      rcases List.mem_cons.mp hm with rfl | hm
      · exact Or.inl (by simp)
      · exact Or.inr (List.mem_map_of_mem hm)
    refine Or.inr ⟨fun hin => hlater (hseen n (Or.inl (List.mem_append_left _ hin))), r', ?_, hload⟩
    rw [← List.cons_append, List.find?_append, hnone, hfind]
    rfl

namespace Loads

/-- A run goes through the first requirements before the others. -/
theorem append {xs ys : List Requirement} (h : Loads s packages (xs ++ ys) packages') :
    ∃ between, Loads s packages xs between ∧ Loads s between ys packages' := by
  generalize hwaiting : xs ++ ys = waiting at h
  induction h generalizing xs with
  | done =>
    obtain ⟨rfl, rfl⟩ := List.append_eq_nil_iff.mp hwaiting
    exact ⟨_, .done, .done⟩
  | again hloaded hrest ih =>
    cases xs with
    | nil =>
      obtain rfl := hwaiting
      exact ⟨_, .done, .again hloaded hrest⟩
    | cons x xs =>
      obtain ⟨rfl, rfl⟩ := List.cons.inj hwaiting
      obtain ⟨between, hxs, hys⟩ := ih rfl
      exact ⟨between, .again hloaded hxs, hys⟩
  | load hnew hp hrest ih =>
    cases xs with
    | nil =>
      obtain rfl := hwaiting
      exact ⟨_, .done, .load hnew hp hrest⟩
    | cons x xs =>
      obtain ⟨rfl, rfl⟩ := List.cons.inj hwaiting
      obtain ⟨between, hxs, hys⟩ := ih (List.append_assoc _ _ _)
      exact ⟨between, .load hnew hp hxs, hys⟩

/-- What is loaded stays loaded. -/
theorem isPrefix (h : Loads s packages waiting packages') : packages <+: packages' := by
  induction h with
  | done => exact List.prefix_rfl
  | again _ _ ih => exact ih
  | load _ _ _ ih => exact (List.prefix_append _ _).trans ih

/-- No name is loaded twice. -/
theorem nodup (h : Loads s packages waiting packages') (hnodup : (names packages).Nodup) :
    (names packages').Nodup := by
  induction h with
  | done => exact hnodup
  | again _ _ ih => exact ih hnodup
  | load hnew _ _ ih =>
    refine ih ?_
    rw [names_append, List.nodup_append]
    refine ⟨hnodup, by simp, ?_⟩
    rintro m hm n hn rfl
    exact hnew (List.mem_singleton.mp hn ▸ hm)

/-- **A run goes through the requirements in depth-first order**, and what it adds under a name is
    loaded for the requirement by which the name is met first. -/
theorem depthFirst {needs : String → List Requirement} (h : Loads s packages waiting packages')
    (hneeds : ∀ n p, (n, p) ∈ packages' → needs n = p.allRequires) :
    ∃ met, DepthFirst needs (names packages) waiting met (names packages') ∧
      LoadedFirst s packages met packages' := by
  -- The induction is on the number of packages that are added, and then on the requirements.
  obtain ⟨count, hcount⟩ : ∃ count, packages'.length ≤ packages.length + count :=
    ⟨packages'.length, by omega⟩
  induction count using Nat.strongRecOn generalizing packages waiting packages' with
  | ind count ihcount =>
    induction waiting with
    | nil =>
      cases h
      exact ⟨[], .done, fun n p hp => Or.inl hp⟩
    | cons r waiting ih =>
      cases h with
      | again hloaded hrest =>
        obtain ⟨met, hmet, hfirst⟩ := ih hrest
        exact ⟨r :: met, .again hloaded hmet, hfirst.again hloaded⟩
      | @load _ _ p _ _ hnew hp hrest =>
        obtain ⟨between, hinner, hrest⟩ := hrest.append
        have hlen := hinner.isPrefix.length_le
        have hlen' := hrest.isPrefix.length_le
        rw [List.length_append, List.length_singleton] at hlen
        obtain ⟨inner, hinnerMet, hinnerFirst⟩ := ihcount (count - 1) (by omega) hinner
          (fun n q hq => hneeds n q (hrest.isPrefix.subset hq))
          (by rw [List.length_append, List.length_singleton]; omega)
        obtain ⟨met, hmet, hfirst⟩ := ihcount (count - 1) (by omega) hrest hneeds (by omega)
        have hself : (r.name, p) ∈ packages' := hrest.isPrefix.subset (hinner.isPrefix.subset (by simp))
        refine ⟨r :: (inner ++ met), .first hnew ?_ hmet, hinnerFirst.first hnew hp ?_ hfirst⟩
        · rwa [hneeds r.name p hself, ← names_append]
        · exact fun n => hinnerMet.mem_seen_iff.mpr

end Loads

/-! ## Turns -/

/-- One turn of a run, from the packages loaded and the requirements waiting to those after it. -/
inductive Turn (s : Search) (deep : Bool) :
    List (String × Package) × List Requirement → List (String × Package) × List Requirement → Prop
  | again {packages r waiting} (hloaded : r.name ∈ names packages) :
      Turn s deep (packages, r :: waiting) (packages, waiting)
  | load {packages r p waiting} (hnew : r.name ∉ names packages) (hp : (loadOne s r).outcome = .ok p) :
      Turn s deep (packages, r :: waiting)
        (packages ++ [(r.name, p)], if deep then p.allRequires ++ waiting else waiting)

/-- **Every run ends**, also where requirements go in circles. -/
theorem wellFounded_turn (s : Search) (deep : Bool) :
    WellFounded fun after before => Turn s deep before after := by
  refine Subrelation.wf (r := InvImage (Prod.Lex Nat.lt Nat.lt)
    fun state => (remaining s state.1 state.2, state.2.length)) ?_ (InvImage.wf _ (Prod.lex _ _).wf)
  intro after before h
  cases h with
  | again => exact .right' _ remaining_again (Nat.lt_succ_self _)
  | load hnew hp =>
    exact .left _ _ (remaining_load (fun hin => hnew (isSome_loaded?_iff.mp hin)) hp deep)

/-- What a run delivers is settled by the rest of it after any turn. -/
theorem loadFrom_turn {deep : Bool} {before after : List (String × Package) × List Requirement}
    (h : Turn s deep before after) :
    (loadFrom s deep before.1 before.2).1 = (loadFrom s deep after.1 after.2).1 ∧
      (loadFrom s deep before.1 before.2).2.outcome = (loadFrom s deep after.1 after.2).2.outcome := by
  cases h with
  | again hloaded =>
    rw [loadFrom, if_pos (isSome_loaded?_iff.mpr hloaded)]
    exact ⟨rfl, rfl⟩
  | @load packages r p waiting hnew hp =>
    dsimp only
    rw [loadFrom, if_neg fun hloaded => hnew (isSome_loaded?_iff.mp hloaded)]
    dsimp only
    split
    · next e he => cases hp.symm.trans he
    · next q hq =>
      obtain rfl := Except.ok.inj (hp.symm.trans hq)
      exact ⟨rfl, rfl⟩

/-- The specification determines the query: it succeeds, with these packages. -/
theorem loadFrom_of_loads (h : Loads s packages waiting packages') :
    (loadFrom s true packages waiting).1 = packages' ∧
    (loadFrom s true packages waiting).2.outcome = .ok () := by
  induction h with
  | done =>
    rw [loadFrom]
    exact ⟨rfl, rfl⟩
  | @again packages r waiting packages' hloaded _ ih =>
    obtain ⟨hpackages, houtcome⟩ :=
      loadFrom_turn (.again hloaded : Turn s true (packages, r :: waiting) _)
    exact ⟨hpackages.trans ih.1, houtcome.trans ih.2⟩
  | @load packages r p waiting packages' hnew hp _ ih =>
    obtain ⟨hpackages, houtcome⟩ :=
      loadFrom_turn (.load hnew hp : Turn s true (packages, r :: waiting) _)
    exact ⟨hpackages.trans ih.1, houtcome.trans ih.2⟩

/-! ## Queries -/

/-- A query that succeeds has read its requirements and loaded them. -/
theorem loads_of_find (q : Query) (text : String) (h : (q.find text true).2.outcome = .ok ()) :
    (q.search.site.settings.readRequirements text).outcome = .ok (q.find text true).1.asked ∧
      Loads q.search q.packages (q.find text true).1.asked (q.find text true).1.packages := by
  unfold find at h ⊢
  dsimp only at h ⊢
  cases hread : (q.search.site.settings.readRequirements text).outcome with
  | error e =>
    rw [hread] at h
    cases h
  | ok asked =>
    rw [hread] at h
    cases asked with
    | nil => cases h
    | cons r asked => exact ⟨rfl, loads_of_loadFrom h⟩

/-- A query loads what a run loads. -/
theorem find_of_loads {q : Query} {text : String} {asked : List Requirement}
    (hread : (q.search.site.settings.readRequirements text).outcome = .ok asked) (hasked : asked ≠ [])
    (h : Loads q.search q.packages asked packages) :
    (q.find text true).1 = { q with packages, asked } ∧ (q.find text true).2.outcome = .ok () := by
  obtain ⟨rfl, hok⟩ := loadFrom_of_loads h
  obtain ⟨r, rest, rfl⟩ := List.exists_cons_of_ne_nil hasked
  unfold find
  dsimp only
  rw [hread]
  exact ⟨rfl, hok⟩

theorem needs_of_mem (hnodup : (names packages).Nodup) {n : String} {p : Package}
    (hp : (n, p) ∈ packages) :
    needs packages n = p.allRequires := by
  rw [needs, loaded?, Table.lookup_of_mem_entries hnodup hp]
  rfl

/-- The requirement by which a name is met first, in depth-first order. -/
def FirstMet (asked : List Requirement) (packages : List (String × Package)) (name : String)
    (r : Requirement) :
    Prop :=
  ∃ met seen, DepthFirst (needs packages) [] asked met seen ∧ met.find? (·.name == name) = some r

/-- A run from nothing goes through the requirements of what it loads, and loads the best candidate
    for the requirement by which a name is met first. -/
theorem Loads.exists_met {asked : List Requirement} (h : Loads s [] asked packages) :
    ∃ met, DepthFirst (needs packages) [] asked met (names packages) ∧
      ∀ n p, (n, p) ∈ packages → ∃ r, met.find? (·.name == n) = some r ∧ s.Best r p := by
  have hnodup : (names packages).Nodup := h.nodup List.nodup_nil
  obtain ⟨met, hmet, hfirst⟩ := h.depthFirst fun n p hp => needs_of_mem hnodup hp
  refine ⟨met, hmet, fun n p hp => ?_⟩
  rcases hfirst n p hp with hnone | ⟨-, r, hr, hload⟩
  · cases hnone
  · exact ⟨r, hr, (best_of_loadOne hload).1⟩

/-- **Queries end and are exact.**  A run goes on in turns that leave its result as it is, and they
    cannot go on for ever, whatever files there are.  If a query succeeds, the names that it has
    loaded are distinct, and they are the names that can be reached from what was asked for.  Every
    name holds the package of the best candidate for the requirement by which the name is met
    first. -/
theorem find_exact (s : Search) :
    (∀ deep, (WellFounded fun after before => Turn s deep before after) ∧
      ∀ before after, Turn s deep before after →
        (loadFrom s deep before.1 before.2).1 = (loadFrom s deep after.1 after.2).1 ∧
        (loadFrom s deep before.1 before.2).2.outcome = (loadFrom s deep after.1 after.2).2.outcome) ∧
    ∀ text q y, ({ search := s } : Query).find text true = (q, y) → y.outcome = .ok () →
      (s.site.settings.readRequirements text).outcome = .ok q.asked ∧ (names q.packages).Nodup ∧
      (∀ n, n ∈ names q.packages ↔ Reached (needs q.packages) q.asked n) ∧
      ∀ n p, (n, p) ∈ q.packages → needs q.packages n = p.allRequires ∧
      (∀ r ∈ p.requires, r ∈ p.allRequires) ∧
        (∃ r, FirstMet q.asked q.packages n r) ∧ ∀ r, FirstMet q.asked q.packages n r → s.Best r p := by
  refine ⟨fun deep => ⟨wellFounded_turn s deep, fun _ _ => loadFrom_turn⟩, fun text q y hfind hok => ?_⟩
  obtain ⟨hread, hloads⟩ := loads_of_find { search := s } text (by rw [hfind]; exact hok)
  rw [hfind] at hread hloads
  have hnodup : (names q.packages).Nodup := hloads.nodup List.nodup_nil
  obtain ⟨met, hmet, hbest⟩ := hloads.exists_met
  refine ⟨hread, hnodup, fun n => hmet.mem_iff_reached, fun n p hp => ?_⟩
  obtain ⟨r, hr, hchosen⟩ := hbest n p hp
  obtain ⟨_, path, _, _, _, hload, _⟩ := id hchosen
  refine ⟨needs_of_mem hnodup hp, Package.requires_subset hload, ⟨r, met, _, hmet, hr⟩, ?_⟩
  rintro r' ⟨met', seen, hmet', hr'⟩
  obtain ⟨rfl, -⟩ := hmet.unique hmet'
  obtain rfl := Option.some.inj (hr.symm.trans hr')
  exact hchosen

/-- Two packages that require each other.  Of the two files for the second the one found first is
    too old. -/
def ring : Search where
  site := { tree := {
    files := .ofList [("/pc/a.pc", "Version: 1\nRequires: b >= 2\n"), ("/pc/b.pc", "Version: 1\n"),
      ("/more/b.pc", "Version: 3\nRequires.private: a\n")]
    dirs := ["/", "/pc", "/more"] } }
  known := .ofList [("a", ["/pc/a.pc"]), ("b", ["/pc/b.pc", "/more/b.pc"])]

/-- What is loaded, seen through a view that can be computed. -/
theorem exists_loadOne {α : Type} {r : Requirement} {view : Package → α} {shown : α}
    (h : (loadOne s r).outcome.toOption.map view = some shown) :
    ∃ p, (loadOne s r).outcome = .ok p ∧ view p = shown := by
  cases hload : (loadOne s r).outcome with
  | error e =>
    rw [hload] at h
    cases h
  | ok p =>
    rw [hload] at h
    exact ⟨p, rfl, Option.some.inj h⟩

/-- Both packages of the ring are loaded, each by the requirement that is met first. -/
theorem loads_ring : ∃ a b, Loads ring [] [.unbounded "a", .unbounded "b"] [("a", a), ("b", b)] := by
  obtain ⟨a, ha, hneeds⟩ : ∃ a, (loadOne ring (.unbounded "a")).outcome = .ok a ∧
      a.allRequires = [⟨"b", .greaterOrEqual, .parse "2"⟩] := exists_loadOne (by decide +kernel)
  obtain ⟨b, hb, hneeds'⟩ : ∃ b, (loadOne ring ⟨"b", .greaterOrEqual, .parse "2"⟩).outcome = .ok b ∧
      b.allRequires = [.unbounded "a"] := exists_loadOne (by decide +kernel)
  refine ⟨a, b, .load List.not_mem_nil ha ?_⟩
  rw [hneeds]
  refine .load (by simp [names, Requirement.unbounded]) hb ?_
  rw [hneeds']
  exact .again (by simp [names]) (.again (by simp [names, Requirement.unbounded]) .done)

/-- A ring of requirements comes to an end, with each package once. -/
theorem find_exact_ring :
    ∃ q y, ({ search := ring } : Query).find "a b" true = (q, y) ∧ y.outcome = .ok () ∧
    names q.packages = ["a", "b"] ∧ ∀ n, n ∈ names q.packages ↔
    Reached (needs q.packages) q.asked n := by
  obtain ⟨a, b, hloads⟩ := loads_ring
  have hread : (ring.site.settings.readRequirements "a b").outcome
      = .ok [.unbounded "a", .unbounded "b"] := by
    decide +kernel
  obtain ⟨hquery, hok⟩ := find_of_loads (q := { search := ring }) hread (List.cons_ne_nil _ _) hloads
  generalize hfind : ({ search := ring } : Query).find "a b" true = result at hquery hok
  obtain ⟨q, y⟩ := result
  obtain ⟨-, -, hreached, -⟩ := (find_exact ring).2 "a b" q y hfind hok
  exact ⟨q, y, rfl, hok, by rw [show q = _ from hquery]; rfl, hreached⟩

end Query

end BuildMeta.Pkg
