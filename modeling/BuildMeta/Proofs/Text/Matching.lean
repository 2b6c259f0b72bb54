import BuildMeta.Text.Pattern.Match
import Mathlib.Data.List.Basic
import Mathlib.Data.Nat.Find

/-!
# `Proofs.Text.Matching` — where the matches of a pattern end

The matcher lists all places at which a match can end, the preferred one first.

* `ends_rel` — what is said of all ends at once: a relation between places that every move keeps
  holds between the place where a match begins and each place where it ends;
* `isSome_lookup_of_mem_ends` — a group that a pattern cannot go around has matched at every end;
* `Leads` — the preferred end, with its rules for characters, groups and sequences;
* `leads_greedy` — after a greedy repetition of a character set the longest run is preferred that
  lets the rest of the pattern match.
-/

namespace BuildMeta.Text.Pattern

variable {size : Nat} {text : Array Char} {exact : Bool} {p q : Pattern} {x y z : Place}
  {places : List Place} {set : CharSet} {n : Nat}

/-! ## Places that were reached before -/

/-- Visiting places finds some of them, and keeps what was found before. -/
theorem found_foldl_visit (places : List Place) (v : Visited) :
    ∃ new, (places.foldl Visited.visit v).found = new ++ v.found ∧ ∀ y ∈ new, y ∈ places := by
  induction places generalizing v with
  | nil => exact ⟨[], rfl, by simp⟩
  | cons x rest ih =>
    obtain ⟨new, hfound, hnew⟩ := ih (v.visit x)
    rw [List.foldl_cons, hfound, Visited.visit]
    split
    · exact ⟨new, rfl, fun y hy => List.mem_cons_of_mem _ (hnew y hy)⟩
    · refine ⟨new ++ [x], by simp, ?_⟩
      intro y hy
      rcases List.mem_append.mp hy with hy | hy
      · exact List.mem_cons_of_mem _ (hnew y hy)
      · exact List.mem_singleton.mp hy ▸ List.mem_cons_self

theorem mem_of_mem_distinct (h : y ∈ distinct size places) : y ∈ places := by
  unfold distinct at h
  split at h
  · exact h
  · exact h
  · obtain ⟨new, hfound, hnew⟩ := found_foldl_visit places { seen := Array.replicate (size + 1) false }
    rw [hfound, List.append_nil, List.mem_reverse] at h
    exact hnew y h

/-- The places that a pattern goes on with, with or without repetitions. -/
theorem mem_of_mem_settle (h : y ∈ if exact then places else distinct size places) : y ∈ places := by
  split at h
  · exact h
  · exact mem_of_mem_distinct h

/-- The preferred place stays the preferred one. -/
theorem head?_distinct (h : places.head? = some x) (hx : x.pos ≤ size) :
    (distinct size places).head? = some x := by
  unfold distinct
  split
  · exact h
  · exact h
  · obtain ⟨rest, rfl⟩ := List.head?_eq_some_iff.mp h
    have hfresh : (Array.replicate (size + 1) false)[x.pos]? = some false := by
      rw [Array.getElem?_replicate, if_pos (by omega)]
    obtain ⟨new, hfound, -⟩ := found_foldl_visit rest
      (Visited.visit { seen := Array.replicate (size + 1) false } x)
    rw [List.foldl_cons, hfound, Visited.visit, hfresh]
    simp

/-- Places that all have positions of their own are all kept. -/
theorem distinct_eq_self (hpos : places.Pairwise fun a b => a.pos ≠ b.pos)
    (hle : ∀ y ∈ places, y.pos ≤ size) :
    distinct size places = places := by
  have hall : ∀ (places : List Place) (v : Visited), places.Pairwise (fun a b => a.pos ≠ b.pos) →
      (∀ y ∈ places, v.seen[y.pos]? = some false) →
      (places.foldl Visited.visit v).found = places.reverse ++ v.found := by
    intro places
    induction places with
    | nil => simp
    | cons x rest ih =>
      intro v hpos hfresh
      obtain ⟨hx, hrest⟩ := List.pairwise_cons.mp hpos
      have hvisit : v.visit x = { seen := v.seen.setIfInBounds x.pos true, found := x :: v.found } := by
        simp [Visited.visit, hfresh x List.mem_cons_self]
      rw [List.foldl_cons, hvisit, ih _ hrest]
      · simp
      · intro y hy
        show (v.seen.setIfInBounds x.pos true)[y.pos]? = some false
        rw [Array.getElem?_setIfInBounds_ne (hx y hy)]
        exact hfresh y (List.mem_cons_of_mem _ hy)
  unfold distinct
  split
  · rfl
  · rfl
  · rw [hall places _ hpos]
    · simp
    · intro y hy
      have hlt := hle y hy
      show (Array.replicate (size + 1) false)[y.pos]? = some false
      rw [Array.getElem?_replicate, if_pos (by omega)]

/-! ## All ends -/

/-- A relation between places that holds however a match moves on in a text. -/
structure Kept (text : Array Char) (R : Place → Place → Prop) : Prop where
  refl : ∀ x, R x x
  trans : ∀ {x y z}, R x y → R y z → R x z
  move : ∀ x pos, pos ≤ text.size → R x { x with pos }

/-- The numbers of the groups of a pattern. -/
def numbers : Pattern → List Nat
  | empty | one _ | anchor _ | again _ _ => []
  | seq p q | either p q | given _ p q => p.numbers ++ q.numbers
  | loop _ _ _ p | atomic p | ahead _ p | behind _ _ p => p.numbers
  | group n p => n :: p.numbers

section Repeats

variable {step : Place → List Place} {low : Nat} {high : Option Nat} {short : Bool} {fuel count : Nat}
  {last : Option Nat} {others : List Place}

/-- The places after one more match: those to which the repetition goes on from each of them. -/
def following (step : Place → List Place) (low : Nat) (high : Option Nat) (short : Bool)
    (fuel count : Nat) (last : Option Nat) (places others : List Place) : List Place :=
  places.foldr (fun y others => repeats step low high short fuel count last y others) others

/-- What a repetition can do: it has to go on, it has to end here, or it may end here, before or
    after the places that follow. -/
theorem repeats_cases (step : Place → List Place) (low : Nat) (high : Option Nat) (short : Bool)
    (fuel count : Nat) (last : Option Nat) (x : Place) (others : List Place) :
    count < low ∧ repeats step low high short (fuel + 1) count last x others =
      following step low high short fuel (count + 1) last (step x) others ∨
    low ≤ count ∧ (repeats step low high short (fuel + 1) count last x others = x :: others ∨
      repeats step low high short (fuel + 1) count last x others =
        x :: following step low high short fuel (count + 1) (some x.pos) (step x) others ∨
      repeats step low high short (fuel + 1) count last x others =
        following step low high short fuel (count + 1) (some x.pos) (step x) (x :: others)) := by
  by_cases hlow : count < low
  · left
    refine ⟨hlow, ?_⟩
    rw [repeats, if_pos hlow]
    rfl
  · right
    refine ⟨by omega, ?_⟩
    rw [repeats, if_neg hlow]
    by_cases hstop : (high.any (· ≤ count) || last == some x.pos) = true
    · left
      simp only [hstop, if_true]
      cases short <;> rfl
    · right
      simp only [hstop]
      cases short with
      | true => exact Or.inl rfl
      | false => exact Or.inr rfl

/-- What a step keeps, a number of steps keeps. -/
theorem of_mem_repeats {P : Place → Prop} (hstep : ∀ x, P x → ∀ y ∈ step x, P y) (hx : P x)
    (hothers : ∀ y ∈ others, P y) : ∀ y ∈ repeats step low high short fuel count last x others, P y := by
  induction fuel generalizing count last x others with
  | zero => exact hothers
  | succ fuel ih =>
    have hfollowing : ∀ (count : Nat) (last : Option Nat) (places others : List Place),
        (∀ y ∈ places, P y) →
        (∀ y ∈ others, P y) → ∀ z ∈ following step low high short fuel count last places others,
          P z := by
      intro count last places others hplaces hothers
      induction places with
      | nil => exact hothers
      | cons y places ihplaces =>
        exact ih (hplaces y List.mem_cons_self)
          (ihplaces fun w hw => hplaces w (List.mem_cons_of_mem _ hw))
    have hcons : ∀ y ∈ x :: others, P y := List.forall_mem_cons.mpr ⟨hx, hothers⟩
    rcases repeats_cases step low high short fuel count last x others
      with ⟨-, heq⟩ | ⟨-, heq | heq | heq⟩ <;> rw [heq]
    · exact hfollowing _ _ _ _ (hstep x hx) hothers
    · exact hcons
    · exact List.forall_mem_cons.mpr ⟨hx, hfollowing _ _ _ _ (hstep x hx) hothers⟩
    · exact hfollowing _ _ _ _ (hstep x hx) hcons

/-- Places that are to come after a repetition do come. -/
theorem mem_repeats_of_mem (h : y ∈ others) :
    y ∈ repeats step low high short fuel count last x others := by
  induction fuel generalizing count last x others with
  | zero => exact h
  | succ fuel ih =>
    have hfollowing : ∀ (count : Nat) (last : Option Nat) (places others : List Place), y ∈ others →
        y ∈ following step low high short fuel count last places others := by
      intro count last places others h
      induction places with
      | nil => exact h
      | cons z places ihplaces => exact ih ihplaces
    rcases repeats_cases step low high short fuel count last x others
      with ⟨-, heq⟩ | ⟨-, heq | heq | heq⟩ <;> rw [heq]
    · exact hfollowing _ _ _ _ h
    · exact List.mem_cons_of_mem _ h
    · exact List.mem_cons_of_mem _ (hfollowing _ _ _ _ h)
    · exact hfollowing _ _ _ _ (List.mem_cons_of_mem _ h)

/-- A repetition that has gone on for long enough may end. -/
theorem mem_repeats_self (h : low ≤ count) :
    x ∈ repeats step low high short (fuel + 1) count last x others := by
  rcases repeats_cases step low high short fuel count last x others with ⟨hlow, -⟩ | ⟨-, heq | heq | heq⟩
  · omega
  · rw [heq]
    exact List.mem_cons_self
  · rw [heq]
    exact List.mem_cons_self
  · rw [heq]
    have hbase : x ∈ x :: others := List.mem_cons_self
    generalize step x = places
    induction places with
    | nil => exact hbase
    | cons z places ih => exact mem_repeats_of_mem ih

end Repeats

/-- What each step of a loop keeps holds where a possessive loop ends. -/
theorem of_holdOn {P : Place → Prop} {step : Place → List Place} {low : Nat} {high : Option Nat}
    (hstep : ∀ x, P x → ∀ y ∈ step x, P y) {fuel count : Nat} {last : Option Nat} (hx : P x)
    (h : holdOn step low high fuel count last x = some y) : P y := by
  induction fuel generalizing count last x with
  | zero => exact Option.some.inj h ▸ hx
  | succ fuel ih =>
    unfold holdOn at h
    dsimp only at h
    split at h
    · exact Option.some.inj h ▸ hx
    · split at h
      · next z hhead => exact ih (hstep x hx z (List.mem_of_mem_head? hhead)) h
      · split at h
        · cases h
        · exact Option.some.inj h ▸ hx

/-- What comes again stands in the text. -/
theorem le_size_of_comesAgain {folded : Bool} {start stop pos : Nat} (hpos : pos ≤ text.size)
    (h : comesAgain text folded start stop pos = true) : pos + (stop - start) ≤ text.size := by
  by_cases hempty : stop - start = 0
  · omega
  · have hlast := List.all_eq_true.mp h (stop - start - 1) (List.mem_range.mpr (by omega))
    by_contra hlt
    have hout : text[pos + (stop - start - 1)]? = none := Array.getElem?_eq_none (by omega)
    simp [hout] at hlast

/-- **What every move keeps, a match keeps.**  A relation has to hold between the places before and
    after a group, too, when the group is noted. -/
theorem ends_rel {R : Place → Place → Prop} (hR : Kept text R) (p : Pattern)
    (hnote : ∀ n ∈ p.numbers, ∀ x y, R x y →
      R x { y with groups := (n, x.pos, y.pos) :: y.groups.filter (·.1 != n) }) (hx : x.pos ≤ text.size)
    (hy : y ∈ ends text exact p x) : y.pos ≤ text.size ∧ R x y := by
  induction p generalizing x y with
  | empty =>
    obtain rfl := List.mem_singleton.mp hy
    exact ⟨hx, hR.refl y⟩
  | one set =>
    rw [ends] at hy
    split at hy
    · next hset =>
      obtain rfl := List.mem_singleton.mp hy
      have hlt : x.pos + 1 ≤ text.size := by
        by_contra hlt
        have hout : text[x.pos]? = none := Array.getElem?_eq_none (by omega)
        simp [hout] at hset
      exact ⟨hlt, hR.move x _ hlt⟩
    · cases hy
  | anchor a =>
    rw [ends] at hy
    split at hy
    · obtain rfl := List.mem_singleton.mp hy
      exact ⟨hx, hR.refl y⟩
    · cases hy
  | seq p q ihp ihq =>
    rw [numbers] at hnote
    obtain ⟨z, hz, hy⟩ := List.mem_flatMap.mp (mem_of_mem_settle hy)
    obtain ⟨hzle, hxz⟩ := ihp (fun n hn => hnote n (List.mem_append_left _ hn)) hx hz
    obtain ⟨hyle, hzy⟩ := ihq (fun n hn => hnote n (List.mem_append_right _ hn)) hzle hy
    exact ⟨hyle, hR.trans hxz hzy⟩
  | either p q ihp ihq =>
    rw [numbers] at hnote
    rcases List.mem_append.mp (mem_of_mem_settle hy) with hy | hy
    · exact ihp (fun n hn => hnote n (List.mem_append_left _ hn)) hx hy
    · exact ihq (fun n hn => hnote n (List.mem_append_right _ hn)) hx hy
  | loop low high greed p ih =>
    have hstep : ∀ z, z.pos ≤ text.size ∧ R x z → ∀ w ∈ ends text exact p z, w.pos ≤ text.size ∧
        R x w := by
      intro z hz w hw
      obtain ⟨hwle, hzw⟩ := ih hnote hz.1 hw
      exact ⟨hwle, hR.trans hz.2 hzw⟩
    cases greed with
    | all => exact of_holdOn hstep ⟨hx, hR.refl x⟩ (Option.mem_toList.mp hy)
    | most => exact of_mem_repeats hstep ⟨hx, hR.refl x⟩ (by simp) y (mem_of_mem_settle hy)
    | least => exact of_mem_repeats hstep ⟨hx, hR.refl x⟩ (by simp) y (mem_of_mem_settle hy)
  | group n p ih =>
    rw [ends] at hy
    obtain ⟨z, hz, rfl⟩ := List.mem_map.mp hy
    obtain ⟨hzle, hxz⟩ := ih (fun m hm => hnote m (List.mem_cons_of_mem _ hm)) hx hz
    exact ⟨hzle, hnote n List.mem_cons_self x z hxz⟩
  | atomic p ih =>
    rw [ends, Option.mem_toList] at hy
    exact ih hnote hx (List.mem_of_mem_head? hy)
  | ahead wanted p ih =>
    rw [ends] at hy
    split at hy
    · next z hz =>
      split at hy
      · obtain rfl := List.mem_singleton.mp hy
        obtain ⟨_, hxz⟩ := ih hnote hx (List.mem_of_mem_head? hz)
        exact ⟨hx, hR.trans hxz (hR.move z _ hx)⟩
      · cases hy
    · split at hy
      · cases hy
      · obtain rfl := List.mem_singleton.mp hy
        exact ⟨hx, hR.refl y⟩
  | behind length wanted p ih =>
    rw [ends] at hy
    split at hy
    · next z hz =>
      split at hy
      · obtain rfl := List.mem_singleton.mp hy
        split at hz
        · cases hz
        · -- The match begins further back, and that is a move, too.
          have hback : x.pos - length ≤ text.size := by omega
          obtain ⟨hyle, hxy⟩ :=
            ih hnote (x := { x with pos := x.pos - length }) hback (List.mem_of_find?_eq_some hz)
          exact ⟨hyle, hR.trans (hR.move x _ hback) hxy⟩
      · cases hy
    · split at hy
      · cases hy
      · obtain rfl := List.mem_singleton.mp hy
        exact ⟨hx, hR.refl y⟩
  | again n folded =>
    rw [ends] at hy
    split at hy
    · split at hy
      · next hagain =>
        obtain rfl := List.mem_singleton.mp hy
        have hle := le_size_of_comesAgain hx hagain
        exact ⟨hle, hR.move x _ hle⟩
      · cases hy
    · cases hy
  | given n p q ihp ihq =>
    rw [numbers] at hnote
    rw [ends] at hy
    split at hy
    · exact ihp (fun n hn => hnote n (List.mem_append_left _ hn)) hx hy
    · exact ihq (fun n hn => hnote n (List.mem_append_right _ hn)) hx hy

theorem pos_le_of_mem_ends (hx : x.pos ≤ text.size) (hy : y ∈ ends text exact p x) :
    y.pos ≤ text.size := by
  have hkept : Kept text fun _ _ => True := ⟨fun _ => trivial, fun _ _ => trivial, fun _ _ _ => trivial⟩
  exact (ends_rel hkept p (fun _ _ _ _ _ => trivial) hx hy).1

/-- Without groups of its own, a pattern leaves those before it as they are. -/
theorem groups_of_mem_ends (hp : p.numbers = []) (hx : x.pos ≤ text.size)
    (hy : y ∈ ends text exact p x) :
    y.pos ≤ text.size ∧ y.groups = x.groups := by
  have hkept : Kept text fun x y => y.groups = x.groups := by
    refine ⟨fun _ => rfl, ?_, fun _ _ _ => rfl⟩
    intro x y z hxy hyz
    rw [hyz, hxy]
  refine ends_rel hkept p ?_ hx hy
  rw [hp]
  simp

/-! ## Groups that have matched -/

/-- A match of the pattern goes through the group. -/
def goesThrough (n : Nat) : Pattern → Bool
  | group m p => m == n || p.goesThrough n
  | seq p q => p.goesThrough n || q.goesThrough n
  | _ => false

/-- Noting one group changes nothing for the others. -/
theorem lookup_note (groups : List (Nat × Nat × Nat)) {m : Nat} (h : n ≠ m) (place : Nat × Nat) :
    List.lookup n ((m, place) :: groups.filter (·.1 != m)) = List.lookup n groups := by
  have hothers : List.lookup n (groups.filter (·.1 != m)) = List.lookup n groups := by
    induction groups with
    | nil => rfl
    | cons g groups ih =>
      by_cases hg : g.1 = m
      · rw [List.filter_cons_of_neg (by simp [hg]), ih, List.lookup_cons, hg, beq_false_of_ne h]
      · rw [List.filter_cons_of_pos (by simpa using hg), List.lookup_cons, List.lookup_cons, ih]
  rw [List.lookup_cons, beq_false_of_ne h]
  exact hothers

/-- What a group has matched is not forgotten. -/
theorem isSome_lookup_of_isSome (p : Pattern) (hx : x.pos ≤ text.size) (hy : y ∈ ends text exact p x)
    (h : (x.groups.lookup n).isSome = true) : (y.groups.lookup n).isSome = true := by
  have hkept : Kept text fun x y => (x.groups.lookup n).isSome = true →
      (y.groups.lookup n).isSome = true :=
    ⟨fun _ h => h, fun hxy hyz h => hyz (hxy h), fun _ _ _ h => h⟩
  refine (ends_rel hkept p ?_ hx hy).2 h
  intro m _ x y hxy hsome
  by_cases hm : n = m
  · subst hm
    simp
  · show ((List.lookup n ((m, x.pos, y.pos) :: y.groups.filter (·.1 != m))).isSome) = true
    rw [lookup_note _ hm]
    exact hxy hsome

/-- **A group that a match goes through has matched at every end.** -/
theorem isSome_lookup_of_mem_ends (hp : p.goesThrough n = true) (hx : x.pos ≤ text.size)
    (hy : y ∈ ends text exact p x) : (y.groups.lookup n).isSome = true := by
  induction p generalizing x y with
  | group m p ih =>
    rw [ends] at hy
    obtain ⟨z, hz, rfl⟩ := List.mem_map.mp hy
    by_cases hm : n = m
    · subst hm
      simp
    · have hin : p.goesThrough n = true := by
        simpa [goesThrough, beq_false_of_ne (Ne.symm hm)] using hp
      show ((List.lookup n ((m, x.pos, z.pos) :: z.groups.filter (·.1 != m))).isSome) = true
      rw [lookup_note _ hm]
      exact ih hin hx hz
  | seq p q ihp ihq =>
    obtain ⟨z, hz, hy⟩ := List.mem_flatMap.mp (mem_of_mem_settle hy)
    have hzle : z.pos ≤ text.size := pos_le_of_mem_ends hx hz
    rw [goesThrough, Bool.or_eq_true] at hp
    rcases hp with hp | hq
    · exact isSome_lookup_of_isSome q hzle hy (ihp hp hx hz)
    · exact ihq hq hzle hy
  | _ => cases hp

/-- What is found at the front of a text comes from an end of the pattern. -/
theorem exists_of_matchFront? {s : String} {m : Found} (h : p.matchFront? s = some m) :
    ∃ z ∈ ends s.toList.toArray p.looksBack p { pos := 0 },
      m = { text := s.toList.toArray, start := 0, stop := z.pos, groups := z.groups } := by
  unfold matchFront? matchAt? at h
  obtain ⟨z, hz, rfl⟩ := Option.map_eq_some_iff.mp h
  exact ⟨z, List.mem_of_mem_head? hz, rfl⟩

/-! ## The preferred end -/

/-- A match that begins at `x` ends at `y`, of all places where it could end. -/
def Leads (text : Array Char) (exact : Bool) (p : Pattern) (x y : Place) : Prop :=
  (ends text exact p x).head? = some y

theorem Leads.mem (h : Leads text exact p x y) : y ∈ ends text exact p x := List.mem_of_mem_head? h

theorem leads_one {c : Char} (hget : text[x.pos]? = some c) (hc : set.holds c = true) :
    Leads text exact (one set) x { x with pos := x.pos + 1 } := by
  simp [Leads, ends, hget, hc]

theorem Leads.group (h : Leads text exact p x y) (n : Nat) : Leads text exact (group n p) x
    { y with groups := (n, x.pos, y.pos) :: y.groups.filter (·.1 != n) } := by
  rw [Leads, ends, List.head?_map, h]
  rfl

theorem head?_settle (h : places.head? = some x) (hx : x.pos ≤ size) :
    (if exact then places else distinct size places).head? = some x := by
  split
  · exact h
  · exact head?_distinct h hx

theorem head?_flatMap_cons {f : Place → List Place} (h : (f x).head? = some z) (rest : List Place) :
    ((x :: rest).flatMap f).head? = some z := by
  rw [List.flatMap_cons, List.head?_append, h]
  rfl

/-- The preferred end of a sequence, if the second pattern matches behind the preferred end of the
    first. -/
theorem Leads.seq (hp : Leads text exact p x y) (hq : Leads text exact q y z) (hz : z.pos ≤ text.size) :
    Leads text exact (seq p q) x z := by
  obtain ⟨rest, hends⟩ := List.head?_eq_some_iff.mp hp
  rw [Leads, ends, hends]
  exact head?_settle (head?_flatMap_cons hq rest) hz

/-! ## Greedy repetitions -/

/-- The places to which a run of characters leads, the farthest first. -/
def runBack (x : Place) : Nat → List Place
  | 0 => [x]
  | n + 1 => runBack { x with pos := x.pos + 1 } n ++ [x]

/-- The places of a run lie at its characters and at its end. -/
theorem mem_runBack (h : y ∈ runBack x n) : ∃ j ≤ n, y = { x with pos := x.pos + j } := by
  induction n generalizing x with
  | zero =>
    obtain rfl := List.mem_singleton.mp h
    exact ⟨0, Nat.le_refl 0, rfl⟩
  | succ n ih =>
    rcases List.mem_append.mp h with h | h
    · obtain ⟨j, hj, rfl⟩ := ih h
      refine ⟨j + 1, by omega, ?_⟩
      simp only [Nat.add_assoc, Nat.add_comm 1 j]
    · obtain rfl := List.mem_singleton.mp h
      exact ⟨0, Nat.zero_le _, rfl⟩

/-- They are all different. -/
theorem pairwise_runBack (x : Place) (n : Nat) : (runBack x n).Pairwise fun a b => a.pos ≠ b.pos := by
  induction n generalizing x with
  | zero => exact List.pairwise_singleton _ _
  | succ n ih =>
    refine List.pairwise_append.mpr ⟨ih _, List.pairwise_singleton _ _, ?_⟩
    intro a ha b hb
    obtain ⟨j, _, rfl⟩ := mem_runBack ha
    obtain rfl := List.mem_singleton.mp hb
    show b.pos + 1 + j ≠ b.pos
    omega

/-- From `x` there is a run of `n` characters of the set, and it goes no further. -/
structure IsRun (text : Array Char) (set : CharSet) (x : Place) (n : Nat) : Prop where
  holds : ∀ i < n, text[x.pos + i]?.any set.holds = true
  stops : text[x.pos + n]?.any set.holds = false

theorem IsRun.tail (h : IsRun text set x (n + 1)) : IsRun text set { x with pos := x.pos + 1 } n where
  holds := by
    intro i hi
    have hnext := h.holds (i + 1) (by omega)
    rwa [← Nat.add_assoc, Nat.add_right_comm] at hnext
  stops := by
    have hstop := h.stops
    rwa [← Nat.add_assoc, Nat.add_right_comm] at hstop

theorem IsRun.le_size (h : IsRun text set x n) (hx : x.pos ≤ text.size) : x.pos + n ≤ text.size := by
  cases n with
  | zero => exact hx
  | succ n =>
    by_contra hlt
    have hlast := h.holds n (by omega)
    rw [Array.getElem?_eq_none (by omega)] at hlast
    cases hlast

/-- Every place is the start of a run. -/
theorem exists_isRun (text : Array Char) (set : CharSet) (x : Place) : ∃ n, IsRun text set x n := by
  have hend : ∃ n, text[x.pos + n]?.any set.holds = false := by
    refine ⟨text.size, ?_⟩
    rw [Array.getElem?_eq_none (by omega)]
    rfl
  classical
  refine ⟨Nat.find hend, ?_, Nat.find_spec hend⟩
  intro i hi
  simpa using Nat.find_min hend hi

/-- A greedy loop over a set goes to the end of the run first, and then back one character at a
    time. -/
theorem repeats_run (h : IsRun text set x n) {fuel : Nat} (hfuel : n < fuel) (count : Nat)
    {last : Option Nat} (hlast : last ≠ some x.pos) (others : List Place) :
    repeats (ends text exact (one set)) 0 none false fuel count last x others
      = runBack x n ++ others := by
  -- The induction is on the length of the run: each character adds a place in front of those before it.
  induction n generalizing x fuel count last others with
  | zero =>
    obtain ⟨fuel, rfl⟩ := Nat.exists_eq_succ_of_ne_zero (by omega : fuel ≠ 0)
    have hnone : ends text exact (one set) x = [] := by
      rw [ends, if_neg]
      simpa using h.stops
    simp [repeats, hnone, runBack]
  | succ n ih =>
    obtain ⟨fuel, rfl⟩ := Nat.exists_eq_succ_of_ne_zero (by omega : fuel ≠ 0)
    have hone : ends text exact (one set) x = [{ x with pos := x.pos + 1 }] := by
      rw [ends, if_pos]
      exact h.holds 0 (by omega)
    have hnext : (some x.pos : Option Nat) ≠ some (x.pos + 1) := by simp
    have hfuel : n < fuel := by omega
    have hrest := ih h.tail hfuel (count + 1) hnext (x :: others)
    simp only [repeats, Nat.not_lt_zero, if_false, Option.any_none, Bool.false_or, beq_iff_eq,
      hlast, hone, List.foldr_cons, List.foldr_nil, Bool.false_eq_true]
    rw [hrest, runBack, List.append_assoc]
    rfl

/-- So the loop as a whole ends at the places of the run, the farthest first. -/
theorem ends_loop_one (h : IsRun text set x n) (hx : x.pos ≤ text.size) :
    ends text exact (loop 0 none .most (one set)) x = runBack x n := by
  have hle := h.le_size hx
  have hrepeats : repeats (ends text exact (one set)) 0 none false (0 + text.size + 3) 0 none x []
      = runBack x n := by
    rw [repeats_run h (by omega) 0 (by simp) [], List.append_nil]
  have hdistinct : distinct text.size (runBack x n) = runBack x n := by
    refine distinct_eq_self (pairwise_runBack x n) ?_
    intro y hy
    obtain ⟨j, hj, rfl⟩ := mem_runBack hy
    show x.pos + j ≤ text.size
    omega
  have hends : ends text exact (loop 0 none .most (one set)) x =
      if exact then runBack x n else distinct text.size (runBack x n) := by
    rw [← hrepeats]
    rfl
  rw [hends, hdistinct, ite_self]

/-- Going back along a run, the first place is taken from which one can go on. -/
theorem head?_flatMap_runBack {f : Place → List Place} {k : Nat} (hk : k ≤ n)
    (hz : (f { x with pos := x.pos + k }).head? = some z)
    (hlater : ∀ j, k < j → j ≤ n → f { x with pos := x.pos + j } = []) :
    ((runBack x n).flatMap f).head? = some z := by
  induction n generalizing x k with
  | zero =>
    obtain rfl : k = 0 := by omega
    simpa [runBack] using hz
  | succ n ih =>
    rw [runBack, List.flatMap_append, List.head?_append]
    cases k with
    | zero =>
      have hnone : (runBack { x with pos := x.pos + 1 } n).flatMap f = [] := by
        rw [List.flatMap_eq_nil_iff]
        intro y hy
        obtain ⟨j, hj, rfl⟩ := mem_runBack hy
        have hnone := hlater (j + 1) (by omega) (by omega)
        rwa [← Nat.add_assoc, Nat.add_right_comm] at hnone
      simpa [hnone] using hz
    | succ k =>
      have hfront := ih (x := { x with pos := x.pos + 1 }) (k := k) (by omega)
        (by rwa [← Nat.add_assoc, Nat.add_right_comm] at hz) ?_
      · rw [hfront]
        rfl
      · intro j hkj hjn
        have hnone := hlater (j + 1) (by omega) (by omega)
        rwa [← Nat.add_assoc, Nat.add_right_comm] at hnone

/-- **A greedy repetition takes as much as the rest of the pattern allows.** -/
theorem leads_greedy {k : Nat} (hx : x.pos ≤ text.size)
    (hrun : ∀ i < k, text[x.pos + i]?.any set.holds = true)
    (hq : Leads text exact q { x with pos := x.pos + k } z) (hz : z.pos ≤ text.size)
    (hlater : ∀ j, k < j → (∀ i < j, text[x.pos + i]?.any set.holds = true) →
      ends text exact q { x with pos := x.pos + j } = []) :
    Leads text exact (.seq (loop 0 none .most (one set)) q) x z := by
  obtain ⟨n, h⟩ := exists_isRun text set x
  have hk : k ≤ n := by
    by_contra hlt
    have hstop := h.stops
    rw [hrun n (by omega)] at hstop
    cases hstop
  rw [Leads, ends, ends_loop_one h hx]
  refine head?_settle (head?_flatMap_runBack hk hq ?_) hz
  intro j hkj hjn
  exact hlater j hkj fun i hi => h.holds i (by omega)

/-- A repetition that may be empty matches everywhere. -/
theorem exists_leads_loop (p : Pattern) (hx : x.pos ≤ text.size) :
    ∃ y, Leads text exact (loop 0 none .most p) x y := by
  have hmem : x ∈ repeats (ends text exact p) 0 none false (0 + text.size + 2 + 1) 0 none x [] :=
    mem_repeats_self (Nat.le_refl 0)
  obtain ⟨y, rest, hplaces⟩ := List.exists_cons_of_ne_nil (List.ne_nil_of_mem hmem)
  have hy : y.pos ≤ text.size := by
    refine of_mem_repeats (P := fun y => y.pos ≤ text.size) ?_ hx (by simp) y
      (hplaces ▸ List.mem_cons_self)
    exact fun x hx y hy => pos_le_of_mem_ends hx hy
  have hhead : (repeats (ends text exact p) 0 none false (0 + text.size + 2 + 1) 0 none x []).head?
      = some y := by
    rw [hplaces]
    rfl
  exact ⟨y, head?_settle hhead hy⟩

end BuildMeta.Text.Pattern
