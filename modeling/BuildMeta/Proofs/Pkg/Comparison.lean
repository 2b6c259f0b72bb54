import BuildMeta.Pkg.Requirement
import BuildMeta.Proofs.Outcome
import BuildMeta.Proofs.Pkg.Parts
import Mathlib

/-!
# `Proofs.Pkg.Comparison` — versions of packages in an order

A version is placed among all others by the endless sequence of its parts: zeros follow the last one, and
numbers come before words.  The sequences are ordered by their first difference (`Version.rank`).
Comparing two versions tells their order, unless they clash: after a common beginning one of them
goes on with a number and the other with a word, which cannot be compared
(`Version.compare_settles`).

* `Version.compare_numeric` — versions of numbers never clash: all six relations between them are those
  of a linear order, in which zeros at the end do not count;
* `Requirement.metBy_decided_iff` — which requirements can be decided against which versions.
-/

namespace BuildMeta.Pkg

deriving instance ReflBEq, LawfulBEq for Part

/-! ## Parts -/

namespace Part

/-- The place of a part among all parts.  Numbers come before words. -/
def rank : Part → Int ⊕ₗ String
  | number n => toLex (.inl n)
  | word s => toLex (.inr s)

/-- One is a number and the other a word. -/
def Mixed : Part → Part → Prop
  | number _, word _ => True
  | word _, number _ => True
  | _, _ => False

theorem rank_injective : Function.Injective rank := by
  intro a b h
  cases a <;> cases b <;> simp_all [rank]

/-- Two parts of one kind are compared as they are placed, and others cannot be compared. -/
theorem compare_settles (a b : Part) :
    Mixed a b ∧ compare a b = .error .wrongType ∨
      ¬ Mixed a b ∧ ∃ o, compare a b = .ok o ∧ o.Compares a.rank b.rank := by
  cases a with
  | number m =>
    cases b with
    | number n =>
      refine Or.inr ⟨id, _, rfl, ?_⟩
      exact Sum.Lex.inl_strictMono.compares.mpr ((compare_iff m n).mp rfl)
    | word t => exact Or.inl ⟨trivial, rfl⟩
  | word s =>
    cases b with
    | number n => exact Or.inl ⟨trivial, rfl⟩
    | word t =>
      refine Or.inr ⟨id, _, rfl, Sum.Lex.inr_strictMono.compares.mpr ?_⟩
      rcases lt_trichotomy s t with hlt | rfl | hgt
      · rw [if_pos hlt]
        exact hlt
      · rw [if_neg (lt_irrefl s), if_neg (lt_irrefl s)]
        rfl
      · rw [if_neg hgt.not_gt, if_pos hgt]
        exact hgt

/-! ## Sequences of parts -/

/-- The places of the parts of a sequence, one after the other; zeros follow the last part. -/
def ranks (ps : List Part) : Lex (Nat → Int ⊕ₗ String) := toLex fun i => (ps.getD i (number 0)).rank

/-- At each place stands one of the parts, or a zero. -/
theorem getD_mem_or_zero (ps : List Part) (i : Nat) :
    ps.getD i (number 0) ∈ ps ∨ ps.getD i (number 0) = number 0 := by
  rw [List.getD_eq_getElem?_getD]
  cases hget : ps[i]? with
  | none => exact Or.inr rfl
  | some p => exact Or.inl (List.mem_of_getElem? hget)

/-- After a common beginning, one sequence goes on with a number and the other with a word. -/
def Clash (as bs : List Part) : Prop :=
  ∃ front a b as' bs', as = front ++ a :: as' ∧ bs = front ++ b :: bs' ∧ Mixed a b

variable {a b : Part} {as bs ps : List Part} {o o' : Ordering}

theorem not_clash_nil_left : ¬ Clash [] bs := by
  rintro ⟨front, a, b, as', bs', has, -⟩
  simp at has

theorem not_clash_nil_right : ¬ Clash as [] := by
  rintro ⟨front, a, b, as', bs', -, hbs, -⟩
  simp at hbs

/-- Versions clash at the first part in which they differ, or not at all. -/
theorem clash_cons_iff : Clash (a :: as) (b :: bs) ↔ Mixed a b ∨ a = b ∧ Clash as bs := by
  constructor
  · rintro ⟨front, a', b', as', bs', has, hbs, hmixed⟩
    cases front with
    | nil =>
      simp only [List.nil_append, List.cons.injEq] at has hbs
      obtain ⟨rfl, rfl⟩ := has
      obtain ⟨rfl, rfl⟩ := hbs
      exact Or.inl hmixed
    | cons c front =>
      simp only [List.cons_append, List.cons.injEq] at has hbs
      exact Or.inr ⟨has.1.trans hbs.1.symm, front, a', b', as', bs', has.2, hbs.2, hmixed⟩
  · rintro (hmixed | ⟨rfl, front, a', b', as', bs', rfl, rfl, hmixed⟩)
    · exact ⟨[], a, b, as, bs, rfl, rfl, hmixed⟩
    · exact ⟨a :: front, a', b', as', bs', rfl, rfl, hmixed⟩

theorem not_clash_of_ne (hsame : ¬ Mixed a b) (hne : a ≠ b) : ¬ Clash (a :: as) (b :: bs) := by
  rw [clash_cons_iff]
  rintro (hmixed | ⟨heq, -⟩)
  · exact hsame hmixed
  · exact hne heq

theorem ranks_zero (ps : List Part) : ranks ps 0 = (ps.headD (number 0)).rank := by
  cases ps <;> rfl

theorem ranks_succ (ps : List Part) (i : Nat) : ranks ps (i + 1) = ranks ps.tail i := by
  cases ps <;> rfl

theorem ranks_lt_of_head (h : (as.headD (number 0)).rank < (bs.headD (number 0)).rank) :
    ranks as < ranks bs := by
  refine ⟨0, fun j hj => absurd hj j.not_lt_zero, ?_⟩
  rw [ranks_zero, ranks_zero]
  exact h

/-- Where the first parts rank alike, the rest decides. -/
theorem ranks_lt_of_tail (hhead : (as.headD (number 0)).rank = (bs.headD (number 0)).rank)
    (htail : ranks as.tail < ranks bs.tail) : ranks as < ranks bs := by
  obtain ⟨i, hbefore, hi⟩ := htail
  refine ⟨i + 1, ?_, ?_⟩
  · intro j hj
    cases j with
    | zero => rw [ranks_zero, ranks_zero, hhead]
    | succ j =>
      rw [ranks_succ, ranks_succ]
      exact hbefore j (by omega)
  · rw [ranks_succ, ranks_succ]
    exact hi

theorem ranks_eq_of_tail (hhead : (as.headD (number 0)).rank = (bs.headD (number 0)).rank)
    (htail : ranks as.tail = ranks bs.tail) : ranks as = ranks bs := by
  funext i
  cases i with
  | zero => rw [ranks_zero, ranks_zero, hhead]
  | succ i => rw [ranks_succ, ranks_succ, htail]

/-- The first parts decide, or leave it to the parts after them. -/
theorem compares_ranks
    (hhead : o.Compares (as.headD (number 0)).rank (bs.headD (number 0)).rank)
    (htail : o = .eq → o'.Compares (ranks as.tail) (ranks bs.tail)) :
    (o.then o').Compares (ranks as) (ranks bs) := by
  cases o with
  | lt => exact ranks_lt_of_head hhead
  | gt => exact ranks_lt_of_head hhead
  | eq =>
    have hrest : o'.Compares (ranks as.tail) (ranks bs.tail) := htail rfl
    cases o' with
    | lt => exact ranks_lt_of_tail hhead hrest
    | gt => exact ranks_lt_of_tail hhead.symm hrest
    | eq => exact ranks_eq_of_tail hhead hrest

/-- Zeros are the least parts. -/
theorem compares_zero (hp : a.Unsigned) :
    (if a.isZero then Ordering.eq else .lt).Compares (number 0).rank a.rank := by
  cases a with
  | number n =>
    -- Only here it matters that the number has no sign: the shorter version counts as less.
    by_cases hn : n = 0
    · subst hn
      rfl
    · have hpos : 0 < n := lt_of_le_of_ne (hp n rfl) (Ne.symm hn)
      simp only [isZero, beq_iff_eq, hn, if_false]
      exact Sum.Lex.inl_strictMono hpos
  | word s => exact Sum.Lex.inl_lt_inr 0 s

/-- A sequence that has ended is less than one that goes on, unless only zeros follow. -/
theorem compares_nil (hps : ∀ p ∈ ps, p.Unsigned) :
    (if ps.all isZero then Ordering.eq else .lt).Compares (ranks []) (ranks ps) := by
  induction ps with
  | nil => rfl
  | cons p ps ih =>
    have hhead := compares_zero (hps p List.mem_cons_self)
    have htail := ih fun p hp => hps p (List.mem_cons_of_mem _ hp)
    have hboth :
        (Ordering.then (if p.isZero then .eq else .lt) (if ps.all isZero then .eq else .lt)).Compares
        (ranks []) (ranks (p :: ps)) := compares_ranks hhead fun _ => htail
    rw [List.all_cons]
    by_cases hp : p.isZero = true
    · simpa [hp] using hboth
    · simpa [hp] using hboth

/-- **Sequences are compared as they are placed, unless they clash.** -/
theorem compareAll_settles (has : ∀ p ∈ as, p.Unsigned) (hbs : ∀ p ∈ bs, p.Unsigned) :
    Clash as bs ∧ compareAll as bs = .error .wrongType ∨
      ¬ Clash as bs ∧ ∃ o, compareAll as bs = .ok o ∧ o.Compares (ranks as) (ranks bs) := by
  -- The induction follows the comparison: one of the sequences has ended, or both have a first part.
  induction as, bs using compareAll.induct with
  | case1 rest =>
    refine Or.inr ⟨not_clash_nil_left, _, by rw [compareAll], compares_nil hbs⟩
  | case2 rest hne =>
    refine Or.inr ⟨not_clash_nil_right, _, compareAll.eq_2 rest hne, ?_⟩
    have hswap := (compares_nil has).swap
    split_ifs at hswap ⊢ <;> exact hswap
  | case3 a as b bs ih =>
    have htail := ih (fun p hp => has p (List.mem_cons_of_mem _ hp)) fun p hp =>
      hbs p (List.mem_cons_of_mem _ hp)
    rw [compareAll]
    rcases compare_settles a b with ⟨hmixed, hcompare⟩ | ⟨hsame, o, hcompare, horder⟩
    · exact Or.inl ⟨clash_cons_iff.mpr (Or.inl hmixed), by rw [hcompare]; rfl⟩
    · rw [hcompare, Failure.ok_bind]
      have hboth : ∀ o', (o = .eq → o'.Compares (ranks as) (ranks bs)) →
          (o.then o').Compares (ranks (a :: as)) (ranks (b :: bs)) := by
        intro o' hrest
        exact compares_ranks horder hrest
      cases o with
      | lt =>
        have hne : a ≠ b := fun heq => lt_irrefl _ (heq ▸ horder)
        exact Or.inr ⟨not_clash_of_ne hsame hne, .lt, rfl, hboth .eq (by simp)⟩
      | gt =>
        have hne : a ≠ b := fun heq => lt_irrefl _ (heq ▸ horder)
        exact Or.inr ⟨not_clash_of_ne hsame hne, .gt, rfl, hboth .eq (by simp)⟩
      | eq =>
        -- Equal places are equal parts, so a clash of the rest is a clash of the whole.
        obtain rfl : a = b := rank_injective horder
        rcases htail with ⟨hclash, herror⟩ | ⟨hclear, o', hok, hrest⟩
        · exact Or.inl ⟨clash_cons_iff.mpr (Or.inr ⟨rfl, hclash⟩), herror⟩
        · refine Or.inr ⟨?_, o', hok, hboth o' fun _ => hrest⟩
          rw [clash_cons_iff]
          rintro (hmixed | ⟨-, hclash⟩)
          · exact hsame hmixed
          · exact hclear hclash

theorem not_clash_self (ps : List Part) : ¬ Clash ps ps := by
  rintro ⟨front, a, b, as', bs', has, hbs, hmixed⟩
  obtain ⟨rfl, rfl⟩ : a = b ∧ as' = bs' := by simpa using has.symm.trans hbs
  cases a <;> exact hmixed

end Part

/-! ## Versions -/

namespace Version

variable {v w : Version}

/-- The place of a version among all versions. -/
def rank (v : Version) : Lex (Nat → Int ⊕ₗ String) := Part.ranks v.parts

/-- The versions cannot be compared: where they first differ, a number meets a word. -/
def Clash (v w : Version) : Prop := Part.Clash v.parts w.parts

/-- No part is a negative number. -/
def Unsigned (v : Version) : Prop := ∀ p ∈ v.parts, p.Unsigned

theorem unsigned_parse (text : String) : (parse text).Unsigned := Part.unsigned_readAll text.toList

theorem unsigned_none : none.Unsigned := by
  intro p hp n hn
  obtain rfl : p = .number 0 := List.mem_singleton.mp hp
  cases hn
  exact le_refl 0

/-- **Versions are compared as they are placed, unless they clash.** -/
theorem compare_settles (hv : v.Unsigned) (hw : w.Unsigned) :
    Clash v w ∧ v.compare w = .error .wrongType ∨
      ¬ Clash v w ∧ ∃ o, v.compare w = .ok o ∧ o.Compares v.rank w.rank := by
  unfold compare Clash rank
  by_cases heq : v.parts = w.parts
  · rw [heq, if_pos BEq.rfl]
    exact Or.inr ⟨Part.not_clash_self _, .eq, rfl, rfl⟩
  · rw [if_neg (by simpa using heq)]
    exact Part.compareAll_settles hv hw

end Version

/-! ## Relations -/

namespace Relation

variable {α : Type} {x y z : α} {q : Relation} {o : Ordering}

/-- What a relation says of two members of an order. -/
def Holds [Preorder α] : Relation → α → α → Prop
  | less, x, y => x < y
  | lessOrEqual, x, y => x ≤ y
  | equal, x, y => x = y
  | greaterOrEqual, x, y => y ≤ x
  | greater, x, y => y < x
  | notEqual, x, y => x ≠ y
  | any, _, _ => True

/-- A relation accepts the outcomes of which it holds. -/
theorem accepts_iff [Preorder α] (h : o.Compares x y) : q.accepts o = true ↔ q.Holds x y := by
  cases q with
  | less => simpa [accepts, Holds] using h.eq_lt
  | lessOrEqual => simpa [accepts, Holds] using h.ne_gt
  | equal => simpa [accepts, Holds] using h.eq_eq
  | greaterOrEqual => simpa [accepts, Holds] using h.ne_lt
  | greater => simpa [accepts, Holds] using h.eq_gt
  | notEqual => simpa [accepts, Holds] using h.eq_eq.not
  | any => simp [accepts, Holds]

/-- All relations but the one for inequality go on along an order. -/
theorem Holds.trans [Preorder α] (hxy : q.Holds x y) (hq : q ≠ notEqual) (hyz : q.Holds y z) :
    q.Holds x z := by
  cases q with
  | less => exact lt_trans hxy hyz
  | lessOrEqual => exact le_trans hxy hyz
  | equal => exact Eq.trans hxy hyz
  | greaterOrEqual => exact le_trans hyz hxy
  | greater => exact lt_trans hyz hxy
  | notEqual => exact absurd rfl hq
  | any => trivial

/-- Relations are kept by a map that keeps the order. -/
theorem holds_map [LinearOrder α] {β : Type} [Preorder β] {f : α → β} (hf : StrictMono f) :
    q.Holds (f x) (f y) ↔ q.Holds x y := by
  cases q with
  | less => exact hf.lt_iff_lt
  | lessOrEqual => exact hf.le_iff_le
  | equal => exact hf.injective.eq_iff
  | greaterOrEqual => exact hf.le_iff_le
  | greater => exact hf.lt_iff_lt
  | notEqual => exact hf.injective.ne_iff
  | any => exact Iff.rfl

/-- Of two members of a linear order one is less, or they are equal, or one is greater. -/
theorem existsUnique_holds [LinearOrder α] (x y : α) :
    ∃! q, q ∈ [less, equal, greater] ∧ q.Holds x y := by
  rcases lt_trichotomy x y with hlt | heq | hgt
  · exact ⟨less, ⟨by simp, hlt⟩, by simp [Holds, hlt.ne, hlt.not_gt]⟩
  · exact ⟨equal, ⟨by simp, heq⟩, by simp [Holds, heq]⟩
  · exact ⟨greater, ⟨by simp, hgt⟩, by simp [Holds, hgt.ne', hgt.not_gt]⟩

end Relation

namespace Version

variable {v w : Version} {q : Relation}

/-- Whether a version stands in a relation to another. -/
def stands (v : Version) (q : Relation) (w : Version) : Except Failure Bool := q.accepts <$> v.compare w

theorem exists_stands (hv : v.Unsigned) (hw : w.Unsigned) (hclear : ¬ Clash v w) :
    ∃ holds, v.stands q w = .ok holds ∧ (holds = true ↔ q.Holds v.rank w.rank) := by
  rcases compare_settles hv hw with ⟨hclash, -⟩ | ⟨-, o, hok, horder⟩
  · exact absurd hclash hclear
  · exact ⟨q.accepts o, by rw [stands, hok]; rfl, Relation.accepts_iff horder⟩

theorem stands_iff (hv : v.Unsigned) (hw : w.Unsigned) (hclear : ¬ Clash v w) :
    v.stands q w = .ok true ↔ q.Holds v.rank w.rank := by
  obtain ⟨holds, hok, hiff⟩ := exists_stands (q := q) hv hw hclear
  rw [hok, ← hiff, Except.ok.injEq]

end Version

/-! ## Versions of numbers -/

/-- Whether a part is a number. -/
def Part.isNumber : Part → Bool
  | number _ => true
  | word _ => false

/-- The number that a part is; words count as zero. -/
def Part.value : Part → Int
  | number n => n
  | word _ => 0

theorem Part.not_mixed {a b : Part} (ha : a.isNumber = true) (hb : b.isNumber = true) : ¬ Mixed a b := by
  cases a <;> cases b <;> simp_all [isNumber, Mixed]

theorem Part.rank_of_isNumber {a : Part} (h : a.isNumber = true) : a.rank = toLex (.inl a.value) := by
  cases a with
  | number n => rfl
  | word s => cases h

namespace Version

variable {v w : Version} {q : Relation}

/-- All parts of a version are numbers. -/
def Numeric (v : Version) : Prop := ∀ p ∈ v.parts, p.isNumber = true

instance : DecidablePred Numeric := fun v =>
  inferInstanceAs (Decidable (∀ p ∈ v.parts, p.isNumber = true))

/-- The numbers of a version, one after the other; zeros follow the last one. -/
def numbers (v : Version) : Lex (Nat → Int) := toLex fun i => (v.parts.getD i (.number 0)).value

/-- Numbers are placed among all parts in their own order. -/
theorem strictMono_inl :
    StrictMono fun f :
    Lex (Nat → Int) => (toLex fun i => toLex (.inl (f i)) : Lex (Nat → Int ⊕ₗ String)) := by
  rintro f g ⟨i, hbefore, hi⟩
  refine ⟨i, ?_, Sum.Lex.inl_strictMono hi⟩
  intro j hj
  exact congrArg (fun n => toLex (Sum.inl n)) (hbefore j hj)

theorem Numeric.rank_eq (h : v.Numeric) : v.rank = toLex fun i => toLex (.inl (v.numbers i)) := by
  funext i
  have hpart : (v.parts.getD i (.number 0)).isNumber = true := by
    rcases Part.getD_mem_or_zero v.parts i with hmem | hzero
    · exact h _ hmem
    · rw [hzero]
      rfl
  exact Part.rank_of_isNumber hpart

theorem Numeric.not_clash (hv : v.Numeric) (hw : w.Numeric) : ¬ Clash v w := by
  rintro ⟨front, a, b, as, bs, has, hbs, hmixed⟩
  have ha : a.isNumber = true := hv a (by rw [has]; simp)
  have hb : b.isNumber = true := hw b (by rw [hbs]; simp)
  exact Part.not_mixed ha hb hmixed

theorem Numeric.exists_compare (hv : v.Numeric) (hw : w.Numeric) (hv' : v.Unsigned) (hw' : w.Unsigned) :
    ∃ o, v.compare w = .ok o ∧ o.Compares v.numbers w.numbers := by
  rcases compare_settles hv' hw' with ⟨hclash, -⟩ | ⟨-, o, hok, horder⟩
  · exact absurd hclash (hv.not_clash hw)
  · rw [hv.rank_eq, hw.rank_eq] at horder
    exact ⟨o, hok, strictMono_inl.compares.mp horder⟩

theorem Numeric.holds_iff (hv : v.Numeric) (hw : w.Numeric) :
    q.Holds v.rank w.rank ↔ q.Holds v.numbers w.numbers := by
  rw [hv.rank_eq, hw.rank_eq]
  exact Relation.holds_map strictMono_inl

theorem exists_stands_parse {a b : String} (ha : (parse a).Numeric) (hb : (parse b).Numeric) :
    ∃ holds, (parse a).stands q (parse b) = .ok holds ∧
      (holds = true ↔ q.Holds (parse a).numbers (parse b).numbers) := by
  rw [← ha.holds_iff hb]
  exact exists_stands (unsigned_parse a) (unsigned_parse b) (ha.not_clash hb)

theorem stands_parse_iff {a b : String} (ha : (parse a).Numeric) (hb : (parse b).Numeric) :
    (parse a).stands q (parse b) = .ok true ↔ q.Holds (parse a).numbers (parse b).numbers := by
  rw [← ha.holds_iff hb]
  exact stands_iff (unsigned_parse a) (unsigned_parse b) (ha.not_clash hb)

theorem numeric_none : none.Numeric := by decide

/-- Only zeros count as none at all. -/
theorem Numeric.numbers_eq_none_iff (h : v.Numeric) :
    v.numbers = none.numbers ↔ ∀ p ∈ v.parts, p = .number 0 := by
  have hnone : ∀ i, none.numbers i = 0 := by
    intro i
    cases i <;> rfl
  constructor
  · intro heq p hp
    obtain ⟨i, hi⟩ := List.mem_iff_getElem?.mp hp
    have hvalue : p.value = 0 := by
      have hat : v.numbers i = 0 := by rw [heq, hnone]
      simpa [numbers, List.getD_eq_getElem?_getD, hi] using hat
    cases p with
    | number n => rw [show n = 0 from hvalue]
    | word s => cases h _ hp
  · intro hzero
    funext i
    rw [hnone]
    have hat : v.parts.getD i (.number 0) = .number 0 := by
      rcases Part.getD_mem_or_zero v.parts i with hmem | hout
      · exact hzero _ hmem
      · exact hout
    show (v.parts.getD i (.number 0)).value = 0
    rw [hat]
    rfl

/-- Zeros at the end change nothing. -/
theorem numbers_append_zeros {k : Nat} (h : w.parts = v.parts ++ List.replicate k (.number 0)) :
    w.numbers = v.numbers := by
  funext i
  show (w.parts.getD i (.number 0)).value = (v.parts.getD i (.number 0)).value
  rw [h, List.getD_eq_getElem?_getD, List.getD_eq_getElem?_getD]
  by_cases hi : i < v.parts.length
  · rw [List.getElem?_append_left hi]
  · rw [List.getElem?_append_right (by omega), List.getElem?_replicate, List.getElem?_eq_none (by omega)]
    split_ifs <;> rfl

/-- **Versions of numbers are totally preordered, and zeros at their end do not count.**  Between
    texts whose parts are all numbers:

    * the comparison succeeds, and its outcome is that of the sequences of numbers, with zeros after
      the last one, at their first difference; turned round, the outcome is the opposite one;
    * each relation holds exactly if it holds between the two sequences, which are linearly ordered;
      all but "not equal" are transitive, and a version is equal to what zeros make of it at its
      end;
    * a version counts as none exactly if all its parts are zero, or it has no part.

    The parts of any text are taken by passes that lead to a place where no pass is possible, and no more
    passes than the text has characters can follow each other. -/
theorem compare_numeric :
    (∀ a b : String, (parse a).Numeric → (parse b).Numeric →
      (∃ o, (parse a).compare (parse b) = .ok o ∧ o.Compares (parse a).numbers (parse b).numbers ∧
        (parse b).compare (parse a) = .ok o.swap) ∧
      (∀ q, ∃ holds, (parse a).stands q (parse b) = .ok holds ∧
        (holds = true ↔ q.Holds (parse a).numbers (parse b).numbers)) ∧
      ∀ k, (parse b).parts = (parse a).parts ++ List.replicate k (.number 0) →
        (parse a).stands .equal (parse b) = .ok true) ∧
    (∀ a b c : String, (parse a).Numeric → (parse b).Numeric → (parse c).Numeric → ∀ q ≠ .notEqual,
      (parse a).stands q (parse b) = .ok true → (parse b).stands q (parse c) = .ok true →
        (parse a).stands q (parse c) = .ok true) ∧
    (∀ a : String, (parse a).Numeric →
      ∃ empty, (parse a).isEmpty = .ok empty ∧ (empty = true ↔ ∀ p ∈ (parse a).parts, p = .number 0)) ∧
    ∀ a : String,
      (∃ rest, Part.Passes a.toList (parse a).parts rest ∧ ∀ p t, ¬ Part.Pass rest p t) ∧
      ∀ ps t, Part.Passes a.toList ps t → ps.length ≤ a.toList.length := by
  refine ⟨?_, ?_, ?_, ?_⟩
  · intro a b ha hb
    obtain ⟨o, hok, horder⟩ := ha.exists_compare hb (unsigned_parse a) (unsigned_parse b)
    obtain ⟨o', hok', horder'⟩ := hb.exists_compare ha (unsigned_parse b) (unsigned_parse a)
    have hswap : o' = o.swap := horder'.inj horder.swap
    refine ⟨⟨o, hok, horder, hswap ▸ hok'⟩, ?_, ?_⟩
    · intro q
      exact exists_stands_parse ha hb
    · intro k hzeros
      apply (stands_parse_iff ha hb).mpr
      exact (numbers_append_zeros hzeros).symm
  · intro a b c ha hb hc q hq hab hbc
    have hab' := (stands_parse_iff ha hb).mp hab
    have hbc' := (stands_parse_iff hb hc).mp hbc
    apply (stands_parse_iff ha hc).mpr
    exact hab'.trans hq hbc'
  · intro a ha
    obtain ⟨o, hok, horder⟩ := ha.exists_compare numeric_none (unsigned_parse a) unsigned_none
    refine ⟨o == .eq, by rw [isEmpty, hok]; rfl, ?_⟩
    rw [beq_iff_eq, horder.eq_eq, ha.numbers_eq_none_iff]
  · intro a
    refine ⟨Part.readAll_eq_iff.mp rfl, ?_⟩
    intro ps t hpasses
    have hlength := hpasses.length_le
    omega

/-- Numbers of two digits, zeros at the end, and a text that is not read to its end. -/
theorem compare_numeric_ten :
    (parse "1.10").Numeric ∧ (parse "1.9.3").Numeric ∧ (parse "1.10.0-0").Numeric ∧
    (parse "0.0!rc").Numeric ∧
      (parse "1.9.3").numbers < (parse "1.10").numbers ∧
      (parse "1.10").stands .equal (parse "1.10.0-0") = .ok true ∧
      (parse "1.9.3").stands .lessOrEqual (parse "1.10.0-0") = .ok true ∧
      (parse "0.0!rc").isEmpty = .ok true := by
  obtain ⟨hpairs, htrans, hempty, -⟩ := compare_numeric
  have hten : (parse "1.10").Numeric := by decide +kernel
  have hnine : (parse "1.9.3").Numeric := by decide +kernel
  have hlong : (parse "1.10.0-0").Numeric := by decide +kernel
  have hzero : (parse "0.0!rc").Numeric := by decide +kernel
  refine ⟨hten, hnine, hlong, hzero, ?_, ?_, ?_, ?_⟩
  · obtain ⟨holds, hok, hiff⟩ := (hpairs _ _ hnine hten).2.1 .less
    have hless : (parse "1.9.3").stands .less (parse "1.10") = .ok true := by decide +kernel
    rw [hok, Except.ok.injEq] at hless
    exact hiff.mp hless
  · exact (hpairs _ _ hten hlong).2.2 2 (by decide +kernel)
  · exact htrans _ _ _ hnine hten hlong .lessOrEqual (by decide) (by decide +kernel) (by decide +kernel)
  · obtain ⟨empty, hok, hiff⟩ := hempty _ hzero
    rw [hok, hiff.mpr (by decide +kernel)]

end Version

/-! ## Requirements -/

namespace Requirement

variable {r : Requirement} {rs : List Requirement} {text : String} {v : Version}

/-- The versions of requirements that were read are unsigned, as all parts are that are read. -/
theorem unsigned_of_parseAll (hread : parseAll text = .ok rs) (hr : r ∈ rs) : r.version.Unsigned := by
  obtain ⟨spec, -, hspec⟩ := (Failure.mem_mapM_iff hread).mp hr
  unfold ofSpec at hspec
  obtain ⟨relation, -, hout⟩ := Failure.bind_eq_ok_iff.mp hspec
  cases hout
  by_cases hnone : spec.version.isEmpty = true
  · simp only [hnone, if_true]
    exact Version.unsigned_none
  · simp only [hnone]
    exact Version.unsigned_parse _

/-- All that can come of a requirement: two relations are not asked of the versions, and the others
    need versions that do not clash. -/
theorem metBy_cases (hv : v.Unsigned) (hr : r.version.Unsigned) :
    r.relation = .any ∧ r.metBy v = .ok true ∨
    r.relation = .greater ∧ r.metBy v = .error .undefinedName ∨
    (r.relation ≠ .any ∧ r.relation ≠ .greater) ∧
      (v.Clash r.version ∧ r.metBy v = .error .wrongType ∨
        ¬ v.Clash r.version ∧
          ∃ met, r.metBy v = .ok met ∧ (met = true ↔ r.relation.Holds v.rank r.version.rank)) := by
  by_cases hany : r.relation = .any
  · exact Or.inl ⟨hany, by rw [metBy, hany]⟩
  by_cases hgreater : r.relation = .greater
  · exact Or.inr (Or.inl ⟨hgreater, by rw [metBy, hgreater]⟩)
  have hstands : r.metBy v = v.stands r.relation r.version := by
    unfold metBy Version.stands
    cases h : r.relation with
    | any => exact absurd h hany
    | greater => exact absurd h hgreater
    | _ => rfl
  refine Or.inr (Or.inr ⟨⟨hany, hgreater⟩, ?_⟩)
  rw [hstands]
  by_cases hclash : v.Clash r.version
  · rcases Version.compare_settles hv hr with ⟨-, herror⟩ | ⟨hclear, -⟩
    · exact Or.inl ⟨hclash, by rw [Version.stands, herror]; rfl⟩
    · exact absurd hclash hclear
  · exact Or.inr ⟨hclash, Version.exists_stands hv hr hclash⟩

/-- **Which requirements are decided, and how.**  Take a requirement that was read from a text, and
    any version text.  The requirement is decided exactly if any version will do, or its relation is
    not "greater" and the two versions do not clash.  Where it is decided, it is met exactly if the
    relation holds between the places of the two versions.  Versions that do not clash are less,
    equal or greater, and one of them only.  The relation "greater" always fails as an undefined
    name, and the other relations fail on a clash because a number is compared with a word. -/
theorem metBy_decided_iff (text : String) (rs : List Requirement) (hread : parseAll text = .ok rs)
    (r : Requirement) (hr : r ∈ rs) (v : String) :
    ((∃ met, r.metBy (.parse v) = .ok met) ↔
      r.relation = .any ∨ r.relation ≠ .greater ∧ ¬ (Version.parse v).Clash r.version) ∧
    (∀ met, r.metBy (.parse v) = .ok met →
      (met = true ↔ r.relation.Holds (Version.parse v).rank r.version.rank)) ∧
    (¬ (Version.parse v).Clash r.version →
      ∃! q, q ∈ [.less, .equal, .greater] ∧ (Version.parse v).stands q r.version = .ok true) ∧
    (r.relation = .greater → r.metBy (.parse v) = .error .undefinedName) ∧
    ((Version.parse v).Clash r.version → r.relation ≠ .any → r.relation ≠ .greater →
      r.metBy (.parse v) = .error .wrongType) := by
  have hv : (Version.parse v).Unsigned := Version.unsigned_parse v
  have hw : r.version.Unsigned := unsigned_of_parseAll hread hr
  have hone : ¬ (Version.parse v).Clash r.version →
      ∃! q, q ∈ [.less, .equal, .greater] ∧ (Version.parse v).stands q r.version = .ok true := by
    intro hclear
    simp only [Version.stands_iff hv hw hclear]
    exact Relation.existsUnique_holds _ _
  rcases metBy_cases hv hw with
    ⟨hany, hok⟩ | ⟨hgreater, herror⟩ |
    ⟨⟨hany, hgreater⟩, ⟨hclash, herror⟩ | ⟨hclear, met, hok, hiff⟩⟩
  · refine ⟨by simp [hok, hany], ?_, hone, by simp [hany], by simp [hany]⟩
    intro met hmet
    rw [hok] at hmet
    cases hmet
    simp [hany, Relation.Holds]
  · exact ⟨by simp [herror, hgreater], by simp [herror], hone, by simp [herror], by simp [hgreater]⟩
  · exact ⟨by simp [herror, hany, hclash], by simp [herror], hone, by simp [hgreater], by simp [herror]⟩
  · refine ⟨by simp [hok, hgreater, hclear], ?_, hone, by simp [hgreater], by simp [hclear]⟩
    intro met' hmet
    rw [hok] at hmet
    cases hmet
    exact hiff

/-- A word is decided against a word that follows it, and clashes with a number. -/
theorem metBy_decided_iff_words :
    parseAll "base >= 1.a" = .ok [⟨"base", .greaterOrEqual, .parse "1.a"⟩] ∧
      (Version.parse "1.a").rank ≤ (Version.parse "1.b").rank ∧
      metBy ⟨"base", .greaterOrEqual, .parse "1.a"⟩ (.parse "1.1") = .error .wrongType := by
  have hread : parseAll "base >= 1.a" = .ok [⟨"base", .greaterOrEqual, .parse "1.a"⟩] := by
    decide +kernel
  have hdecided := metBy_decided_iff _ _ hread _ (List.mem_singleton_self _)
  refine ⟨hread, ?_, ?_⟩
  · obtain ⟨-, hmet, -⟩ := hdecided "1.b"
    exact (hmet true (by decide +kernel)).mp rfl
  · obtain ⟨-, -, -, -, hfails⟩ := hdecided "1.1"
    have hclash : (Version.parse "1.1").Clash (.parse "1.a") :=
      ⟨[.number 1], .number 1, .word "a", [], [], by decide +kernel, by decide +kernel, trivial⟩
    exact hfails hclash (by decide) (by decide)

/-- **Not every requirement is decided against every version.**  One asks for a greater version, and
    the other has a word where the version has a number. -/
theorem requirements_undecided :
    ∃ greater other : Requirement, parseAll "base > 1, base != 1.a" = .ok [greater, other] ∧
      greater.relation = .greater ∧ greater.metBy (.parse "2") = .error .undefinedName ∧
      other.relation = .notEqual ∧ other.metBy (.parse "1.1") = .error .wrongType :=
  ⟨⟨"base", .greater, .parse "1"⟩, ⟨"base", .notEqual, .parse "1.a"⟩, by decide +kernel, rfl, rfl, rfl,
    by decide +kernel⟩

end Requirement

end BuildMeta.Pkg
