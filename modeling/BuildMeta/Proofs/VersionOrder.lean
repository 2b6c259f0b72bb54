import BuildMeta.VersionOrder
import BuildMeta.Proofs.Text.Cut
import Mathlib

/-!
# `Proofs.VersionOrder` — versions between bounds

A version is read as an endless sequence of parts: zeros follow its last one.  Each part has a `Reading`,
and readings are partially ordered: numbers as integers, any other text related to itself only.  The
order of versions, `Precedes`, lets the first difference decide.

* `precedes_iff_lex` — it is the lexicographic order of the sequences of readings, and so a preorder;
* `ascends_padded_iff` — going through the rows of two lists decides it, whatever the common length that
  they were filled up to;
* `column_filled` — filling up in place gives all three lists that length, also where they share a cell;
* `within_interval` — so a version is within bounds exactly if it is in an interval of this preorder.
-/

namespace BuildMeta.VersionOrder

variable {a b : String} {as bs : List String}

/-! ## Parts -/

/-- How a part is read: an integer as a number, any other text as itself. -/
inductive Reading where
  | number (n : Int)
  | text (s : String)

/-- The reading of a part. -/
def reading (part : String) : Reading :=
  match Text.integer? part with
  | some n => .number n
  | none => .text part

/-- Numbers are ordered as integers, and a text is related to itself only. -/
inductive Reading.Le : Reading → Reading → Prop
  | number {m n : Int} (h : m ≤ n) : Le (.number m) (.number n)
  | text (s : String) : Le (.text s) (.text s)

instance : PartialOrder Reading where
  le := Reading.Le
  le_refl r := by
    cases r with
    | number n => exact .number (le_refl n)
    | text s => exact .text s
  le_trans r s t hrs hst := by
    cases hrs with
    | number h =>
      cases hst with
      | number h' => exact .number (le_trans h h')
    | text s => exact hst
  le_antisymm r s hrs hsr := by
    cases hrs with
    | number h =>
      cases hsr with
      | number h' => rw [le_antisymm h h']
    | text s => rfl

/-- One reading is below another only if both are numbers. -/
theorem Reading.lt_iff {r s : Reading} : r < s ↔ ∃ m n, r = .number m ∧ s = .number n ∧ m < n := by
  rw [lt_iff_le_not_ge]
  constructor
  · rintro ⟨hle, hnot⟩
    cases hle with
    | @number m n h => exact ⟨m, n, rfl, rfl, lt_of_not_ge fun hge => hnot (.number hge)⟩
    | text s => exact absurd (Reading.Le.text s) hnot
  · rintro ⟨m, n, rfl, rfl, h⟩
    refine ⟨.number h.le, fun hge => ?_⟩
    cases hge with
    | number hge => exact absurd h (not_lt_of_ge hge)

@[simp] theorem Reading.number_lt_number {m n : Int} : number m < number n ↔ m < n := by
  simp [Reading.lt_iff]

/-- Two parts count as the same: as numbers if both are integers, else as texts. -/
def SamePart (a b : String) : Prop :=
  match Text.integer? a, Text.integer? b with
  | some m, some n => m = n
  | _, _ => a = b

/-- Both parts are integers, and the first one is the smaller number. -/
def LessPart (a b : String) : Prop :=
  ∃ m n, Text.integer? a = some m ∧ Text.integer? b = some n ∧ m < n

theorem reading_eq_number_iff {n : Int} : reading a = .number n ↔ Text.integer? a = some n := by
  unfold reading
  cases Text.integer? a <;> simp

/-- Parts are the same if they have the same reading.  An integer and a text that is none differ both as
    texts and as readings. -/
theorem samePart_iff : SamePart a b ↔ reading a = reading b := by
  unfold SamePart reading
  cases ha : Text.integer? a with
  | none =>
    cases hb : Text.integer? b with
    | none => simp
    | some n =>
      refine iff_of_false ?_ (by simp)
      rintro rfl
      rw [ha] at hb
      cases hb
  | some m =>
    cases hb : Text.integer? b with
    | none =>
      refine iff_of_false ?_ (by simp)
      rintro rfl
      rw [hb] at ha
      cases ha
    | some n => simp

theorem lessPart_iff : LessPart a b ↔ reading a < reading b := by
  simp only [LessPart, Reading.lt_iff, reading_eq_number_iff]

/-- The verdict on one pair of parts: a smaller number decides, and the same part leaves it to the
    rest. -/
theorem ascends_cons_iff {rest : List (String × String)} : ascends ((a, b) :: rest) = true ↔
    LessPart a b ∨ SamePart a b ∧ ascends rest = true := by
  rw [ascends]
  unfold compareParts LessPart SamePart
  cases ha : Text.integer? a with
  | none =>
    by_cases hab : a = b
    · simp [hab]
    · simp [hab]
  | some m =>
    cases hb : Text.integer? b with
    | none =>
      by_cases hab : a = b
      · simp [hab]
      · simp [hab]
    | some n =>
      rcases lt_trichotomy m n with hlt | rfl | hgt
      · simp [hlt]
      · simp
      · simp [hgt, hgt.not_gt, hgt.ne']

/-! ## Sequences of parts -/

/-- The part at a place of a sequence; zeros follow its end. -/
def partAt (parts : List String) (i : Nat) : String := parts.getD i "0"

theorem partAt_tail (parts : List String) (i : Nat) : partAt parts.tail i = partAt parts (i + 1) := by
  cases parts <;> rfl

/-- Compared from left to right, the parts are all the same, or the first that are not are integers in
    ascending order. -/
def Ordered (as bs : List String) : Prop :=
  (∀ i, SamePart (partAt as i) (partAt bs i)) ∨
  ∃ i, (∀ j < i, SamePart (partAt as j) (partAt bs j)) ∧ LessPart (partAt as i) (partAt bs i)

/-- The readings of the parts of a sequence. -/
def readings (parts : List String) (i : Nat) : Reading := reading (partAt parts i)

/-- Two sequences are in lexicographic order if they are equal or the first difference ascends. -/
theorem toLex_le_iff {α : Type} [PartialOrder α] {f g : Nat → α} : toLex f ≤ toLex g ↔
    (∀ i, f i = g i) ∨ ∃ i, (∀ j < i, f j = g j) ∧ f i < g i := by
  rw [le_iff_eq_or_lt, toLex_inj, funext_iff]
  rfl

theorem ordered_iff_lex : Ordered as bs ↔ toLex (readings as) ≤ toLex (readings bs) := by
  simp only [toLex_le_iff, Ordered, samePart_iff, lessPart_iff, readings]

/-- The first pair of parts decides, or leaves it to the pairs after it. -/
theorem ordered_iff_head (as bs : List String) : Ordered as bs ↔ LessPart (partAt as 0) (partAt bs 0) ∨
    SamePart (partAt as 0) (partAt bs 0) ∧ Ordered as.tail bs.tail := by
  simp only [Ordered, partAt_tail]
  constructor
  · rintro (hall | ⟨i, hbefore, hless⟩)
    · exact Or.inr ⟨hall 0, Or.inl fun i => hall (i + 1)⟩
    · cases i with
      | zero => exact Or.inl hless
      | succ i =>
        exact Or.inr ⟨hbefore 0 i.succ_pos, Or.inr ⟨i, fun j hj => hbefore (j + 1) (by omega), hless⟩⟩
  · rintro (hless | ⟨hsame, hall | ⟨i, hbefore, hless⟩⟩)
    · exact Or.inr ⟨0, fun j hj => absurd hj j.not_lt_zero, hless⟩
    · exact Or.inl fun i => i.casesOn hsame hall
    · refine Or.inr ⟨i + 1, fun j hj => ?_, hless⟩
      cases j with
      | zero => exact hsame
      | succ j => exact hbefore j (by omega)

theorem padded_succ {height : Nat} (h : as.length ≤ height + 1) :
    Columns.padded (height + 1) as = partAt as 0 :: Columns.padded height as.tail := by
  cases as with
  | nil => rfl
  | cons a as => simp [Columns.padded, partAt]

/-- **The comparison row by row decides the order of the sequences.**  It does not matter to which common
    length the two lists were filled up: beyond their ends there are zeros in both, which decide
    nothing. -/
theorem ascends_padded_iff {height : Nat} (ha : as.length ≤ height) (hb : bs.length ≤ height) :
    ascends ((Columns.padded height as).zip (Columns.padded height bs)) = true ↔ Ordered as bs := by
  induction height generalizing as bs with
  | zero =>
    rw [List.length_eq_zero_iff.mp (Nat.le_zero.mp ha), List.length_eq_zero_iff.mp (Nat.le_zero.mp hb)]
    exact iff_of_true rfl (ordered_iff_lex.mpr le_rfl)
  | succ height ih =>
    rw [padded_succ ha, padded_succ hb, List.zip_cons_cons, ascends_cons_iff, ordered_iff_head as bs,
      ih (by simpa using ha) (by simpa using hb)]

/-! ## Filling up in place -/

namespace Columns

variable {c : Columns} {height cell : Nat}

theorem length_padded (h : as.length ≤ height) : (padded height as).length = height := by
  simp [padded, h]

/-- A list that has been filled up stays as it is. -/
theorem padded_padded (height : Nat) (parts : List String) :
    padded height (padded height parts) = padded height parts := by
  have hfull : height - (padded height parts).length = 0 := by
    simp [padded]
    omega
  rw [padded, hfull, List.replicate_zero, List.append_nil]

/-- Whatever the cells that are filled up in turn, each of them is in the end as if it had been filled up
    once, and no other is touched. -/
theorem getD_fill {cells : List (List String)} {places : List Nat}
    (hplaces : ∀ p ∈ places, p < cells.length) :
    (places.foldl (fun cells place => cells.modify place (padded height)) cells).getD cell []
      = if cell ∈ places then padded height (cells.getD cell []) else cells.getD cell [] := by
  induction places generalizing cells with
  | nil => rfl
  | cons place rest ih =>
    obtain ⟨hplace, hrest⟩ := List.forall_mem_cons.mp hplaces
    have hmodify : (cells.modify place (padded height)).getD cell []
        = if cell = place then padded height (cells.getD cell []) else cells.getD cell [] := by
      simp only [List.getD_eq_getElem?_getD, List.getElem?_modify]
      by_cases hcell : place = cell
      · subst hcell
        simp [List.getElem?_eq_getElem hplace]
      · simp [hcell, Ne.symm hcell]
    rw [List.foldl_cons, ih fun p hp => by simpa using hrest p hp, hmodify]
    by_cases hcell : cell = place
    · simp [hcell, padded_padded]
    · simp [hcell]

/-- The cells of a version and of its bounds are there. -/
structure Placed (c : Columns) : Prop where
  version : c.version < c.cells.length
  least : c.least < c.cells.length
  greatest : c.greatest < c.cells.length

theorem placed_ofVersions (version : String) (least greatest : Option String) :
    (ofVersions version least greatest).Placed := by
  cases least <;> cases greatest <;> constructor <;> simp [ofVersions, opened]

/-- **All three lists have the common length after filling up**, and what is added is zeros.  A
    bound that has the cell of the version sees the version itself filled up, once. -/
theorem column_filled (h : c.Placed) (hcell : cell ∈ [c.version, c.least, c.greatest]) :
    c.filled.column cell = padded c.height (c.column cell) := by
  have hplaces : ∀ p ∈ [c.version, c.least, c.greatest], p < c.cells.length := by
    simp [h.version, h.least, h.greatest]
  rw [column, filled, getD_fill hplaces, if_pos hcell, column]

theorem length_column_le (hcell : cell ∈ [c.version, c.least, c.greatest]) :
    (c.column cell).length ≤ c.height := by
  simp only [List.mem_cons, List.not_mem_nil, or_false] at hcell
  unfold height
  rcases hcell with rfl | rfl | rfl <;> omega

theorem filled_rows (h : c.Placed) : c.filled.rows = (padded c.height (c.column c.version)).zip
    ((padded c.height (c.column c.least)).zip (padded c.height (c.column c.greatest))) := by
  have hcells : ∀ cell ∈ [c.version, c.least, c.greatest],
      c.filled.column cell = padded c.height (c.column cell) := fun _ => column_filled h
  unfold rows
  rw [← hcells c.version (by simp), ← hcells c.least (by simp), ← hcells c.greatest (by simp)]
  rfl

/-- The rows hold the least bound against the version. -/
theorem ascends_rows_least (h : c.Placed) :
    ascends (c.filled.rows.map fun row => (row.2.1, row.1)) = true
      ↔ Ordered (c.column c.least) (c.column c.version) := by
  have hversion : (c.column c.version).length ≤ c.height := length_column_le (by simp)
  have hleast : (c.column c.least).length ≤ c.height := length_column_le (by simp)
  have hgreatest : (c.column c.greatest).length ≤ c.height := length_column_le (by simp)
  have hrows : (c.filled.rows.map fun row => (row.2.1, row.1))
      = (padded c.height (c.column c.least)).zip (padded c.height (c.column c.version)) := by
    have hfirst : ((padded c.height (c.column c.least)).zip (padded c.height (c.column c.greatest))).map
        Prod.fst = padded c.height (c.column c.least) :=
      List.map_fst_zip (by rw [length_padded hleast, length_padded hgreatest])
    conv_rhs => rw [← hfirst, List.zip_map_left, ← List.zip_swap, List.map_map]
    rw [filled_rows h]
    rfl
  rw [hrows, ascends_padded_iff hleast hversion]

/-- The rows hold the version against the greatest bound. -/
theorem ascends_rows_greatest (h : c.Placed) :
    ascends (c.filled.rows.map fun row => (row.1, row.2.2)) = true
      ↔ Ordered (c.column c.version) (c.column c.greatest) := by
  have hversion : (c.column c.version).length ≤ c.height := length_column_le (by simp)
  have hleast : (c.column c.least).length ≤ c.height := length_column_le (by simp)
  have hgreatest : (c.column c.greatest).length ≤ c.height := length_column_le (by simp)
  have hrows : (c.filled.rows.map fun row => (row.1, row.2.2))
      = (padded c.height (c.column c.version)).zip (padded c.height (c.column c.greatest)) := by
    have hsecond : ((padded c.height (c.column c.least)).zip (padded c.height (c.column c.greatest))).map
        Prod.snd = padded c.height (c.column c.greatest) :=
      List.map_snd_zip (by rw [length_padded hleast, length_padded hgreatest])
    conv_rhs => rw [← hsecond, List.zip_map_right]
    rw [filled_rows h]
    rfl
  rw [hrows, ascends_padded_iff hversion hgreatest]

section OfVersions

variable (version bound : String) (least greatest : Option String)

theorem column_version : (ofVersions version least greatest).column
    (ofVersions version least greatest).version = Text.split '.' version := by
  cases least <;> cases greatest <;> rfl

theorem column_least : (ofVersions version (some bound) greatest).column
    (ofVersions version (some bound) greatest).least = Text.split '.' bound := by
  cases greatest <;> rfl

theorem column_greatest : (ofVersions version least (some bound)).column
    (ofVersions version least (some bound)).greatest = Text.split '.' bound := by
  cases least <;> rfl

end OfVersions

end Columns

/-! ## Versions -/

/-- The order of versions: that of their parts. -/
def Precedes (a b : String) : Prop := Ordered (Text.split '.' a) (Text.split '.' b)

instance : DecidableRel Precedes := fun a b =>
  decidable_of_iff _
    (ascends_padded_iff (le_max_left (Text.split '.' a).length (Text.split '.' b).length)
    (le_max_right (Text.split '.' a).length (Text.split '.' b).length))

/-- A version is within bounds if it is within each of them; the length of one bound has no say in the
    comparison with the other one. -/
theorem within_iff {version : String} {least greatest : Option String} :
    within version least greatest = true ↔
      (∀ m ∈ least, m ≠ "" → Precedes m version) ∧ ∀ m ∈ greatest, m ≠ "" → Precedes version m := by
  have hplaced := Columns.placed_ofVersions version (least.filter (· != "")) (greatest.filter (· != ""))
  unfold within
  simp only [Bool.and_eq_true, Bool.or_eq_true, Columns.ascends_rows_least hplaced,
    Columns.ascends_rows_greatest hplaced, Columns.column_version]
  refine and_congr ?_ ?_
  · cases hleast : least.filter (· != "") with
    | none => cases least <;> simp_all
    | some m =>
      obtain ⟨rfl, hm⟩ := Option.filter_eq_some_iff.mp hleast
      have hne : m ≠ "" := bne_iff_ne.mp hm
      simp [Columns.column_least, Precedes, hne]
  · cases hgreatest : greatest.filter (· != "") with
    | none => cases greatest <;> simp_all
    | some m =>
      obtain ⟨rfl, hm⟩ := Option.filter_eq_some_iff.mp hgreatest
      have hne : m ≠ "" := bne_iff_ne.mp hm
      simp [Columns.column_greatest, Precedes, hne]

theorem precedes_iff_lex :
    Precedes a b ↔ toLex (readings (Text.split '.' a)) ≤ toLex (readings (Text.split '.' b)) :=
  ordered_iff_lex

theorem split_append_zero (v : String) : Text.split '.' (v ++ ".0") = Text.split '.' v ++ ["0"] := by
  unfold Text.split
  rw [String.toList_append, show ".0".toList = ['.', '0'] from rfl, List.splitOn_append_cons_self,
    List.map_append]
  rfl

/-- A zero at the end says nothing new. -/
theorem partAt_append_zero (parts : List String) (i : Nat) :
    partAt (parts ++ ["0"]) i = partAt parts i := by
  unfold partAt
  simp only [List.getD_eq_getElem?_getD]
  rcases lt_trichotomy i parts.length with hlt | rfl | hgt
  · rw [List.getElem?_append_left hlt]
  · simp
  · rw [List.getElem?_eq_none (by simp; omega), List.getElem?_eq_none hgt.le]

theorem readings_append_zeros (k : Nat) (v : String) :
    readings (Text.split '.' ((· ++ ".0")^[k] v)) = readings (Text.split '.' v) := by
  induction k generalizing v with
  | zero => rfl
  | succ k ih =>
    rw [Function.iterate_succ_apply, ih, split_append_zero]
    funext i
    rw [readings, partAt_append_zero, readings]

/-! ## Versions of integers -/

/-- All parts of a version are integers. -/
def Integral (v : String) : Prop := ∀ part ∈ Text.split '.' v, Text.isInteger part = true

instance : DecidablePred Integral := fun v =>
  inferInstanceAs (Decidable (∀ part ∈ Text.split '.' v, Text.isInteger part = true))

/-- The numbers of a version, with zeros after the last one. -/
def numbers (v : String) (i : Nat) : Int := (Text.integer? (partAt (Text.split '.' v) i)).getD 0

/-- A version of integers is read as their numbers, with zeros behind them. -/
theorem readings_of_integral {v : String} (h : Integral v) :
    readings (Text.split '.' v) = fun i => .number (numbers v i) := by
  funext i
  have hsome : (Text.integer? (partAt (Text.split '.' v) i)).isSome = true := by
    unfold partAt
    rw [List.getD_eq_getElem?_getD]
    cases hget : (Text.split '.' v)[i]? with
    | none => rfl
    | some part => exact h part (List.mem_of_getElem? hget)
  obtain ⟨n, hn⟩ := Option.isSome_iff_exists.mp hsome
  rw [readings, reading_eq_number_iff, numbers, hn, Option.getD_some]

theorem precedes_iff_numbers (ha : Integral a) (hb : Integral b) :
    Precedes a b ↔ toLex (numbers a) ≤ toLex (numbers b) := by
  rw [precedes_iff_lex, readings_of_integral ha, readings_of_integral hb]
  simp only [toLex_le_iff, Reading.number.injEq, Reading.number_lt_number]

/-- **A version is within bounds exactly if it is in an interval of a preorder.**  A missing or
    empty bound does not restrict.  The order is reflexive and transitive on all texts, also where
    numbers and other texts stand at the same place, and zeros after the last part change nothing.
    Between versions of integers it is total: the lexicographic order of the numbers. -/
theorem within_interval :
    (∀ version least greatest, within version least greatest = true ↔
      (least = none ∨ least = some "" ∨ ∃ m, least = some m ∧ Precedes m version) ∧
      (greatest = none ∨ greatest = some "" ∨ ∃ m, greatest = some m ∧ Precedes version m)) ∧
    (∀ a, Precedes a a) ∧
    (∀ a b c, Precedes a b → Precedes b c → Precedes a c) ∧
    (∀ a b k l, Precedes ((· ++ ".0")^[k] a) ((· ++ ".0")^[l] b) ↔ Precedes a b) ∧
    ∀ a b, Integral a → Integral b →
      (Precedes a b ∨ Precedes b a) ∧ (Precedes a b ↔ toLex (numbers a) ≤ toLex (numbers b)) := by
  refine ⟨?_, ?_, ?_, ?_, ?_⟩
  · intro version least greatest
    rw [within_iff]
    refine and_congr ?_ ?_
    · cases least <;> simp [or_iff_not_imp_left]
    · cases greatest <;> simp [or_iff_not_imp_left]
  · intro a
    exact precedes_iff_lex.mpr le_rfl
  · intro a b c hab hbc
    rw [precedes_iff_lex] at hab hbc ⊢
    exact hab.trans hbc
  · intro a b k l
    rw [precedes_iff_lex, precedes_iff_lex, readings_append_zeros, readings_append_zeros]
  · intro a b ha hb
    rw [precedes_iff_numbers ha hb, precedes_iff_numbers hb ha]
    exact ⟨le_total _ _, Iff.rfl⟩

/-- A compiler version between two bounds, the second of which is shorter; a text part is related to no
    number. -/
theorem within_interval_compiler :
    within "4.10" (some "4.9.3") (some "5") = true ∧ within "4.x" (some "4.9.3") (some "") = false ∧
    Precedes "4.9.3" "4.10" ∧ Precedes "4.9.3" "5.0.0" ∧ ¬ Precedes "4.9.3" "4.x" ∧
    Integral "4.9.3" ∧ Integral "4.10" ∧ toLex (numbers "4.9.3") ≤ toLex (numbers "4.10") := by
  obtain ⟨hwithin, _, htrans, hzeros, hintegral⟩ := within_interval
  have hin : within "4.10" (some "4.9.3") (some "5") = true := by cbv
  have hout : within "4.x" (some "4.9.3") (some "") = false := by cbv
  have hlow : Precedes "4.9.3" "4.10" := by simpa using ((hwithin _ _ _).mp hin).1
  have hhigh : Precedes "4.10" "5" := by simpa using ((hwithin _ _ _).mp hin).2
  have hdot : Integral "4.9.3" := by decide +kernel
  have hten : Integral "4.10" := by decide +kernel
  refine ⟨hin, hout, hlow, ?_, fun hx => ?_, hdot, hten, (hintegral _ _ hdot hten).2.mp hlow⟩
  · exact (hzeros "4.9.3" "5" 0 2).mpr (htrans _ _ _ hlow hhigh)
  · rw [(hwithin _ _ _).mpr ⟨Or.inr (Or.inr ⟨_, rfl, hx⟩), Or.inr (Or.inl rfl)⟩] at hout
    cases hout

end BuildMeta.VersionOrder
