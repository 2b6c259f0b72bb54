/-!
# Tables

A table holds values under text keys in the order in which the keys were first set.  Setting a key
again keeps its place, so no key occurs twice: every table carries the proof of this.
-/

namespace BuildMeta

/-- Values under distinct text keys, in the order of first insertion. -/
structure Table (α : Type) where
  entries : List (String × α)
  nodup : (entries.map Prod.fst).Nodup
deriving Repr

namespace Table

variable {α β : Type}

theorem ext {s t : Table α} (h : s.entries = t.entries) : s = t := by
  cases s; cases t; cases h; rfl

instance [BEq α] : BEq (Table α) := ⟨fun s t => s.entries == t.entries⟩

instance [DecidableEq α] : DecidableEq (Table α) := fun s t =>
  if h : s.entries = t.entries then .isTrue (ext h) else .isFalse fun e => h (e ▸ rfl)

/-- The table without keys. -/
def empty : Table α := ⟨[], List.nodup_nil⟩

instance : EmptyCollection (Table α) := ⟨empty⟩

instance : Inhabited (Table α) := ⟨empty⟩

/-- The value under a key. -/
def get? (t : Table α) (key : String) : Option α := t.entries.lookup key

/-- The value under a key, or a default. -/
def getD (t : Table α) (key : String) (default : α) : α := (t.get? key).getD default

/-- Whether a key is set. -/
def has (t : Table α) (key : String) : Bool := (t.get? key).isSome

/-- The keys in order. -/
def keys (t : Table α) : List String := t.entries.map Prod.fst

/-- The values in the order of their keys. -/
def values (t : Table α) : List α := t.entries.map Prod.snd

/-- Replaces the value under a key of an entry list, or adds the key at the end. -/
def setEntry (key : String) (value : α) : List (String × α) → List (String × α)
  | [] => [(key, value)]
  | (k, v) :: rest => if k = key then (k, value) :: rest else (k, v) :: setEntry key value rest

/-- Setting a key that is there keeps the keys; any other key goes to their end. -/
theorem keys_setEntry (key : String) (value : α) (l : List (String × α)) :
    (setEntry key value l).map Prod.fst
      = if key ∈ l.map Prod.fst then l.map Prod.fst else l.map Prod.fst ++ [key] := by
  induction l with
  | nil => rfl
  | cons e rest ih =>
    obtain ⟨k, v⟩ := e
    unfold setEntry
    by_cases hk : k = key
    · simp [hk]
    · have hk' : key ≠ k := fun h => hk h.symm
      by_cases hm : key ∈ rest.map Prod.fst
      · rw [if_pos hm] at ih
        rw [if_neg hk, List.map_cons, ih, List.map_cons,
          if_pos (List.mem_cons_of_mem _ hm)]
      · rw [if_neg hm] at ih
        rw [if_neg hk, List.map_cons, ih, List.map_cons,
          if_neg (by simp only [List.mem_cons, not_or]; exact ⟨hk', hm⟩), List.cons_append]

theorem nodup_setEntry {l : List (String × α)} (h : (l.map Prod.fst).Nodup) (key : String)
    (value : α) : ((setEntry key value l).map Prod.fst).Nodup := by
  rw [keys_setEntry]
  by_cases hm : key ∈ l.map Prod.fst
  · rw [if_pos hm]; exact h
  · rw [if_neg hm, List.nodup_append]
    refine ⟨h, by simp, ?_⟩
    intro a ha b hb hab
    rw [List.mem_singleton] at hb
    exact hm (hb ▸ hab ▸ ha)

/-- Sets the value under a key. -/
def set (t : Table α) (key : String) (value : α) : Table α :=
  ⟨setEntry key value t.entries, nodup_setEntry t.nodup key value⟩

/-- Keeps the entries that a test accepts. -/
def filter (p : String → α → Bool) (t : Table α) : Table α :=
  ⟨t.entries.filter fun (k, v) => p k v, t.nodup.sublist (List.filter_sublist.map _)⟩

/-- Removes a key. -/
def erase (t : Table α) (key : String) : Table α := t.filter fun k _ => k != key

/-- Applies a function to every entry. -/
def mapEntries (f : String → α → β) (t : Table α) : Table β :=
  ⟨t.entries.map fun (k, v) => (k, f k v), by rw [List.map_map]; exact t.nodup⟩

/-- Applies a function to every value. -/
def map (f : α → β) (t : Table α) : Table β := t.mapEntries fun _ => f

/-- Sets every entry of a list in turn. -/
def setAll (t : Table α) (entries : List (String × α)) : Table α :=
  entries.foldl (fun t (k, v) => t.set k v) t

/-- The table that results from setting the entries in turn. -/
def ofList (entries : List (String × α)) : Table α := empty.setAll entries

/-- The number of keys. -/
def size (t : Table α) : Nat := t.entries.length

/-! ## Looking up after setting -/

theorem lookup_setEntry (key other : String) (value : α) (l : List (String × α)) :
    (setEntry key value l).lookup other
      = if other == key then some value else l.lookup other := by
  induction l with
  | nil => by_cases h : other == key <;> simp [setEntry, List.lookup_cons, h]
  | cons e rest ih =>
    obtain ⟨k, v⟩ := e
    unfold setEntry
    by_cases hk : k = key
    · subst hk
      by_cases ho : other == k <;> simp [List.lookup_cons, ho]
    · rw [if_neg hk]
      by_cases ho : other = k
      · subst ho
        simp [hk]
      · have ho' : (other == k) = false := by simpa using ho
        simp [List.lookup_cons, ho', ih]

/-- Looking up after setting finds the new value under the key and the old ones elsewhere. -/
theorem get?_set (t : Table α) (key other : String) (value : α) :
    (t.set key value).get? other = if other == key then some value else t.get? other :=
  lookup_setEntry key other value t.entries

@[simp] theorem get?_set_self (t : Table α) (key : String) (value : α) :
    (t.set key value).get? key = some value := by
  simp [get?_set]

theorem get?_set_of_ne (t : Table α) {key other : String} (value : α) (h : other ≠ key) :
    (t.set key value).get? other = t.get? other := by
  simp [get?_set, h]

/-- An entry of a table after setting a key is the new one or an old one. -/
theorem of_get?_set {t : Table α} {key other : String} {value v : α}
    (h : (t.set key value).get? other = some v) :
    other = key ∧ v = value ∨ other ≠ key ∧ t.get? other = some v := by
  by_cases hk : other = key
  · rw [hk, get?_set_self, Option.some.injEq] at h
    exact Or.inl ⟨hk, h.symm⟩
  · rw [get?_set_of_ne _ _ hk] at h
    exact Or.inr ⟨hk, h⟩

/-! ## Keys -/

theorem mem_entries_of_lookup {l : List (String × α)} {key : String} {value : α}
    (h : l.lookup key = some value) : (key, value) ∈ l := by
  induction l with
  | nil => exact absurd h (by simp)
  | cons e rest ih =>
    obtain ⟨k, v⟩ := e
    by_cases hk : key = k
    · subst hk
      rw [List.lookup_cons_self, Option.some.injEq] at h
      exact h ▸ List.mem_cons_self
    · rw [List.lookup_cons, beq_false_of_ne hk] at h
      exact List.mem_cons_of_mem _ (ih h)

theorem lookup_of_mem_entries {l : List (String × α)} (hl : (l.map Prod.fst).Nodup)
    {key : String} {value : α} (h : (key, value) ∈ l) : l.lookup key = some value := by
  induction l with
  | nil => exact absurd h List.not_mem_nil
  | cons e rest ih =>
    obtain ⟨k, v⟩ := e
    rw [List.map_cons, List.nodup_cons] at hl
    rcases List.mem_cons.mp h with he | hr
    · cases he
      exact List.lookup_cons_self
    · have hmem : key ∈ rest.map Prod.fst := List.mem_map_of_mem hr
      have hk : key ≠ k := fun e => hl.1 (e ▸ hmem)
      rw [List.lookup_cons, beq_false_of_ne hk]
      exact ih hl.2 hr

/-- A key has a value if and only if the two are an entry. -/
theorem get?_eq_some_iff {t : Table α} {key : String} {value : α} :
    t.get? key = some value ↔ (key, value) ∈ t.entries :=
  ⟨mem_entries_of_lookup, lookup_of_mem_entries t.nodup⟩

theorem mem_keys_iff {t : Table α} {key : String} :
    key ∈ t.keys ↔ ∃ value, t.get? key = some value := by
  unfold keys
  rw [List.mem_map]
  constructor
  · rintro ⟨⟨k, v⟩, hm, rfl⟩
    exact ⟨v, get?_eq_some_iff.mpr hm⟩
  · rintro ⟨v, hv⟩
    exact ⟨(key, v), get?_eq_some_iff.mp hv, rfl⟩

theorem mem_keys_of_get? {t : Table α} {key : String} {value : α}
    (h : t.get? key = some value) : key ∈ t.keys := mem_keys_iff.mpr ⟨value, h⟩

theorem get?_eq_none_iff {t : Table α} {key : String} : t.get? key = none ↔ key ∉ t.keys := by
  rw [mem_keys_iff]
  cases h : t.get? key <;> simp

theorem has_iff {t : Table α} {key : String} : t.has key = true ↔ key ∈ t.keys := by
  unfold has
  rw [Option.isSome_iff_exists, mem_keys_iff]

@[simp] theorem keys_empty : (∅ : Table α).keys = [] := rfl

@[simp] theorem get?_empty (key : String) : (∅ : Table α).get? key = none := rfl

theorem mem_keys_set {t : Table α} {key other : String} {value : α} :
    other ∈ (t.set key value).keys ↔ other = key ∨ other ∈ t.keys := by
  rw [mem_keys_iff, mem_keys_iff]
  by_cases h : other = key
  · subst h; simp
  · simp [get?_set, h]

/-- A new key makes a table one larger. -/
theorem size_set_of_not_mem {t : Table α} {key : String} (value : α) (h : key ∉ t.keys) :
    (t.set key value).size = t.size + 1 := by
  have hk := keys_setEntry key value t.entries
  rw [if_neg (show key ∉ t.entries.map Prod.fst from h)] at hk
  have hlen := congrArg List.length hk
  simpa [size, set] using hlen

theorem setEntry_eq_self {l : List (String × α)} {key : String} {value : α}
    (h : l.lookup key = some value) : setEntry key value l = l := by
  induction l with
  | nil => exact absurd h (by simp)
  | cons e rest ih =>
    obtain ⟨k, v⟩ := e
    unfold setEntry
    by_cases hk : key = k
    · subst hk
      rw [List.lookup_cons_self, Option.some.injEq] at h
      rw [if_pos rfl, h]
    · rw [List.lookup_cons, beq_false_of_ne hk] at h
      rw [if_neg (Ne.symm hk), ih h]

/-- Setting a key to the value that it has changes nothing. -/
theorem set_eq_self {t : Table α} {key : String} {value : α} (h : t.get? key = some value) :
    t.set key value = t := ext (setEntry_eq_self h)

/-! ## Tables made from others -/

theorem get?_mapEntries (f : String → α → β) (t : Table α) (key : String) :
    (t.mapEntries f).get? key = (t.get? key).map (f key) := by
  show (t.entries.map fun (k, v) => (k, f k v)).lookup key = (t.entries.lookup key).map (f key)
  induction t.entries with
  | nil => rfl
  | cons e rest ih =>
    obtain ⟨k, v⟩ := e
    by_cases hk : key = k
    · subst hk
      simp
    · have hk' : (key == k) = false := beq_false_of_ne hk
      simp [List.lookup_cons, hk', ih]

theorem get?_map (f : α → β) (t : Table α) (key : String) :
    (t.map f).get? key = (t.get? key).map f := get?_mapEntries (fun _ => f) t key

@[simp] theorem keys_map (f : α → β) (t : Table α) : (t.map f).keys = t.keys := by
  show (t.entries.map fun (k, v) => (k, f v)).map Prod.fst = t.entries.map Prod.fst
  rw [List.map_map]
  rfl

/-- The entries of a filtered table are those that pass the test. -/
theorem get?_filter_eq_some_iff {p : String → α → Bool} {t : Table α} {key : String} {value : α} :
    (t.filter p).get? key = some value ↔ t.get? key = some value ∧ p key value = true := by
  rw [get?_eq_some_iff, get?_eq_some_iff]
  exact List.mem_filter

theorem mem_values_iff {t : Table α} {value : α} :
    value ∈ t.values ↔ ∃ key, t.get? key = some value := by
  simp only [values, List.mem_map, get?_eq_some_iff]
  constructor
  · rintro ⟨⟨k, v⟩, hm, rfl⟩
    exact ⟨k, hm⟩
  · rintro ⟨k, hm⟩
    exact ⟨(k, value), hm, rfl⟩

theorem mem_keys_setAll {t : Table α} {l : List (String × α)} {key : String} :
    key ∈ (t.setAll l).keys ↔ key ∈ t.keys ∨ key ∈ l.map Prod.fst := by
  induction l generalizing t with
  | nil => simp [setAll]
  | cons e rest ih =>
    show key ∈ ((t.set e.1 e.2).setAll rest).keys ↔ _
    rw [ih, mem_keys_set, List.map_cons, List.mem_cons]
    constructor
    · rintro ((h | h) | h)
      · exact Or.inr (Or.inl h)
      · exact Or.inl h
      · exact Or.inr (Or.inr h)
    · rintro (h | h | h)
      · exact Or.inl (Or.inr h)
      · exact Or.inl (Or.inl h)
      · exact Or.inr h

theorem mem_of_get?_setAll {t : Table α} {l : List (String × α)} {key : String} {value : α}
    (h : (t.setAll l).get? key = some value) : (key, value) ∈ l ∨ t.get? key = some value := by
  induction l generalizing t with
  | nil => exact Or.inr h
  | cons e rest ih =>
    rcases ih (t := t.set e.1 e.2) h with hrest | hset
    · exact Or.inl (List.mem_cons_of_mem _ hrest)
    · rcases of_get?_set hset with ⟨rfl, rfl⟩ | ⟨_, hold⟩
      · exact Or.inl List.mem_cons_self
      · exact Or.inr hold

/-- The keys of a table made from a list are those of the list. -/
theorem mem_keys_ofList {l : List (String × α)} {key : String} :
    key ∈ (ofList l).keys ↔ key ∈ l.map Prod.fst := by
  have hempty : key ∉ (empty : Table α).keys := List.not_mem_nil
  rw [ofList, mem_keys_setAll]
  exact ⟨fun h => h.resolve_left hempty, Or.inr⟩

/-- The entries of a table made from a list are entries of the list. -/
theorem mem_of_get?_ofList {l : List (String × α)} {key : String} {value : α}
    (h : (ofList l).get? key = some value) : (key, value) ∈ l := by
  rcases mem_of_get?_setAll h with hl | he
  · exact hl
  · cases he

/-! ## Growing tables -/

/-- A later table keeps the entries of an earlier one. -/
def Extends (t t' : Table α) : Prop :=
  ∀ ⦃key value⦄, t.get? key = some value → t'.get? key = some value

theorem Extends.refl (t : Table α) : Extends t t := fun _ _ h => h

theorem Extends.trans {t₁ t₂ t₃ : Table α} (h : Extends t₁ t₂) (h' : Extends t₂ t₃) :
    Extends t₁ t₃ := fun _ _ hk => h' (h hk)

theorem Extends.mem_keys {t t' : Table α} (h : Extends t t') {key : String} (hk : key ∈ t.keys) :
    key ∈ t'.keys := by
  obtain ⟨value, hv⟩ := mem_keys_iff.mp hk
  exact mem_keys_of_get? (h hv)

/-- Setting a key keeps the entries if the key has no other value before. -/
theorem extends_set {t : Table α} {key : String} {value : α}
    (h : ∀ old, t.get? key = some old → old = value) : Extends t (t.set key value) := by
  intro other v hget
  by_cases hne : other = key
  · subst hne
    rw [get?_set_self, h v hget]
  · rw [get?_set_of_ne _ _ hne]
    exact hget

end Table

end BuildMeta
