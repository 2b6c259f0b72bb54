import BuildMeta.Proofs.Repo.Verified
import Mathlib.Data.List.TakeWhile

/-!
# `Proofs.Repo.Members` — adding units to a repository

A unit is added under a new name.  `MembersApart` says that no package belongs to two groups, which
is so in every loaded repository (`Proofs.Repo.Survey`).
-/

namespace BuildMeta

/-! ## Last parts of paths -/

namespace Path

theorem takeWhile_append_slash (path front : List Char) :
    (path ++ '/' :: front).takeWhile (· != '/') = path.takeWhile (· != '/') := by
  induction path with
  | nil => rfl
  | cons c rest ih =>
    by_cases hc : c = '/'
    · simp [hc]
    · simp [hc, ih]

theorem baseName_of_slash {p path : String} (front : List Char)
    (h : p.toList = front ++ '/' :: path.toList) : baseName p = baseName path := by
  unfold baseName
  rw [h, List.reverse_append, List.reverse_cons, List.append_assoc, List.singleton_append,
    takeWhile_append_slash]

/-- The last part of a path does not depend on the directory to which the path is joined. -/
theorem baseName_join (dir path : String) : baseName (join dir path) = baseName path := by
  unfold join
  by_cases habsolute : isAbsolute path = true
  · rw [if_pos habsolute]
  · rw [if_neg habsolute]
    by_cases hend : (dir == "" || Text.endsWith dir "/") = true
    · rw [if_pos hend]
      rcases Bool.or_eq_true_iff.mp hend with hempty | hslash
      · rw [beq_iff_eq.mp hempty, String.empty_append]
      · obtain ⟨front, hfront⟩ := List.isSuffixOf_iff_suffix.mp hslash
        refine baseName_of_slash front ?_
        rw [String.toList_append, ← hfront, List.append_assoc]
        rfl
    · rw [if_neg hend]
      refine baseName_of_slash dir.toList ?_
      rw [String.toList_append, String.toList_append, List.append_assoc]
      rfl

/-- A name without slashes is its own last part. -/
theorem baseName_of_not_mem {name : String} (h : '/' ∉ name.toList) : baseName name = name := by
  have hall : ∀ c ∈ name.toList.reverse, (c != '/') = true := by
    intro c hc
    rw [List.mem_reverse] at hc
    exact bne_iff_ne.mpr fun e => h (e ▸ hc)
  unfold baseName
  rw [List.takeWhile_eq_self_iff.mpr hall, List.reverse_reverse, String.ofList_toList]

end Path

namespace Context

variable {c c' : Context} {u : SourceUnit} {name : String}

/-- A context is given by its root and its units. -/
theorem eq_ok_of_parts {x : Except Failure Context}
    (h : (x.map fun c => (c.root, c.units)) = .ok (c.root, c.units)) :
    x = .ok c := by
  cases x with
  | error e => cases h
  | ok c' =>
    obtain ⟨root, units, named⟩ := c'
    obtain ⟨hroot, hunits⟩ := Prod.mk.inj (Except.ok.inj h)
    subst hroot hunits
    rfl

/-! ## Adding units -/

/-- A unit can be added if there is none of its name yet. -/
theorem add_ok : c.add u = .ok c' ↔ u.name ∉ c.units.keys ∧ c' = c.put u := by
  unfold add
  cases h : c.units.get? u.name with
  | none =>
    rw [Except.ok.injEq]
    exact ⟨fun e => ⟨Table.get?_eq_none_iff.mp h, e.symm⟩, fun e => e.2.symm⟩
  | some old =>
    constructor
    · intro e
      cases e
    · exact fun e => absurd (Table.mem_keys_of_get? h) e.1

theorem get?_put_of_ne (hname : name ≠ u.name) : (c.put u).units.get? name = c.units.get? name :=
  Table.get?_set_of_ne _ _ hname

theorem get?_put_self : (c.put u).units.get? u.name = some u := Table.get?_set_self _ _ _

theorem keys_put : (c.put u).units.keys
    = if u.name ∈ c.units.keys then c.units.keys else c.units.keys ++ [u.name] :=
  Table.keys_setEntry u.name u c.units.entries

/-! ## Groups apart -/

/-- No package is listed by two groups. -/
def MembersApart (c : Context) : Prop :=
  ∀ ⦃name name' u v m⦄, c.units.get? name = some u → c.units.get? name' = some v →
    u.kind = .group → v.kind = .group → m ∈ u.members → m ∈ v.members → name = name'

/-- Whether groups share packages is decided entry by entry. -/
theorem membersApart_of_entries (h : ∀ e ∈ c.units.entries, ∀ e' ∈ c.units.entries,
    e.2.kind = .group → e'.2.kind = .group → ∀ m ∈ e.2.members, m ∈ e'.2.members → e.1 = e'.1) :
    c.MembersApart := by
  intro name name' u v m hu hv hukind hvkind hm hm'
  exact h _ (Table.get?_eq_some_iff.mp hu) _ (Table.get?_eq_some_iff.mp hv) hukind hvkind m hm hm'

end Context

end BuildMeta
