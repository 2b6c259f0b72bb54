import BuildMeta.Proofs.Pkg.Dependencies

/-!
# `Proofs.Pkg.Bounds` — which bounds on versions a query keeps

A name may be required several times with different bounds on its version.  A query keeps the bound
by which the name is met first, and those that follow from it.  It does not look at the others: it
may succeed with a package that is too old for one of them.
-/

namespace BuildMeta.Pkg.Query

/-- The requirements that a query has to do with: those asked for, and those of the packages it has
    loaded. -/
def Written (asked : List Requirement) (packages : List (String × Package)) (r : Requirement) : Prop :=
  r ∈ asked ∨ ∃ n p, (n, p) ∈ packages ∧ (r ∈ p.requires ∨ r ∈ p.allRequires)

variable {s : Search} {packages : List (String × Package)} {asked met : List Requirement}
  {r : Requirement}

/-- What is written is what is met. -/
theorem Loads.written_iff_met (h : Loads s [] asked packages)
    (hmet : DepthFirst (needs packages) [] asked met (names packages)) :
    Written asked packages r ↔ r ∈ met := by
  have hnodup : (names packages).Nodup := h.nodup List.nodup_nil
  constructor
  · rintro (hr | ⟨n, p, hp, hr⟩)
    · exact hmet.mem_met hr
    · have hneeds : r ∈ needs packages n := by
        rw [needs_of_mem hnodup hp]
        rcases hr with hr | hr
        · obtain ⟨_, -, hbest⟩ := h.exists_met
          obtain ⟨_, -, _, _, _, -, -, hload, -⟩ := hbest n p hp
          exact Package.requires_subset hload r hr
        · exact hr
      exact hmet.needs_met (List.mem_map_of_mem hp) List.not_mem_nil hneeds
  · intro hr
    rcases hmet.of_met hr with hr | ⟨n, hn, hr⟩
    · exact Or.inl hr
    · obtain ⟨⟨n, p⟩, hp, rfl⟩ := List.mem_map.mp hn
      rw [needs_of_mem hnodup hp] at hr
      exact Or.inr ⟨n, p, hp, Or.inr hr⟩

/-- **The bounds met first hold.**  After a query that succeeds, every name that is required
    anywhere holds the best candidate for the requirement by which the name is met first.  So this
    requirement is met, and every other one of the name that follows from it. -/
theorem first_bounds_hold (s : Search) (text : String) (q : Query) (y : Logged Unit)
    (hfind : ({ search := s } : Query).find text true = (q, y)) (hok : y.outcome = .ok ())
    (r : Requirement) (hr : Written q.asked q.packages r) :
    ∃ first p, FirstMet q.asked q.packages r.name first ∧ Written q.asked q.packages first ∧
      loaded? q.packages r.name = some p ∧ (∀ p', s.Best first p' ↔ p' = p) ∧
      first.metBy p.version = .ok true ∧
      ((∀ v, first.metBy v = .ok true → r.metBy v = .ok true) → r.metBy p.version = .ok true) := by
  obtain ⟨-, hloads⟩ := loads_of_find { search := s } text (by rw [hfind]; exact hok)
  rw [hfind] at hloads
  obtain ⟨met, hmet, hbest⟩ := hloads.exists_met
  have hname : r.name ∈ names q.packages :=
    hmet.mem_seen_iff.mpr (Or.inr (List.mem_map_of_mem ((hloads.written_iff_met hmet).mp hr)))
  obtain ⟨⟨n, p⟩, hp, hn⟩ := List.mem_map.mp hname
  obtain rfl : n = r.name := hn
  obtain ⟨first, hfirst, hchosen⟩ := hbest r.name p hp
  have hmeets : first.metBy p.version = .ok true := by
    obtain ⟨_, _, _, _, _, _, hmeets⟩ := hchosen
    exact hmeets
  exact ⟨first, p, ⟨met, _, hmet, hfirst⟩,
    (hloads.written_iff_met hmet).mpr (List.mem_of_find?_eq_some hfirst),
      Table.lookup_of_mem_entries (hloads.nodup List.nodup_nil) hp,
    fun p' => ⟨fun hp' => hp'.unique hchosen, fun heq => heq ▸ hchosen⟩, hmeets, fun hfollows =>
      hfollows _ hmeets⟩

/-- One package requires another of any version, and a second package requires a newer one than
    there is. -/
def stale : Search where
  site := { tree := {
    files := .ofList [("/pc/base.pc", "Name: base\nVersion: 1\n"),
      ("/pc/kit.pc", "Name: kit\nVersion: 1\nRequires: base\n"),
      ("/pc/tool.pc", "Name: tool\nVersion: 1\nRequires: base >= 2\n")]
    dirs := ["/", "/pc"] } }
  known := .ofList [("base", ["/pc/base.pc"]), ("kit", ["/pc/kit.pc"]), ("tool", ["/pc/tool.pc"])]

/-- The walk through the stale packages: the older base is met first, and the tool that asks for a
    newer one comes after it. -/
theorem loads_stale : ∃ kit base tool : Package,
    Loads stale [] [.unbounded "kit", .unbounded "tool"] [("kit", kit), ("base", base), ("tool", tool)] ∧
      base.version = .parse "1" ∧ tool.allRequires = [⟨"base", .greaterOrEqual, .parse "2"⟩] := by
  obtain ⟨kit, hkit, hkitNeeds⟩ : ∃ p, (loadOne stale (.unbounded "kit")).outcome = .ok p ∧
      p.allRequires = [.unbounded "base"] := exists_loadOne (by decide +kernel)
  obtain ⟨base, hbase, hbaseShown⟩ : ∃ p, (loadOne stale (.unbounded "base")).outcome = .ok p ∧
      (p.allRequires, p.version) = ([], .parse "1") := exists_loadOne (by decide +kernel)
  obtain ⟨tool, htool, htoolNeeds⟩ : ∃ p, (loadOne stale (.unbounded "tool")).outcome = .ok p ∧
      p.allRequires = [⟨"base", .greaterOrEqual, .parse "2"⟩] := exists_loadOne (by decide +kernel)
  obtain ⟨hbaseNeeds, hversion⟩ := Prod.mk.inj hbaseShown
  refine ⟨kit, base, tool, .load List.not_mem_nil hkit ?_, hversion, htoolNeeds⟩
  rw [hkitNeeds]
  refine .load (by simp [names, Requirement.unbounded]) hbase ?_
  rw [hbaseNeeds]
  refine .load (by simp [names, Requirement.unbounded]) htool ?_
  rw [htoolNeeds]
  exact .again (by simp [names, Requirement.unbounded]) .done

/-- What the query for both packages loads. -/
theorem find_stale : ∃ q y base tool, ({ search := stale } : Query).find "kit tool" true = (q, y) ∧
    y.outcome = .ok () ∧ loaded? q.packages "base" = some base ∧ base.version = .parse "1" ∧
    ("tool", tool) ∈ q.packages ∧ tool.allRequires = [⟨"base", .greaterOrEqual, .parse "2"⟩] := by
  obtain ⟨kit, base, tool, hloads, hversion, hneeds⟩ := loads_stale
  have hread : (stale.site.settings.readRequirements "kit tool").outcome =
      .ok [.unbounded "kit", .unbounded "tool"] := by decide +kernel
  obtain ⟨hquery, hok⟩ := find_of_loads (q := { search := stale }) hread (List.cons_ne_nil _ _) hloads
  generalize hfind : ({ search := stale } : Query).find "kit tool" true = result at hquery hok
  obtain ⟨q, y⟩ := result
  obtain rfl : q = _ := hquery
  exact ⟨_, y, base, tool, rfl, hok, rfl, hversion, by simp, hneeds⟩

/-- The older package is loaded for the first requirement of it, and the query succeeds. -/
theorem later_bound_broken : ∃ q y r p, ({ search := stale } : Query).find "kit tool" true = (q, y) ∧
    y.outcome = .ok () ∧ Written q.asked q.packages r ∧ loaded? q.packages r.name = some p ∧
    r.metBy p.version = .ok false := by
  obtain ⟨q, y, base, tool, hfind, hok, hbase, hversion, htool, hneeds⟩ := find_stale
  refine ⟨q, y, ⟨"base", .greaterOrEqual, .parse "2"⟩, base, hfind, hok,
    Or.inr ⟨"tool", tool, htool, Or.inr ?_⟩, hbase, ?_⟩
  · rw [hneeds]
    exact List.mem_singleton_self _
  · rw [hversion]
    decide +kernel

/-- The base is loaded by the requirement that is met first, and has to meet only this one. -/
theorem first_bounds_hold_stale :
    ∃ q y first p, ({ search := stale } : Query).find "kit tool" true = (q, y) ∧
    y.outcome = .ok () ∧ Written q.asked q.packages ⟨"base", .greaterOrEqual, .parse "2"⟩ ∧
    FirstMet q.asked q.packages "base" first ∧ loaded? q.packages "base" = some p ∧
    first.metBy p.version = .ok true := by
  obtain ⟨q, y, base, tool, hfind, hok, -, -, htool, hneeds⟩ := find_stale
  have hr : Written q.asked q.packages ⟨"base", .greaterOrEqual, .parse "2"⟩ :=
    Or.inr ⟨"tool", tool, htool, Or.inr (by rw [hneeds]; exact List.mem_singleton_self _)⟩
  obtain ⟨first, p, hfirst, -, hloaded, -, hmeets, -⟩ :=
    first_bounds_hold stale "kit tool" q y hfind hok _ hr
  exact ⟨q, y, first, p, hfind, hok, hr, hfirst, hloaded, hmeets⟩

end BuildMeta.Pkg.Query
