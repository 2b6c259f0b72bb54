import BuildMeta.Proofs.Digraph.Levels
import Mathlib.Data.List.Nodup

/-!
# `Proofs.Digraph.Reduction` — edges that a path of two edges replaces

The transitive reduction looks at the graph as it was: an edge is dropped for a path of two edges
although these may be dropped in their turn.  No path is lost by it (`transGen_transitiveReduce`):
the two edges lead less far down than the one they replace, measured by longest paths, so replacing
comes to an end.

* `reach_transitiveReduce` — without cycles, the reduction reaches what the graph reaches;
* `redundant_transitiveReduce_iff` — the edges it should have dropped and did not: those for which
  there are only paths of three or more edges, and those that lead to a node outside the graph.
-/

namespace BuildMeta.Digraph

open Relation

variable {g : Digraph} {x z : String} {i j : Nat}

instance (g : Digraph) (m n : String) : Decidable (g.Edge m n) :=
  inferInstanceAs (Decidable (n ∈ g.children m))

/-! ## What is dropped -/

/-- The keys to which paths of two edges lead from a node, once for each middle node. -/
def replaced (g : Digraph) (x : String) : List String :=
  (g.keys.filter (g.hasEdge x)).flatMap fun y => g.keys.filter (g.hasEdge y)

theorem mem_replaced : z ∈ g.replaced x ↔ z ∈ g.keys ∧ ∃ y, g.Edge x y ∧ g.Edge y z := by
  simp only [replaced, List.mem_flatMap, List.mem_filter, hasEdge_iff]
  constructor
  · rintro ⟨y, ⟨_, hxy⟩, hz, hyz⟩
    exact ⟨hz, y, hxy, hyz⟩
  · rintro ⟨hz, y, hxy, hyz⟩
    exact ⟨y, ⟨hyz.mem_keys, hxy⟩, hz, hyz⟩

theorem reducedChildren_eq_diff (g : Digraph) (x : String) :
    g.reducedChildren x = (g.children x).diff (g.replaced x) := by
  unfold reducedChildren replaced
  rw [List.diff_eq_foldl, List.foldl_flatMap]

/-- The reduction takes the replaced children out of each list, one for each middle node. -/
theorem children_transitiveReduce (g : Digraph) (x : String) :
    g.transitiveReduce.children x = (g.children x).diff (g.replaced x) := by
  rw [← reducedChildren_eq_diff]
  unfold children Table.getD transitiveReduce
  rw [Table.get?_mapEntries]
  cases h : g.get? x with
  | some cs => rfl
  | none =>
    have hnone : g.children x = [] := by
      unfold children Table.getD
      rw [h]
      rfl
    rw [Option.map_none, reducedChildren_eq_diff, hnone, List.nil_diff]
    rfl

/-- A list that is joined from others holds a member once for each of them that holds it once. -/
theorem count_flatMap_filter {f : String → List String} {p q : String → Bool} (ys : List String)
    (hf : ∀ y, (f y).count z = if q y then 1 else 0) :
    ((ys.filter p).flatMap f).count z = ys.countP fun y => p y && q y := by
  induction ys with
  | nil => rfl
  | cons y ys ih =>
    by_cases hp : p y = true
    · have hy := hf y
      by_cases hq : q y = true
      · simp [hp, hq, hy, ih, Nat.add_comm]
      · simp [hp, hq, hy, ih]
    · simp [hp, ih]

/-- A key is replaced once for each key in the middle of two edges to it. -/
theorem count_replaced (hz : z ∈ g.keys) :
    (g.replaced x).count z = g.keys.countP fun y => g.hasEdge x y && g.hasEdge y z := by
  apply count_flatMap_filter
  intro y
  by_cases hedge : g.hasEdge y z = true
  · rw [if_pos hedge, List.count_filter hedge]
    exact List.count_eq_one_of_mem g.nodup hz
  · rw [if_neg hedge, List.count_eq_zero]
    intro hmem
    exact hedge (List.mem_filter.mp hmem).2

/-- How often a child is left: two edges to it take it out once. -/
theorem count_transitiveReduce (hz : z ∈ g.keys) :
    (g.transitiveReduce.children x).count z =
      (g.children x).count z - g.keys.countP fun y => g.hasEdge x y && g.hasEdge y z := by
  rw [children_transitiveReduce, List.count_diff, count_replaced hz]

/-- Children outside the graph are left as they are. -/
theorem count_transitiveReduce_outside (hz : z ∉ g.keys) :
    (g.transitiveReduce.children x).count z = (g.children x).count z := by
  have hnone : z ∉ g.replaced x := fun hmem => hz (mem_replaced.mp hmem).1
  rw [children_transitiveReduce, List.count_diff, List.count_eq_zero_of_not_mem hnone, Nat.sub_zero]

/-- The reduction has no new edges. -/
theorem Edge.of_transitiveReduce (h : g.transitiveReduce.Edge x z) : g.Edge x z := by
  unfold Edge at h
  rw [children_transitiveReduce] at h
  exact List.diff_subset _ _ h

/-- An edge that is dropped is replaced by two. -/
theorem Edge.transitiveReduce_or (h : g.Edge x z) :
    g.transitiveReduce.Edge x z ∨ ∃ y, g.Edge x y ∧ g.Edge y z := by
  by_cases hz : z ∈ g.replaced x
  · exact Or.inr (mem_replaced.mp hz).2
  · refine Or.inl ?_
    show z ∈ g.transitiveReduce.children x
    rw [children_transitiveReduce]
    exact List.mem_diff_of_mem h hz

/-! ## Paths -/

/-- An edge is a path of the reduction.  The induction is on how much shorter the longest path from its
    lower end is. -/
theorem Edge.path_transitiveReduce (hacyc : g.Acyclic) (h : g.Edge x z) (hx : g.Longest x i)
    (hz : g.Longest z j) : TransGen g.transitiveReduce.Edge x z := by
  induction hd : i - j using Nat.strong_induction_on generalizing x z i j with
  | _ d ih =>
    rcases h.transitiveReduce_or with hkept | ⟨y, hxy, hyz⟩
    · exact TransGen.single hkept
    · obtain ⟨k, hy⟩ := hacyc.exists_longest hxy.mem_nodes_right
      have hki : k < i := hx.lt_of_edge hy hxy
      have hjk : j < k := hy.lt_of_edge hz hyz
      have hupper : TransGen g.transitiveReduce.Edge x y := ih (i - k) (by omega) hxy hx hy rfl
      have hlower : TransGen g.transitiveReduce.Edge y z := ih (k - j) (by omega) hyz hy hz rfl
      exact hupper.trans hlower

/-- **The reduction keeps all paths.** -/
theorem transGen_transitiveReduce (hacyc : g.Acyclic) :
    TransGen g.transitiveReduce.Edge x z ↔ TransGen g.Edge x z := by
  constructor
  · exact TransGen.mono (fun _ _ => Edge.of_transitiveReduce) x z
  · refine TransGen.closed (fun a b hab => ?_) x z
    obtain ⟨i, ha⟩ := hacyc.exists_longest hab.mem_nodes_left
    obtain ⟨j, hb⟩ := hacyc.exists_longest hab.mem_nodes_right
    exact hab.path_transitiveReduce hacyc ha hb

theorem keys_transitiveReduce (g : Digraph) : g.transitiveReduce.keys = g.keys := by
  unfold transitiveReduce Table.mapEntries Table.keys
  simp

/-- **Without cycles the reduction keeps reachability.**  It has the same keys, and each of them
    keeps some of its children, in their order: a key among them is taken out once for each key in
    the middle of two edges to it, and nodes outside are never taken out.  Whatever repetitions
    there are, the same nodes can be reached from each node as before, by at least one edge or by
    any number of them. -/
theorem reach_transitiveReduce (g : Digraph) (hacyc : g.Acyclic) :
    g.transitiveReduce.keys = g.keys ∧
    (∀ x, (g.transitiveReduce.children x).Sublist (g.children x)) ∧
    (∀ x, ∀ z ∈ g.keys, (g.transitiveReduce.children x).count z =
      (g.children x).count z - g.keys.countP fun y => g.hasEdge x y && g.hasEdge y z) ∧
    (∀ x, ∀ z ∉ g.keys, (g.transitiveReduce.children x).count z = (g.children x).count z) ∧
    (∀ x z, TransGen g.transitiveReduce.Edge x z ↔ TransGen g.Edge x z) ∧
    ∀ x z, g.transitiveReduce.Reach x z ↔ g.Reach x z := by
  refine ⟨keys_transitiveReduce g, ?_, ?_, ?_, ?_, ?_⟩
  · intro x
    rw [children_transitiveReduce]
    exact List.diff_sublist _ _
  · intro x z hz
    exact count_transitiveReduce hz
  · intro x z hz
    exact count_transitiveReduce_outside hz
  · intro x z
    exact transGen_transitiveReduce hacyc
  · intro x z
    unfold Reach
    rw [reflTransGen_iff_eq_or_transGen, reflTransGen_iff_eq_or_transGen,
      transGen_transitiveReduce hacyc]

/-- A program that lists one of its libraries twice, and a child outside the graph. -/
def shop : Digraph :=
  .ofList [("app", ["lib", "kit", "lib", "base", "ssl"]), ("kit", ["lib", "ssl"]),
  ("lib", ["base"]), ("base", [])]

theorem acyclic_shop : shop.Acyclic := by
  have hheights : ∀ e ∈ shop.entries, ∀ n ∈ e.2, ["ssl", "base", "lib", "kit", "app"].idxOf n <
      ["ssl", "base", "lib", "kit", "app"].idxOf e.1 := by decide +kernel
  exact acyclic_of_heights hheights

/-- The library is listed twice and replaced once, and what is below it is reached as before. -/
theorem reach_transitiveReduce_shop :
    shop.Acyclic ∧ shop.transitiveReduce.children "app" = ["kit", "lib", "ssl"] ∧
      (shop.transitiveReduce.children "app").count "lib" = 1 ∧
      shop.transitiveReduce.Reach "app" "base" := by
  obtain ⟨_, _, hcount, _, _, hreach⟩ := reach_transitiveReduce shop acyclic_shop
  have hedge : shop.Edge "app" "base" := by decide +kernel
  refine ⟨acyclic_shop, by decide +kernel, ?_, ?_⟩
  · rw [hcount "app" "lib" (by decide +kernel)]
    decide +kernel
  · exact (hreach "app" "base").mpr (ReflTransGen.single hedge)

/-! ## What should have been dropped -/

/-- An edge that a path of at least two edges makes superfluous. -/
def Redundant (g : Digraph) (x z : String) : Prop :=
  g.Edge x z ∧ ∃ y, TransGen g.Edge x y ∧ TransGen g.Edge y z

/-- A redundant edge that is kept is still redundant. -/
theorem Redundant.of_kept (h : g.Redundant x z) (hacyc : g.Acyclic)
    (hkept : g.transitiveReduce.Edge x z) :
    g.transitiveReduce.Redundant x z := by
  obtain ⟨_, y, hxy, hyz⟩ := h
  have hupper : TransGen g.transitiveReduce.Edge x y := (transGen_transitiveReduce hacyc).mpr hxy
  have hlower : TransGen g.transitiveReduce.Edge y z := (transGen_transitiveReduce hacyc).mpr hyz
  exact ⟨hkept, y, hupper, hlower⟩

/-- Without repetitions, exactly the edges are kept that no path of two edges between keys replaces. -/
theorem edge_transitiveReduce_iff (hnodup : (g.children x).Nodup) :
    g.transitiveReduce.Edge x z ↔ g.Edge x z ∧ z ∉ g.replaced x := by
  unfold Edge
  rw [children_transitiveReduce, hnodup.mem_sdiff_iff]

/-- **The edges that the reduction should have dropped.**  Take a graph without cycles and without
    repeated children.  An edge of its reduction is redundant exactly if it is redundant in the
    graph and escapes the search for paths of two edges between keys: it leads to a node outside, or
    no path of two edges goes its way.  So the reduction has no redundant edge exactly if every
    redundant edge of the graph leads to a key and has a path of two edges. -/
theorem redundant_transitiveReduce_iff (g : Digraph) (hacyc : g.Acyclic)
    (hnodup : ∀ x, (g.children x).Nodup) :
    (∀ x z, g.transitiveReduce.Redundant x z ↔
      g.Redundant x z ∧ (z ∉ g.keys ∨ ¬ ∃ y, g.Edge x y ∧ g.Edge y z)) ∧
    ((∀ x z, ¬ g.transitiveReduce.Redundant x z) ↔
      ∀ x z, g.Redundant x z → z ∈ g.keys ∧ ∃ y, g.Edge x y ∧ g.Edge y z) := by
  have hedges : ∀ x z, g.transitiveReduce.Redundant x z ↔
      g.Redundant x z ∧ (z ∉ g.keys ∨ ¬ ∃ y, g.Edge x y ∧ g.Edge y z) := by
    intro x z
    -- The detours are the same in both graphs, so all depends on whether the edge itself was kept.
    unfold Redundant
    simp only [transGen_transitiveReduce hacyc, edge_transitiveReduce_iff (hnodup x), mem_replaced,
      not_and_or]
    exact and_right_comm
  refine ⟨hedges, ?_⟩
  simp only [hedges, not_and, not_or, not_not]

/-- A program with an edge to a library that two edges replace, one to the log that only longer
    paths replace, and one to a node outside. -/
def plant : Digraph :=
  .ofList
    [("app", ["kit", "lib", "log", "ssl"]), ("kit", ["lib", "ssl"]), ("lib", ["sys"]),
      ("sys", ["log"]), ("log", [])]

theorem acyclic_plant : plant.Acyclic := by
  have hheights : ∀ e ∈ plant.entries, ∀ n ∈ e.2, ["ssl", "log", "sys", "lib", "kit", "app"].idxOf n <
      ["ssl", "log", "sys", "lib", "kit", "app"].idxOf e.1 := by decide +kernel
  exact acyclic_of_heights hheights

theorem nodup_plant (x : String) : (plant.children x).Nodup := by
  unfold children Table.getD
  cases h : plant.get? x with
  | none => exact List.nodup_nil
  | some cs =>
    have hall : ∀ e ∈ plant.entries, e.2.Nodup := by decide +kernel
    exact hall (x, cs) (Table.get?_eq_some_iff.mp h)

/-- A long detour to the log, and a short one to the node outside. -/
theorem redundant_plant : plant.Redundant "app" "log" ∧ plant.Redundant "app" "ssl" := by
  have hkit : TransGen plant.Edge "app" "kit" := .single (by decide +kernel)
  have hlib : TransGen plant.Edge "kit" "lib" := .single (by decide +kernel)
  have hsys : TransGen plant.Edge "kit" "sys" := hlib.tail (by decide +kernel)
  have hlog : TransGen plant.Edge "kit" "log" := hsys.tail (by decide +kernel)
  have hssl : TransGen plant.Edge "kit" "ssl" := .single (by decide +kernel)
  exact ⟨⟨by decide +kernel, "kit", hkit, hlog⟩, ⟨by decide +kernel, "kit", hkit, hssl⟩⟩

/-- **Redundant edges are left over.** -/
theorem reduction_of_plant_redundant :
    plant.Acyclic ∧ (∀ x, (plant.children x).Nodup) ∧
      plant.transitiveReduce.children "app" = ["kit", "log", "ssl"] ∧
      plant.transitiveReduce.Redundant "app" "log" ∧ plant.transitiveReduce.Redundant "app" "ssl" := by
  obtain ⟨hlog, hssl⟩ := redundant_plant
  refine ⟨acyclic_plant, nodup_plant, by decide +kernel, ?_, ?_⟩
  · exact hlog.of_kept acyclic_plant (by decide +kernel)
  · exact hssl.of_kept acyclic_plant (by decide +kernel)

/-- The edges to the log and to the outside escape the reduction, and the one to the library does
    not. -/
theorem redundant_transitiveReduce_iff_plant :
    plant.Acyclic ∧ (∀ x, (plant.children x).Nodup) ∧
      plant.transitiveReduce.Redundant "app" "log" ∧ plant.transitiveReduce.Redundant "app" "ssl" ∧
      ¬ plant.transitiveReduce.Redundant "app" "lib" := by
  obtain ⟨hedges, _⟩ := redundant_transitiveReduce_iff plant acyclic_plant nodup_plant
  obtain ⟨hlog, hssl⟩ := redundant_plant
  refine ⟨acyclic_plant, nodup_plant, (hedges _ _).mpr ⟨hlog, Or.inr ?_⟩,
    (hedges _ _).mpr ⟨hssl, Or.inl (by decide +kernel)⟩, ?_⟩
  · rintro ⟨y, hy, hlog'⟩
    have hnone : ∀ y ∈ plant.children "app", ¬ plant.Edge y "log" := by decide +kernel
    exact hnone y hy hlog'
  · intro hlib
    have hcaught : "lib" ∈ plant.keys ∧ plant.Edge "app" "kit" ∧ plant.Edge "kit" "lib" := by
      decide +kernel
    obtain ⟨hkey, hupper, hlower⟩ := hcaught
    rcases ((hedges _ _).mp hlib).2 with hout | hnone
    · exact hout hkey
    · exact hnone ⟨"kit", hupper, hlower⟩

end BuildMeta.Digraph
