import BuildMeta.Digraph.Dot
import BuildMeta.Proofs.Digraph.Cycles
import BuildMeta.Proofs.Digraph.Reduction
import BuildMeta.Proofs.Outcome
import Mathlib

/-!
# `Proofs.Digraph.Drawing` — what a drawing shows of a digraph

Three passes make a drawing.  Nodes are taken out first, the ranks are the levels of what is left,
and the edges may be reduced after that.  `Depicts` says what holds across all three, in terms of
the digraph alone: where a node is drawn, that edges lead down, that no path is lost and none is
new, and that what touches a node taken out is told by its cluster.

A child that is no key is a node of the graph only through its parents.  If all of these are taken
out, it has no rank and is seen in their clusters only (`Orphaned`).
-/

namespace BuildMeta.Digraph

open Relation

variable {g : Digraph} {out : List String} {name m n : String} {reduce : Bool}

/-! ## What is left -/

/-- A node is taken out: it was asked for, and is a key. -/
def Taken (g : Digraph) (out : List String) (n : String) : Prop := n ∈ out ∧ n ∈ g.keys

/-- An edge between nodes that are not taken out. -/
def EdgeLeft (g : Digraph) (out : List String) (m n : String) : Prop :=
  g.Edge m n ∧ ¬ g.Taken out m ∧ ¬ g.Taken out n

/-- A node is left: it is not taken out, and is a key or the child of a key that is not taken out. -/
def Left (g : Digraph) (out : List String) (n : String) : Prop :=
  ¬ g.Taken out n ∧ (n ∈ g.keys ∨ ∃ m, g.EdgeLeft out m n)

theorem mem_keysAmong : n ∈ g.keysAmong out ↔ g.Taken out n := by
  unfold keysAmong Taken
  rw [Text.mem_sortedSet, List.mem_filter, Table.has_iff]

theorem nodup_keysAmong (g : Digraph) (out : List String) : (g.keysAmong out).Nodup := by
  unfold keysAmong Text.sortedSet
  exact Text.nodup_sort.mpr (Text.nodup_eraseDups _)

/-- The children that a node keeps when others are taken out, each once. -/
theorem get?_without {cs : List String} :
    (g.without out).get? m = some cs ↔
      m ∉ out ∧ ∃ cs', g.get? m = some cs' ∧ (cs'.filter fun c => !out.contains c).eraseDups = cs := by
  unfold without
  rw [Table.get?_map, Option.map_eq_some_iff]
  simp only [Table.get?_filter_eq_some_iff, Bool.not_eq_true', List.contains_eq_mem,
    decide_eq_false_iff_not]
  constructor
  · rintro ⟨cs', ⟨hget, hm⟩, hcs⟩
    exact ⟨hm, cs', hget, hcs⟩
  · rintro ⟨hm, cs', hget, hcs⟩
    exact ⟨cs', ⟨hget, hm⟩, hcs⟩

theorem mem_keys_without : n ∈ (g.without out).keys ↔ n ∈ g.keys ∧ n ∉ out := by
  simp only [Table.mem_keys_iff, get?_without]
  constructor
  · rintro ⟨_, hn, cs, hget, _⟩
    exact ⟨⟨cs, hget⟩, hn⟩
  · rintro ⟨⟨cs, hget⟩, hn⟩
    exact ⟨_, hn, cs, hget, rfl⟩

/-- The edges that are left: those between nodes that are left. -/
theorem edge_without : (g.without out).Edge m n ↔ g.Edge m n ∧ m ∉ out ∧ n ∉ out := by
  simp only [edge_iff_entry, ← Table.get?_eq_some_iff, get?_without]
  constructor
  · rintro ⟨_, ⟨hm, cs, hget, rfl⟩, hn⟩
    rw [List.mem_eraseDups, List.mem_filter] at hn
    exact ⟨⟨cs, hget, hn.1⟩, hm, by simpa using hn.2⟩
  · rintro ⟨⟨cs, hget, hn⟩, hm, hout⟩
    refine ⟨_, ⟨hm, cs, hget, rfl⟩, ?_⟩
    rw [List.mem_eraseDups, List.mem_filter]
    exact ⟨hn, by simpa using hout⟩

theorem edge_rest : (g.rest out).Edge m n ↔ g.EdgeLeft out m n := by
  rw [rest, edge_without, mem_keysAmong, mem_keysAmong]
  rfl

/-- The nodes that are left are the keys that were not taken out, and what they lead to. -/
theorem mem_nodes_rest : n ∈ (g.rest out).nodes ↔ g.Left out n := by
  have hkeys : n ∈ (g.rest out).keys ↔ n ∈ g.keys ∧ ¬ g.Taken out n := by
    rw [rest, mem_keys_without, mem_keysAmong]
  simp only [mem_nodes, hkeys, edge_rest]
  constructor
  · rintro (⟨hkey, hn⟩ | ⟨m, hm⟩)
    · exact ⟨hn, Or.inl hkey⟩
    · exact ⟨hm.2.2, Or.inr ⟨m, hm⟩⟩
  · rintro ⟨hn, hkey | hm⟩
    · exact Or.inl ⟨hkey, hn⟩
    · exact Or.inr hm

theorem Acyclic.rest (hacyc : g.Acyclic) : (g.rest out).Acyclic :=
  hacyc.of_edges fun _ _ h => (edge_rest.mp h).1

/-- A node goes with its parents: it is no key, and they are all taken out. -/
structure Orphaned (g : Digraph) (out : List String) (n : String) : Prop where
  not_key : n ∉ g.keys
  parent : ∃ m, g.Edge m n
  taken : ∀ m, g.Edge m n → g.Taken out m

/-- A node is left, or it was taken out, or it has lost all its parents and is seen in their
    clusters. -/
theorem left_or_taken_or_orphaned (hn : n ∈ g.nodes) :
    g.Left out n ∨ g.Taken out n ∨ g.Orphaned out n := by
  by_cases htaken : g.Taken out n
  · exact Or.inr (Or.inl htaken)
  by_cases hleft : n ∈ g.keys ∨ ∃ m, g.EdgeLeft out m n
  · exact Or.inl ⟨htaken, hleft⟩
  -- Not being a key, it is a node through its parents.
  have hkey : n ∉ g.keys := fun h => hleft (Or.inl h)
  refine Or.inr (Or.inr ⟨hkey, (mem_nodes.mp hn).resolve_left hkey, fun m hm => ?_⟩)
  by_contra hm'
  exact hleft (Or.inr ⟨m, hm, hm', htaken⟩)

/-! ## Drawn edges -/

/-- The edges as a list hold just the edges of the graph. -/
theorem mem_edges : (m, n) ∈ g.edges ↔ g.Edge m n := by
  rw [edge_iff_entry]
  unfold edges
  simp only [List.mem_flatMap, List.mem_map, Prod.mk.injEq]
  constructor
  · rintro ⟨⟨k, cs⟩, hentry, c, hc, rfl, rfl⟩
    exact ⟨cs, hentry, hc⟩
  · rintro ⟨cs, hentry, hn⟩
    exact ⟨(m, cs), hentry, n, hn, rfl, rfl⟩

theorem Edge.of_drawn (h : (g.drawn reduce).Edge m n) : g.Edge m n := by
  cases reduce with
  | false => exact h
  | true => exact Edge.of_transitiveReduce h

theorem transGen_drawn (hacyc : g.Acyclic) :
    TransGen (g.drawn reduce).Edge m n ↔ TransGen g.Edge m n := by
  cases reduce with
  | false => exact Iff.rfl
  | true => exact transGen_transitiveReduce hacyc

/-! ## Clusters -/

theorem mem_parents : m ∈ g.parents n ↔ g.Edge m n := by
  unfold parents
  rw [List.mem_filter, hasEdge_iff]
  exact ⟨And.right, fun h => ⟨h.mem_keys, h⟩⟩

/-- A cluster tells all edges at its node. -/
structure Cluster.Tells (c : Cluster) (g : Digraph) : Prop where
  parents : ∀ m, m ∈ c.parents ↔ g.Edge m c.node
  children : ∀ n, n ∈ c.children ↔ g.Edge c.node n

theorem tells_cluster (g : Digraph) (n : String) : (g.cluster n).Tells g where
  parents := fun _ => mem_parents
  children := fun _ => Iff.rfl

/-! ## The drawing -/

/-- A drawing shows a graph from which nodes were taken out. -/
structure Depicts (d : Drawing) (g : Digraph) (out : List String) : Prop where
  /-- What is left is in one rank. -/
  ranked : ∀ n, g.Left out n → ∃! i, InLevel d.ranks n i
  /-- Nothing else is in a rank. -/
  left_of_ranked : ∀ n i, InLevel d.ranks n i → g.Left out n
  /-- No rank holds a node twice. -/
  nodup : ∀ rank ∈ d.ranks, rank.Nodup
  /-- What is drawn as an edge is one. -/
  edge : ∀ m n, (m, n) ∈ d.edges → g.EdgeLeft out m n
  /-- Edges lead to lower ranks. -/
  lower : ∀ m n, (m, n) ∈ d.edges → ∃ i j, InLevel d.ranks m i ∧ InLevel d.ranks n j ∧ j < i
  /-- Paths of drawn edges are paths of the edges that are left. -/
  path_iff : ∀ m n, TransGen (fun a b => (a, b) ∈ d.edges) m n ↔ TransGen (g.EdgeLeft out) m n
  /-- Each node that was taken out has a cluster. -/
  clustered : ∀ n, g.Taken out n → ∃ c ∈ d.clusters, c.node = n
  /-- No node has two clusters. -/
  nodup_clusters : (d.clusters.map Cluster.node).Nodup
  /-- Clusters are of nodes that were taken out, and tell all their edges. -/
  tells : ∀ c ∈ d.clusters, g.Taken out c.node ∧ c.Tells g

/-- The drawing with given ranks. -/
def drawingOf (g : Digraph) (out : List String) (reduce : Bool) (ranks : List (List String)) : Drawing :=
  ⟨ranks, ((g.rest out).drawn reduce).edges, (g.keysAmong out).map g.cluster⟩

theorem drawing_eq (g : Digraph) (out : List String) (reduce : Bool) :
    g.drawing out reduce
      = (g.rest out).levels >>= fun ranks => .ok (g.drawingOf out reduce ranks) := rfl

variable {ranks : List (List String)}

theorem edge_of_drawingOf (h : (m, n) ∈ (g.drawingOf out reduce ranks).edges) : (g.rest out).Edge m n :=
  (mem_edges.mp h).of_drawn

/-- Ranks were found before the reduction, which keeps paths because no cycle is left. -/
theorem path_drawingOf (hacyc : g.Acyclic) :
    TransGen (fun a b => (a, b) ∈ (g.drawingOf out reduce ranks).edges) m n
      ↔ TransGen (g.EdgeLeft out) m n := by
  have hdrawn : (fun a b => (a, b) ∈ (g.drawingOf out reduce ranks).edges)
      = ((g.rest out).drawn reduce).Edge := by
    funext a b
    exact propext mem_edges
  have hleft : (g.rest out).Edge = g.EdgeLeft out := by
    funext a b
    exact propext edge_rest
  rw [hdrawn, transGen_drawn hacyc.rest, hleft]

theorem nodup_drawingOf_clusters :
    ((g.drawingOf out reduce ranks).clusters.map Cluster.node).Nodup := by
  have hnodes : (g.drawingOf out reduce ranks).clusters.map Cluster.node = g.keysAmong out := by
    show ((g.keysAmong out).map g.cluster).map Cluster.node = g.keysAmong out
    rw [List.map_map]
    exact List.map_id _
  rw [hnodes]
  exact nodup_keysAmong g out

/-- **Drawings with the levels of what is left as ranks** depict the graph. -/
theorem depicts_drawingOf (hacyc : g.Acyclic) (hnodup : ∀ rank ∈ ranks, rank.Nodup)
    (hranks : ∀ n i, InLevel ranks n i ↔ n ∈ (g.rest out).nodes ∧ (g.rest out).Longest n i) :
    Depicts (g.drawingOf out reduce ranks) g out where
  ranked := by
    intro n hn
    have hnode := mem_nodes_rest.mpr hn
    obtain ⟨i, hi⟩ := hacyc.rest.exists_longest hnode
    exact ⟨i, (hranks n i).mpr ⟨hnode, hi⟩, fun j hj => ((hranks n j).mp hj).2.unique hi⟩
  left_of_ranked := fun n i h => mem_nodes_rest.mp ((hranks n i).mp h).1
  nodup := hnodup
  edge := fun _ _ h => edge_rest.mp (edge_of_drawingOf h)
  lower := by
    intro m n h
    have hedge := edge_of_drawingOf h
    obtain ⟨i, hi⟩ := hacyc.rest.exists_longest hedge.mem_nodes_left
    obtain ⟨j, hj⟩ := hacyc.rest.exists_longest hedge.mem_nodes_right
    exact ⟨i, j, (hranks m i).mpr ⟨hedge.mem_nodes_left, hi⟩,
      (hranks n j).mpr ⟨hedge.mem_nodes_right, hj⟩, hi.lt_of_edge hj hedge⟩
  path_iff := fun _ _ => path_drawingOf hacyc
  clustered := fun n hn => ⟨g.cluster n, List.mem_map_of_mem (mem_keysAmong.mpr hn), rfl⟩
  nodup_clusters := nodup_drawingOf_clusters
  tells := by
    intro c hc
    obtain ⟨n, hn, rfl⟩ := List.mem_map.mp hc
    exact ⟨mem_keysAmong.mp hn, tells_cluster g n⟩

/-! ## The text -/

/-- A text writes a drawing: after the opening, a line for each rank in order, then one for each edge and
    one for each cluster. -/
def Drawing.Writes (name : String) (d : Drawing) (text : String) : Prop :=
  ∃ edges clusters : List String,
    edges.Perm (d.edges.map fun e => Dot.edge e.1 e.2) ∧ clusters.Perm (d.clusters.map Dot.cluster) ∧
    text = Dot.opening name d.ranks.length ++
      String.join (d.ranks.mapIdx fun i nodes => Dot.rank (i + 1) nodes) ++
      String.join edges ++ String.join clusters ++ "\x7d\n"

theorem writes_render (name : String) (d : Drawing) : d.Writes name (d.render name) :=
  ⟨_, _, Text.sort_perm _, Text.sort_perm _, rfl⟩

theorem outcome_draw (name : String) (g : Digraph) (out : List String) (reduce : Bool) :
    (draw name g out reduce).outcome = g.drawing out reduce >>= fun d => .ok (d.render name) := by
  unfold draw
  dsimp only
  split
  all_goals
    simp only [Logged.outcome_bind, Logged.outcome_tell, Logged.outcome_pure, Logged.outcome_lift,
      Failure.ok_bind]

/-- **Drawings are faithful.**  A graph without cycles is drawn, whatever names are to be taken out and
    whether or not the edges are reduced.  In the drawing that is written, each node that is left is in
    one rank, edges lead to lower ranks, paths of drawn edges are those of the edges that are left, and
    each node that was taken out has a cluster with all its parents and children.  The only other
    nodes are no keys, and are children in the clusters of all their parents. -/
theorem draw_faithful (name : String) (g : Digraph) (out : List String) (reduce : Bool)
    (hacyc : g.Acyclic) :
    ∃ d text, g.drawing out reduce = .ok d ∧ (draw name g out reduce).outcome = .ok text ∧
      d.Writes name text ∧ Depicts d g out ∧
      ∀ n ∈ g.nodes, g.Left out n ∨ g.Taken out n ∨ g.Orphaned out n ∧
        ∀ m, g.Edge m n → ∃ c ∈ d.clusters, c.node = m ∧ n ∈ c.children := by
  have hrest : (g.rest out).Acyclic := hacyc.rest
  obtain ⟨ranks, hlevels, hnodup, hranks⟩ := hrest.exists_levels
  have hdepicts : Depicts (g.drawingOf out reduce ranks) g out := depicts_drawingOf hacyc hnodup hranks
  have hdrawing : g.drawing out reduce = .ok (g.drawingOf out reduce ranks) := by
    rw [drawing_eq, hlevels, Failure.ok_bind]
  refine ⟨g.drawingOf out reduce ranks, _, hdrawing, ?_, writes_render name _, hdepicts, ?_⟩
  · rw [outcome_draw, hdrawing, Failure.ok_bind]
  · intro n hn
    refine (left_or_taken_or_orphaned hn).imp_right fun h => h.imp_right fun horphan => ⟨horphan, ?_⟩
    intro m hm
    obtain ⟨c, hc, rfl⟩ := hdepicts.clustered m (horphan.taken m hm)
    exact ⟨c, hc, rfl, ((hdepicts.tells c hc).2.children n).mpr hm⟩

/-! ## A graph with a node that has no rank -/

/-- A program, a tool and two libraries, with children outside the graph. -/
def desk : Digraph :=
  .ofList [("app", ["lib", "base"]), ("lib", ["base", "ssl"]), ("tool", ["lib", "ext"]), ("base", [])]

theorem acyclic_desk : desk.Acyclic := cycles_eq_nil_iff.mp (by cbv)

/-- What is drawn of the graph without the tool. -/
def deskDrawing : Drawing where
  ranks := [["base", "ssl"], ["lib"], ["app"]]
  edges := [("app", "lib"), ("lib", "base"), ("lib", "ssl")]
  clusters := [⟨"tool", [], ["lib", "ext"]⟩]

theorem drawing_desk : desk.drawing ["tool", "nobody"] true = .ok deskDrawing := by cbv

theorem draw_faithful_desk :
    desk.Acyclic ∧ desk.drawing ["tool", "nobody"] true = .ok deskDrawing ∧
      Depicts deskDrawing desk ["tool", "nobody"] := by
  obtain ⟨d, _, hdrawing, _, _, hdepicts, _⟩ :=
    draw_faithful "desk" desk ["tool", "nobody"] true acyclic_desk
  rw [drawing_desk] at hdrawing
  cases hdrawing
  exact ⟨acyclic_desk, drawing_desk, hdepicts⟩

/-- **A node may have no rank although it is not taken out**, if it is no key and a child of the tool
    only. -/
theorem draw_without_rank :
    desk.Acyclic ∧ "ext" ∈ desk.nodes ∧ "ext" ∉ ["tool", "nobody"] ∧
      ∃ d, desk.drawing ["tool", "nobody"] true = .ok d ∧ ∀ i, ¬ InLevel d.ranks "ext" i := by
  refine ⟨acyclic_desk, by decide +kernel, by decide, deskDrawing, drawing_desk, fun i hi => ?_⟩
  have hmem : "ext" ∈ deskDrawing.ranks.flatten := mem_flatten_iff_inLevel.mpr ⟨i, hi⟩
  revert hmem
  decide

end BuildMeta.Digraph
