import BuildMeta.Digraph.Basic

/-!
# Levels and topological order

Both searches walk the graph depth first from given roots and fail with the path to the first
node that is met again while it is being visited.  `free` holds the nodes that are not on the
current path; each step down takes one out, so the walk ends.
-/

namespace BuildMeta.Digraph

/-- The nodes among which a walk from the roots moves. -/
def nodesWith (g : Digraph) (roots : List String) : List String := (roots ++ g.nodes).eraseDups

/-! ## Levels -/

/-- Finds the levels of the given nodes and of all nodes below them: one more than the greatest
level of a child.  The result holds the greatest of the given nodes' levels and the levels found
so far. -/
def findLevels (g : Digraph) (free path : List String) :
    List String → Table Nat → Except Failure (Nat × Table Nat)
  | [], found => .ok (0, found)
  | n :: rest, found =>
    if _h : n ∈ free then
      match found.get? n with
      | some level => do
        let (greatest, found) ← findLevels g free path rest found
        return (max level greatest, found)
      | none => do
        let (below, found) ← findLevels g (free.erase n) (path ++ [n]) (g.children n) found
        let (greatest, found) ← findLevels g free path rest (found.set n (below + 1))
        return (max (below + 1) greatest, found)
    else .error (.cycle (path ++ [n]))
termination_by nodes => (free.length, nodes.length)
decreasing_by
  all_goals simp_wf
  · simp [Prod.lex_def]
  · have := List.length_erase_of_mem _h
    have := List.length_pos_of_mem _h
    simp [Prod.lex_def]
    omega
  · simp [Prod.lex_def]

/-- The nodes that were given a level, in code point order. -/
def nodesAtLevel (found : Table Nat) (level : Nat) : List String :=
  Text.sort ((found.entries.filter (·.2 == level)).map Prod.fst)

/-- The nodes that can be reached from the roots, by level: the leaves first. -/
def levelsFrom (g : Digraph) (roots : List String) : Except Failure (List (List String)) := do
  let (greatest, found) ← findLevels g (g.nodesWith roots) [] roots ∅
  return (List.range greatest).map fun l => nodesAtLevel found (l + 1)

/-- The levels below the nodes that are nobody's child. -/
def levels (g : Digraph) : Except Failure (List (List String)) := g.levelsFrom g.rootNodes

/-! ## Topological order -/

/-- Appends the given nodes to an order, each after all nodes below it. -/
def appendOrdered (g : Digraph) (free path : List String) :
    List String → List String → Except Failure (List String)
  | [], order => .ok order
  | n :: rest, order =>
    if n ∈ order then appendOrdered g free path rest order
    else if _h : n ∈ free then do
      let order ←
        appendOrdered g (free.erase n) (path ++ [n]) (Text.sort (g.children n)) order
      appendOrdered g free path rest (order ++ [n])
    else .error (.cycle (path ++ [n]))
termination_by nodes => (free.length, nodes.length)
decreasing_by
  all_goals simp_wf
  · simp [Prod.lex_def]
  · have := List.length_erase_of_mem _h
    have := List.length_pos_of_mem _h
    simp [Prod.lex_def]
    omega
  · simp [Prod.lex_def]

/-- The nodes that can be reached from the roots, each after all its children.  Roots and children
are taken in code point order. -/
def orderFrom (g : Digraph) (roots : List String) : Except Failure (List String) :=
  appendOrdered g (g.nodesWith roots) [] (Text.sort roots) []

/-- The topological order below the nodes that are nobody's child. -/
def order (g : Digraph) : Except Failure (List String) := g.orderFrom g.rootNodes

end BuildMeta.Digraph
