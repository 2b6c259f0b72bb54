import BuildMeta.Digraph.Basic

/-!
# Cycles

The cycles of a digraph are its strongly connected components of more than one node, and the nodes
with an edge to themselves.  They are found in one depth-first walk that numbers the nodes and
keeps those whose component is still open on a stack.
-/

namespace BuildMeta.Digraph

/-- The state of the walk. -/
structure CycleSearch where
  /-- The number of each node met. -/
  numbers : Table Nat := ∅
  /-- The nodes of open components, the last one first. -/
  stack : List String := []
  /-- The cycles found. -/
  cycles : List (List String) := []

namespace CycleSearch

/-- Numbers a node and puts it on the stack. -/
def enter (s : CycleSearch) (n : String) : CycleSearch :=
  { s with numbers := s.numbers.set n s.numbers.size, stack := n :: s.stack }

/-- Closes the component of a node: it and all nodes above it on the stack. -/
def close (s : CycleSearch) (g : Digraph) (n : String) : CycleSearch :=
  let above := s.stack.takeWhile (· != n)
  let component := (above ++ [n]).reverse
  { s with
    stack := s.stack.drop (above.length + 1)
    cycles :=
      if component.length > 1 || g.hasEdge n n then s.cycles ++ [component] else s.cycles }

end CycleSearch

/-- Visits the given nodes.  The result holds the least of `low` and of the numbers on the stack
that were seen from them. -/
def visitNodes (g : Digraph) (free : List String) :
    Nat → List String → CycleSearch → Nat × CycleSearch
  | low, [], s => (low, s)
  | low, n :: rest, s =>
    match s.numbers.get? n with
    | some number =>
      visitNodes g free (if s.stack.contains n then min low number else low) rest s
    | none =>
      if _h : n ∈ free then
        let number := s.numbers.size
        let (below, s) := visitNodes g (free.erase n) number (g.children n) (s.enter n)
        let s := if below == number then s.close g n else s
        visitNodes g free (min low below) rest s
      else visitNodes g free low rest s
termination_by _ nodes => (free.length, nodes.length)
decreasing_by
  all_goals simp_wf
  · simp [Prod.lex_def]
  · have := List.length_erase_of_mem _h
    have := List.length_pos_of_mem _h
    simp [Prod.lex_def]
    omega
  · simp [Prod.lex_def]
  · simp [Prod.lex_def]

/-- The cycles of a digraph. -/
def cycles (g : Digraph) : List (List String) :=
  (Text.sort g.keys).foldl (fun s n => (visitNodes g g.nodes 0 [n] s).2) ({} : CycleSearch)
    |>.cycles

end BuildMeta.Digraph
