import BuildMeta.Datum
import BuildMeta.Failure
import BuildMeta.Table

/-!
# Digraphs

A digraph gives each of its keys a list of children.  Children need not be keys themselves: such
nodes are external and have no children of their own.
-/

namespace BuildMeta

/-- A directed graph as a table of child lists. -/
abbrev Digraph := Table (List String)

namespace Digraph

/-- The graph given by a list of nodes, each with the list of its children. -/
def ofDatum (d : Datum) : Digraph :=
  .ofList (d.items.map fun e => ((e.items.headD .null).strD, (e.items.getD 1 .null).texts))

/-- The nodes in order, each with the list of its children. -/
def view (g : Digraph) : Datum :=
  .list (g.entries.map fun (n, cs) => .list [.str n, .strs cs])

/-- The children of a node. -/
def children (g : Digraph) (n : String) : List String := g.getD n []

/-- Whether an edge leads from one node to the other. -/
def hasEdge (g : Digraph) (m n : String) : Bool := (g.children m).contains n

/-- All nodes: the keys, and the children that are not keys. -/
def nodes (g : Digraph) : List String := (g.keys ++ g.values.flatten).eraseDups

/-- The children that are not keys, in code point order. -/
def externalNodes (g : Digraph) : List String :=
  Text.sortedSet (g.values.flatten.filter fun n => !g.has n)

/-- The keys that are nobody's child, in the order of the keys. -/
def rootNodes (g : Digraph) : List String :=
  g.keys.filter fun n => g.values.all fun cs => !cs.contains n

/-- The children of `x` with those taken out, once for each middle node, to which a path of two
edges between keys leads. -/
def reducedChildren (g : Digraph) (x : String) : List String :=
  (g.keys.filter (g.hasEdge x)).foldl (fun kept y =>
    (g.keys.filter (g.hasEdge y)).foldl (fun kept z => kept.erase z) kept) (g.children x)

/-- The transitive reduction: edges that are also paths of two edges are dropped. -/
def transitiveReduce (g : Digraph) : Digraph :=
  g.mapEntries fun x _ => g.reducedChildren x

end Digraph

end BuildMeta
