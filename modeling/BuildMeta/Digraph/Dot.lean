import BuildMeta.Digraph.Order
import BuildMeta.Notice

/-!
# Drawing digraphs

What is drawn of a digraph is the nodes of each level in one rank, the edges, and a cluster for
each node that was taken out of the graph, with its parents and children (`Drawing`).  It is written
in the dot language, after a row of level numbers (`Drawing.render`).
-/

namespace BuildMeta.Digraph

/-- The graph without some of its keys.  Repeated children are dropped. -/
def without (g : Digraph) (out : List String) : Digraph :=
  (g.filter fun n _ => !out.contains n).map fun cs =>
    (cs.filter fun c => !out.contains c).eraseDups

/-- The keys that have a node among their children. -/
def parents (g : Digraph) (n : String) : List String := g.keys.filter fun m => g.hasEdge m n

/-- All edges, in the order of the keys. -/
def edges (g : Digraph) : List (String × String) :=
  g.entries.flatMap fun (m, cs) => cs.map fun n => (m, n)

/-- A node that was taken out of a graph, with its parents and children. -/
structure Cluster where
  node : String
  parents : List String
  children : List String
deriving Repr, DecidableEq

/-- What is drawn of a graph: the ranks, the lowest first, the edges and the clusters. -/
structure Drawing where
  ranks : List (List String)
  edges : List (String × String)
  clusters : List Cluster
deriving Repr, DecidableEq

/-- The keys among some names, in code point order. -/
def keysAmong (g : Digraph) (names : List String) : List String :=
  Text.sortedSet (names.filter fun n => g.has n)

/-- What is left of a graph when the keys among some names are taken out. -/
def rest (g : Digraph) (out : List String) : Digraph := g.without (g.keysAmong out)

/-- The graph whose edges are drawn. -/
def drawn (g : Digraph) (reduce : Bool) : Digraph := if reduce then g.transitiveReduce else g

/-- The cluster of a node. -/
def cluster (g : Digraph) (n : String) : Cluster := ⟨n, g.parents n, g.children n⟩

/-- What is drawn of a graph.  The keys in `out` are taken out first; with `reduce`, only the edges of
the transitive reduction are drawn. -/
def drawing (g : Digraph) (out : List String) (reduce : Bool) : Except Failure Drawing := do
  let ranks ← (g.rest out).levels
  return ⟨ranks, ((g.rest out).drawn reduce).edges, (g.keysAmong out).map g.cluster⟩

namespace Dot

/-- A node in quotes. -/
def quoted (n : String) : String := "\"" ++ n ++ "\""

/-- The row of level numbers, the highest first. -/
def ladder (count : Nat) : String :=
  "\t" ++ Text.join " -> " ((List.range count).reverse.map fun l => toString (l + 1)) ++ ";\n"

/-- The nodes of one level. -/
def rank (level : Nat) (nodes : List String) : String :=
  "\x7b rank = same; " ++ toString level ++ "; " ++
    Text.join " " (nodes.map fun n => quoted n ++ ";") ++ " \x7d\n"

/-- One edge. -/
def edge (m n : String) : String := "\t" ++ quoted m ++ " -> " ++ quoted n ++ ";\n"

/-- A node that was taken out, with its parents and children. -/
def cluster (c : Cluster) : String :=
  let group (ns : List String) := quoted ("_" ++ Text.join "," ns ++ "_")
  "subgraph cluster \x7b\n " ++ (if c.parents.isEmpty then "" else group c.parents ++ " ->") ++ " " ++
    quoted c.node ++ " " ++ (if c.children.isEmpty then "" else "-> " ++ group c.children) ++ ";\x7d\n"

/-- The lines before the ranks. -/
def opening (name : String) (levelCount : Nat) : String :=
  "digraph " ++ name ++ " \x7b\n" ++
  "ranksep=0.6; size = \"75,75\";\n" ++
  "bgcolor=grey70;style=filled;\n" ++
  "color=lightgrey;\n" ++
  "subgraph \x7b\n" ++
  "\tnode [shape=circle, style=filled, fontsize=11];\n" ++
  ladder levelCount ++
  "\x7d\n" ++
  "node [shape=box,style=filled,color=goldenrod3];\n"

end Dot

/-- The text of a drawing.  Edges and clusters are written in the code point order of their texts. -/
def Drawing.render (name : String) (d : Drawing) : String :=
  Dot.opening name d.ranks.length ++
    String.join (d.ranks.mapIdx fun i nodes => Dot.rank (i + 1) nodes) ++
    String.join (Text.sort (d.edges.map fun e => Dot.edge e.1 e.2)) ++
    String.join (Text.sort (d.clusters.map Dot.cluster)) ++
    "\x7d\n"

/-- Draws a graph, with a warning about the names to be taken out that are no keys. -/
def draw (name : String) (g : Digraph) (out : List String) (reduce : Bool) : Logged String := do
  let unknown := out.filter fun n => !g.has n
  if !unknown.isEmpty then
    Logged.tell (.warn ("Trying to extract invalid nodes: " ++
      Text.join "," (Text.sortedSet unknown)))
  let d ← g.drawing out reduce
  return d.render name

end BuildMeta.Digraph
