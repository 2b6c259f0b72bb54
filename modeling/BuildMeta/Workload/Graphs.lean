import BuildMeta.Digraph.Cycles
import BuildMeta.Digraph.Dot
import BuildMeta.Flags.Partition
import BuildMeta.Workload.Basic

/-!
# Workloads on digraphs and flags

Ordering, reducing and drawing a digraph in which every node depends on the three before it, and
sorting compiler and linker flags into their kinds.
-/

namespace BuildMeta.Workload

/-! ## Digraphs -/

/-- The digraph in which every node depends on the three before it. -/
def ladder (name : Nat → String) (size : Nat) : Digraph :=
  .ofList (table size fun i => (name i, (List.range' (i - 3) (min i 3)).map name))

/-- A value for every node, its children in order. -/
def edgeLists (g : Digraph) : Datum :=
  .list ((Text.sort g.keys).map fun n => .list [.str n, .strs (Text.sort (g.children n))])

/-- Lists of nodes, each in order. -/
def sortedLists (xss : List (List String)) : Datum :=
  .list ((xss.map Text.sort).map Datum.strs)

/-- Orders and reduces a digraph whose last node also depends on a node outside. -/
def graphs : Workload := fun _ size => do
  let name (i : Nat) : String := "n" ++ padded 3 i
  match size.toNat with
  | 0 => throw .absentKey
  | last + 1 =>
    let g := ladder name (last + 1)
    let g : Digraph := g.set (name last) (g.children (name last) ++ ["ext_dep"])
    let knot : Digraph :=
      .ofList [("a", ["b"]), ("b", ["c"]), ("c", ["a"]), ("d", ["d"])]
    return do
      return .list
        [sortedLists (← g.levels), .strs (← g.order),
          .list (((knot.cycles.map Text.sort).mergeSort Text.textsLe).map Datum.strs),
          sortedLists g.cycles, .strs (Text.sort g.externalNodes), .strs (Text.sort g.rootNodes),
          edgeLists g.transitiveReduce]

/-- Draws a digraph, reduced without its middle node and in full: the lengths of the drawings and
the numbers of their arrows. -/
def drawings : Workload := ofRun fun _ size => do
  let name (i : Nat) : String := "nd" ++ padded 3 i
  let g := ladder name size
  let reduced ← (g.draw "g" [name (size / 2)] true).outcome
  let full ← (g.draw "g" [] false).outcome
  let arrows (s : String) : Datum := .int (s.length - (Text.replace s "->" "-").length)
  return .list [.int reduced.length, .int full.length, arrows reduced, arrows full]

/-! ## Flags -/

/-- A flag for the compiler. -/
def compileFlag (i : Nat) : String :=
  inTurn ["-DMACRO", "/DVALUE", "-I/usr/include/", "-I/opt/include/", "-O2", "-Wall", "-fPIC"] i ++
    toString i

/-- A flag for the linker: the marks for shared and static libraries stand alone. -/
def linkFlag (i : Nat) : String :=
  let number := toString i
  ["-Wl,-Bdynamic", "-lshared" ++ number, "-L/usr/lib/" ++ number, "-Wl,-Bstatic",
    "-lstatic" ++ number, "-Wall", "-Wl,-z" ++ number, "-larchive" ++ number,
    "-pthread"].getD (i % 9) ""

/-- Sorts flags into their kinds: the number of each kind. -/
def flags : Workload := ofRun fun _ size => do
  let style := { FlagStyle.gnu with define := "/D" }
  let compiled := table size compileFlag
  let c ← style.compileParts compiled
  let l ← style.linkParts (table size linkFlag)
  return .list ([(style.exported compiled).length, c.includes.length, c.flags.length,
    l.stlibs.length, l.libs.length, l.libpaths.length, l.flags.length].map fun n => .int n)

end BuildMeta.Workload
