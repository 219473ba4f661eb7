import Worksheet.Graph.Index

/-! # The dependency graph

    An edge from `s` to `t` says that the cell `t` reads the cell `s`: `t` is a dependent of `s`,
    and `s` a precedent of `t`. The graph answers both questions from an index of its own, and
    keeps the number of its edges.

    The two indexes hold the same edges, and the number is right; `Graph.isCoherent` checks this.
-/

namespace Worksheet

structure Graph where
  dependentsIndex : Index
  precedentsIndex : Index
  edgeCount : Nat

namespace Graph

def empty : Graph := ⟨.empty, .empty, 0⟩

/-- The graph with each edge the other way round. -/
def reversed (g : Graph) : Graph := ⟨g.precedentsIndex, g.dependentsIndex, g.edgeCount⟩

/-! ## Section 1: Questions -/

def isEmpty (g : Graph) : Bool := g.edgeCount == 0

/-- The cells that read `name`. -/
def dependents (g : Graph) (name : String) : Std.TreeSet String :=
  g.dependentsIndex.neighbours name

/-- The cells that `name` reads. -/
def precedents (g : Graph) (name : String) : Std.TreeSet String :=
  g.precedentsIndex.neighbours name

/-- Whether any cell reads `name`. -/
def isRead (g : Graph) (name : String) : Bool := g.dependentsIndex.holds name

/-- Whether `name` reads any cell. -/
def isReader (g : Graph) (name : String) : Bool := g.precedentsIndex.holds name

/-- Whether there is an edge from `s` to `t`. -/
def hasEdge (g : Graph) (s t : String) : Bool := (g.dependents s).contains t

/-- Both indexes hold the same edges, and as many as are counted. -/
def isCoherent (g : Graph) : Bool :=
  g.dependentsIndex.pairCount == g.edgeCount && g.precedentsIndex.pairCount == g.edgeCount
    && g.dependentsIndex.isReversedIn g.precedentsIndex
    && g.precedentsIndex.isReversedIn g.dependentsIndex

/-! ## Section 2: Updates -/

/-- Adds the edge from `s` to `t`, if it is not there. -/
def connect (g : Graph) (s t : String) : Graph :=
  if g.hasEdge s t then g
  else ⟨g.dependentsIndex.insert s t, g.precedentsIndex.insert t s, g.edgeCount + 1⟩

/-- Removes the edge from `s` to `t`, if it is there. -/
def disconnect (g : Graph) (s t : String) : Graph :=
  if g.hasEdge s t then
    ⟨g.dependentsIndex.erase s t, g.precedentsIndex.erase t s, g.edgeCount - 1⟩
  else g

/-- Adds those of the edges that are not there. -/
def connectAll (g : Graph) (edges : List (String × String)) : Graph :=
  edges.foldl (fun g edge => g.connect edge.1 edge.2) g

/-- Removes all edges from `s` together: the one index drops `s` with its neighbours, the other
    drops `s` from each of these, and then their number is taken off the edge count. -/
def cutFrom (g : Graph) (s : String) : Graph :=
  let ts := g.dependents s
  ⟨g.dependentsIndex.assign s ∅,
    ts.toList.foldl (fun index t => index.erase t s) g.precedentsIndex, g.edgeCount - ts.size⟩

/-- Removes all edges to `t` together. -/
def cutTo (g : Graph) (t : String) : Graph := (g.reversed.cutFrom t).reversed

/-- Puts edges from each of `ss` to `t` in place of all edges to `t`. This is how a cell declares
    all that its formula reads. -/
def setPrecedents (g : Graph) (t : String) (ss : List String) : Graph :=
  (g.cutTo t).connectAll (ss.map fun s => (s, t))

/-! ## Section 3: Edges after an update -/

theorem hasEdge_eq_true_iff (g : Graph) (s t : String) :
    g.hasEdge s t = true ↔ t ∈ g.dependents s := Iff.rfl

theorem mem_dependents_connect_iff (g : Graph) (s t asked found : String) :
    found ∈ (g.connect s t).dependents asked ↔
      (asked = s ∧ found = t) ∨ found ∈ g.dependents asked := by
  unfold connect
  split
  · next h =>
    constructor
    · exact Or.inr
    · rintro (⟨rfl, rfl⟩ | hmem)
      · exact (g.hasEdge_eq_true_iff _ _).mp h
      · exact hmem
  · exact g.dependentsIndex.mem_neighbours_insert_iff s t asked found

theorem mem_dependents_disconnect_iff (g : Graph) (s t asked found : String) :
    found ∈ (g.disconnect s t).dependents asked ↔
      ¬(asked = s ∧ found = t) ∧ found ∈ g.dependents asked := by
  unfold disconnect
  split
  · exact g.dependentsIndex.mem_neighbours_erase_iff s t asked found
  · next h =>
    constructor
    · intro hmem
      refine ⟨?_, hmem⟩
      rintro ⟨rfl, rfl⟩
      exact h ((g.hasEdge_eq_true_iff _ _).mpr hmem)
    · exact And.right

end Graph

end Worksheet
