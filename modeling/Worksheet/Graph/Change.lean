import Worksheet.Graph.Basic

/-! # Changes in place

    A caller holds one graph and changes it in place. The edge count of such a graph does not go
    below zero: a change that has more edges to take off it fails. In a coherent graph there is no
    such change (`Graph.Coherent.perform?_eq`), so that a sheet updates its graph without the check.
-/

namespace Worksheet

namespace Graph

inductive Change where
  | connect (s t : String)
  | disconnect (s t : String)
  /-- Puts edges from `s` to each of `ts` in place of all edges from `s`. -/
  | setDependents (s : String) (ts : List String)
  /-- Puts edges from each of `ss` to `t` in place of all edges to `t`. -/
  | setPrecedents (t : String) (ss : List String)
  | clear
  deriving DecidableEq, Repr

/-- How many edges a change takes off the edge count before it adds any. -/
def Change.discount (g : Graph) : Change → Nat
  | .disconnect s t => if g.hasEdge s t then 1 else 0
  | .setDependents s _ => (g.dependents s).size
  | .setPrecedents t _ => (g.precedents t).size
  | .connect _ _ => 0
  | .clear => 0

/-- The graph after a change. -/
def perform (g : Graph) : Change → Graph
  | .connect s t => g.connect s t
  | .disconnect s t => g.disconnect s t
  | .setDependents s ts => (g.cutFrom s).connectAll (ts.map fun t => (s, t))
  | .setPrecedents t ss => g.setPrecedents t ss
  | .clear => empty

/-- Changes the graph in place, if its edge count allows it. -/
def perform? (g : Graph) (change : Change) : Option Graph :=
  if change.discount g ≤ g.edgeCount then some (g.perform change) else none

end Graph

end Worksheet
