import Mathlib.Data.Finset.Card
import Mathlib.Data.Finset.Dedup
import Worksheet.Graph.Change
import Worksheet.Proofs.Graph.Sameness

/-! # A graph is a set of edges

    Whatever changes are made to a graph, its two indexes and its edge count stand for one set of
    edges: each change does to this set what it says, and every answer of the graph is read off
    the set. In particular the count is never too small for what is taken off it.

    - `Graph.Represents`: the graph stands for a set of edges.
    - `Graph.Coherent.perform?_eq`: a change in place does not fail.
    - `Graph.Represents.perform`: a change of the graph is a change of the set.
    - `Graph.Represents.answers`: the answers of the graph.
    - `Graph.changes_refine_edges`: both along any list of changes.
    - `Graph.revision_foretells`: the wiring over which an edit is tried, against the edit.
-/

namespace Worksheet

namespace Graph

variable {g : Graph}

/-! ## Section 1: The edge count -/

/-- A change never has more edges to take off the edge count than there are. -/
theorem Coherent.discount_le (h : g.Coherent) (change : Change) :
    change.discount g ≤ g.edgeCount := by
  cases change with
  | connect s t => exact Nat.zero_le _
  | disconnect s t =>
    rw [Change.discount]
    split
    · next hedge =>
      -- where there is an edge, the count is positive
      have hmem : t ∈ g.dependents s := (g.hasEdge_eq_true_iff s t).mp hedge
      have hpos : 0 < (g.dependents s).size := by
        rw [← Std.TreeSet.length_toList]
        exact List.length_pos_of_mem (Std.TreeSet.mem_toList.mpr hmem)
      exact hpos.trans_le (h.size_dependents_le s)
    · exact Nat.zero_le _
  | setDependents s ts => exact h.size_dependents_le s
  | setPrecedents t ss => exact h.size_precedents_le t
  | clear => exact Nat.zero_le _

/-- So a change in place does not fail. -/
theorem Coherent.perform?_eq (h : g.Coherent) (change : Change) :
    g.perform? change = some (g.perform change) :=
  if_pos (h.discount_le change)

/-! ## Section 2: Sets of edges -/

/-- What a change does to a set of edges. -/
def Change.onEdges (edges : Finset (String × String)) : Change → Finset (String × String)
  | .connect s t => insert (s, t) edges
  | .disconnect s t => edges.erase (s, t)
  | .setDependents s ts => {edge ∈ edges | edge.1 ≠ s} ∪ (ts.map fun t => (s, t)).toFinset
  | .setPrecedents t ss => {edge ∈ edges | edge.2 ≠ t} ∪ (ss.map fun s => (s, t)).toFinset
  | .clear => ∅

/-- The graph is coherent and has exactly the given edges. -/
structure Represents (g : Graph) (edges : Finset (String × String)) : Prop where
  coherent : g.Coherent
  mem_iff : ∀ s t, t ∈ g.dependents s ↔ (s, t) ∈ edges

namespace Represents

variable {edges : Finset (String × String)}

theorem empty : Graph.empty.Represents ∅ := by
  refine ⟨Coherent.empty, ?_⟩
  intro s t
  simp [Graph.empty, dependents, Index.neighbours, Index.empty]

theorem connectAll (h : g.Represents edges) (new : List (String × String)) :
    (g.connectAll new).Represents (edges ∪ new.toFinset) := by
  refine ⟨h.coherent.connectAll new, ?_⟩
  intro s t
  rw [mem_dependents_connectAll_iff, h.mem_iff, Finset.mem_union, List.mem_toFinset, or_comm]

theorem disconnect (h : g.Represents edges) (s t : String) :
    (g.disconnect s t).Represents (edges.erase (s, t)) := by
  refine ⟨h.coherent.disconnect s t, ?_⟩
  intro asked found
  rw [mem_dependents_disconnect_iff, h.mem_iff, Finset.mem_erase, ne_eq, Prod.mk.injEq]

theorem cutFrom (h : g.Represents edges) (s : String) :
    (g.cutFrom s).Represents {edge ∈ edges | edge.1 ≠ s} := by
  refine ⟨h.coherent.cutFrom s, ?_⟩
  intro asked found
  rw [mem_dependents_cutFrom_iff, h.mem_iff, Finset.mem_filter, and_comm]

theorem cutTo (h : g.Represents edges) (t : String) :
    (g.cutTo t).Represents {edge ∈ edges | edge.2 ≠ t} := by
  refine ⟨h.coherent.cutTo t, ?_⟩
  intro asked found
  rw [h.coherent.mem_dependents_cutTo_iff, h.mem_iff, Finset.mem_filter, and_comm]

/-- A change of the graph changes the set of edges as it says. -/
theorem perform (h : g.Represents edges) (change : Change) :
    (g.perform change).Represents (change.onEdges edges) := by
  cases change with
  | connect s t =>
    refine ⟨h.coherent.connect s t, ?_⟩
    intro asked found
    rw [Graph.perform, mem_dependents_connect_iff, h.mem_iff, Change.onEdges, Finset.mem_insert,
      Prod.mk.injEq]
  | disconnect s t => exact h.disconnect s t
  | setDependents s ts => exact (h.cutFrom s).connectAll _
  | setPrecedents t ss => exact (h.cutTo t).connectAll _
  | clear => exact empty

end Represents

/-- Every coherent graph represents the set of its edges. -/
theorem Coherent.represents (h : g.Coherent) :
    g.Represents g.dependentsIndex.pairs.toFinset := by
  refine ⟨h, ?_⟩
  intro s t
  rw [List.mem_toFinset, Index.mem_pairs_iff]
  rfl

/-! ## Section 3: The answers of a graph -/

/-- Every answer of the graph is the one that the set of edges gives. -/
structure Answers (g : Graph) (edges : Finset (String × String)) : Prop where
  hasEdge_iff : ∀ s t, g.hasEdge s t = true ↔ (s, t) ∈ edges
  mem_dependents_iff : ∀ s t, t ∈ (g.dependents s).toList ↔ (s, t) ∈ edges
  mem_precedents_iff : ∀ s t, s ∈ (g.precedents t).toList ↔ (s, t) ∈ edges
  /-- No name is given twice. -/
  nodup_dependents : ∀ s, (g.dependents s).toList.Nodup
  nodup_precedents : ∀ t, (g.precedents t).toList.Nodup
  isRead_iff : ∀ s, g.isRead s = true ↔ ∃ t, (s, t) ∈ edges
  isReader_iff : ∀ t, g.isReader t = true ↔ ∃ s, (s, t) ∈ edges
  size_precedents : ∀ t, (g.precedents t).size = {edge ∈ edges | edge.2 = t}.card
  edgeCount_eq : g.edgeCount = edges.card
  isEmpty_iff : g.isEmpty = true ↔ edges = ∅

namespace Represents

variable {edges : Finset (String × String)}

theorem mem_precedents_iff (h : g.Represents edges) (s t : String) :
    s ∈ g.precedents t ↔ (s, t) ∈ edges :=
  (h.coherent.mirrored s t).symm.trans (h.mem_iff s t)

theorem toFinset_pairs (h : g.Represents edges) : g.dependentsIndex.pairs.toFinset = edges := by
  ext edge
  obtain ⟨s, t⟩ := edge
  rw [← h.coherent.represents.mem_iff, h.mem_iff]

theorem edgeCount_eq (h : g.Represents edges) : g.edgeCount = edges.card := by
  rw [← h.toFinset_pairs, List.toFinset_card_of_nodup (Index.nodup_pairs _), ← h.coherent.counted,
    Index.pairCount]

theorem size_precedents (h : g.Represents edges) (t : String) :
    (g.precedents t).size = {edge ∈ edges | edge.2 = t}.card := by
  have hnodup : ((g.precedents t).toList.map fun s => (s, t)).Nodup :=
    (nodup_toList _).map fun a b heq => (Prod.mk.inj heq).1
  have hedges : ((g.precedents t).toList.map fun s => (s, t)).toFinset
      = {edge ∈ edges | edge.2 = t} := by
    ext edge
    obtain ⟨u, v⟩ := edge
    rw [List.mem_toFinset, mem_map_to_iff, Std.TreeSet.mem_toList, h.mem_precedents_iff,
      Finset.mem_filter, and_comm]
    constructor
    · intro hmem
      obtain ⟨hmem, rfl⟩ := hmem
      exact ⟨hmem, rfl⟩
    · intro hmem
      obtain ⟨hmem, rfl⟩ := hmem
      exact ⟨hmem, rfl⟩
  rw [← hedges, List.toFinset_card_of_nodup hnodup, List.length_map, Std.TreeSet.length_toList]

/-- The answers of a graph are those of the set that it represents. -/
theorem answers (h : g.Represents edges) : g.Answers edges := by
  constructor
  case hasEdge_iff => exact h.mem_iff
  case mem_dependents_iff =>
    intro s t
    rw [Std.TreeSet.mem_toList, h.mem_iff]
  case mem_precedents_iff =>
    intro s t
    rw [Std.TreeSet.mem_toList, h.mem_precedents_iff]
  case nodup_dependents => exact fun s => nodup_toList _
  case nodup_precedents => exact fun t => nodup_toList _
  case isRead_iff =>
    intro s
    unfold isRead
    rw [h.coherent.dependents_trimmed.holds_eq_true_iff]
    exact exists_congr (h.mem_iff s)
  case isReader_iff =>
    intro t
    rw [h.coherent.isReader_eq_true_iff]
    exact exists_congr fun s => h.mem_iff s t
  case size_precedents => exact h.size_precedents
  case edgeCount_eq => exact h.edgeCount_eq
  case isEmpty_iff => rw [isEmpty, h.edgeCount_eq, beq_iff_eq, Finset.card_eq_zero]

/-! ## Section 4: Lists of changes -/

/-- Changes one after the other do not fail, and change the set of edges as they say. -/
theorem foldlM_perform? (h : g.Represents edges) (changes : List Change) :
    ∃ g', changes.foldlM Graph.perform? g = some g'
      ∧ g'.Represents (changes.foldl Change.onEdges edges) := by
  induction changes generalizing g edges with
  | nil => exact ⟨g, rfl, h⟩
  | cons change changes ih =>
    rw [List.foldlM_cons, h.coherent.perform?_eq change, List.foldl_cons]
    exact ih (h.perform change)

end Represents

/-- Any changes of the empty graph are changes of a set of edges. None of them fails, that is,
    nothing is ever taken off a count that is smaller. Afterwards every answer is the one that the
    set of edges gives, the two indexes hold the same edges and no empty set, and the check finds
    nothing wrong. -/
theorem changes_refine_edges (changes : List Change) :
    ∃ g, changes.foldlM perform? empty = some g
      ∧ g.Answers (changes.foldl Change.onEdges ∅) ∧ g.Coherent ∧ g.isCoherent = true := by
  obtain ⟨g, hrun, hrepresents⟩ := Represents.empty.foldlM_perform? changes
  exact ⟨g, hrun, hrepresents.answers, hrepresents.coherent,
    hrepresents.coherent.isCoherent_eq_true⟩

/-! ## Section 5: An edit that is tried first -/

/-- After any changes of the empty graph, a cell may be tried with other precedents without a
    change of the graph: each name has the dependents, in the same order, that it has once the
    precedents are replaced. So a walk from any starts gives the same list before and after, or
    fails with the same name. -/
theorem revision_foretells (changes : List Change) :
    ∃ g, changes.foldlM perform? empty = some g
      ∧ ∀ (cell : String) (precedents : Std.TreeSet String),
          ∃ g', g.perform? (.setPrecedents cell precedents.toList) = some g'
            ∧ (∀ name, (Wiring.revised g cell precedents).dependents name
                = (Wiring.current g').dependents name)
            ∧ ∀ starts, (Wiring.revised g cell precedents).order starts
                = (Wiring.current g').order starts := by
  obtain ⟨g, hrun, hrepresents⟩ := Represents.empty.foldlM_perform? changes
  refine ⟨g, hrun, ?_⟩
  intro cell precedents
  exact ⟨g.setPrecedents cell precedents.toList, hrepresents.coherent.perform?_eq _,
    Wiring.dependents_revised_eq_committed hrepresents.coherent cell precedents,
    Wiring.order_revised_eq_committed hrepresents.coherent cell precedents⟩

end Graph

end Worksheet
