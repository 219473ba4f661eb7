import Worksheet.Proofs.Graph.Revision

/-! # Every walk ends in a topological order or on a cycle

    The walk is total: each of its steps lowers `Walk.stepsLeft`, on cyclic wirings too. What it
    ends with is told here by the edges of the wiring alone.

    - `Wiring.Edge`: the edges, of the graph as it is or with those into one cell replaced.
    - `Settled.idxOf_lt`, `Settled.head?_eq`: the positions in a settled list.
    - `Wiring.order_topological_or_cyclic`: both outcomes, and when each of them occurs.
-/

namespace Worksheet.Wiring

open Relation (ReflTransGen TransGen)

/-! ## Section 1: Edges -/

/-- There is an edge from one name to the other: in the graph, or, in a revised graph, from the
    new precedents to the cell and as before between all other names. -/
def Edge : Wiring → String → String → Prop
  | current g => g.Feeds
  | revised g cell precedents => Rewired g.Feeds cell (· ∈ precedents)

/-- The walk follows the edges. -/
theorem feeds_eq_edge (wiring : Wiring) : Feeds wiring.dependents = wiring.Edge := by
  cases wiring with
  | current g => exact feeds_current g
  | revised g cell precedents => exact feeds_revised g cell precedents

/-! ## Section 2: Positions in a settled list -/

namespace Settled

variable {dependents : String → List String} {list : List String}

/-- A listed name stands before each of its dependents. -/
theorem idxOf_lt (h : Settled dependents list) (hnodup : list.Nodup) {u v : String}
    (hu : u ∈ list) (huv : Feeds dependents u v) : list.idxOf u < list.idxOf v := by
  induction list with
  | nil => cases hu
  | cons name rest ih =>
    obtain ⟨hname, hrest⟩ := List.nodup_cons.mp hnodup
    have hv : v ∈ rest := by
      rcases List.mem_cons.mp hu with rfl | hmem
      · exact h.1 v huv
      · exact h.2.mem_of_feeds hmem huv
    -- a dependent is never the first name of the list
    have hne : name ≠ v := by
      rintro rfl
      exact hname hv
    rw [List.idxOf_cons_ne _ hne]
    rcases List.mem_cons.mp hu with rfl | hmem
    · rw [List.idxOf_cons_self]
      omega
    · have hlt := ih h.2 hrest hmem
      have hne' : name ≠ u := by
        rintro rfl
        exact hname hmem
      rw [List.idxOf_cons_ne _ hne']
      omega

/-- A list of names that are all reached from one of them begins with this one. -/
theorem head?_eq (h : Settled dependents list) (hnodup : list.Nodup) {start : String}
    (hstart : start ∈ list)
    (hreached : ∀ name ∈ list, ReflTransGen (Feeds dependents) start name) :
    list.head? = some start := by
  cases list with
  | nil => cases hstart
  | cons name rest =>
    rcases ReflTransGen.cases_tail (hreached name List.mem_cons_self) with rfl | ⟨u, hpath, hedge⟩
    · rfl
    · -- otherwise the last edge of the path leads back to the first name of the list
      have hu : u ∈ name :: rest := h.mem_of_reflTransGen hstart hpath
      have hlt := h.idxOf_lt hnodup hu hedge
      rw [List.idxOf_cons_self] at hlt
      omega

end Settled

/-! ## Section 3: The two outcomes -/

/-- The order fails exactly when a cycle can be reached from the starts, and then with a name that
    can be reached and lies on a cycle. Otherwise it lists what can be reached from the starts,
    each name once and before those that it has edges to, and beginning with the start if there is
    only one. -/
theorem order_topological_or_cyclic (wiring : Wiring) (starts : List String) :
    ((∃ name, wiring.order starts = .error name) ↔
        ∃ start ∈ starts, ∃ name,
          ReflTransGen wiring.Edge start name ∧ TransGen wiring.Edge name name)
    ∧ (∀ name, wiring.order starts = .error name →
        (∃ start ∈ starts, ReflTransGen wiring.Edge start name) ∧ TransGen wiring.Edge name name)
    ∧ ∀ list, wiring.order starts = .ok list →
        list.Nodup
        ∧ (∀ name, name ∈ list ↔ ∃ start ∈ starts, ReflTransGen wiring.Edge start name)
        ∧ (∀ u v, u ∈ list → v ∈ list → wiring.Edge u v → list.idxOf u < list.idxOf v)
        ∧ ∀ start, starts = [start] → list.head? = some start := by
  rw [← feeds_eq_edge]
  refine ⟨⟨?_, ?_⟩, fun name hname => order_error hname, ?_⟩
  · intro herror
    obtain ⟨name, hname⟩ := herror
    obtain ⟨⟨start, hstart, hpath⟩, hcycle⟩ := order_error hname
    exact ⟨start, hstart, name, hpath, hcycle⟩
  · intro hcyclic
    obtain ⟨start, hstart, name, hpath, hcycle⟩ := hcyclic
    cases horder : wiring.order starts with
    | error failed => exact ⟨failed, rfl⟩
    | ok list =>
      have hacyclic := (exists_order_ok_iff wiring starts).mp ⟨list, horder⟩
      exact absurd hcycle (hacyclic name ⟨start, hstart, hpath⟩)
  · intro list hlist
    obtain ⟨hnodup, hsettled, hmem⟩ := order_ok hlist
    refine ⟨hnodup, hmem, fun u v hu _ huv => hsettled.idxOf_lt hnodup hu huv, ?_⟩
    rintro start rfl
    have hstart : start ∈ list := (hmem start).mpr ⟨start, List.mem_cons_self, ReflTransGen.refl⟩
    refine hsettled.head?_eq hnodup hstart ?_
    intro name hname
    exact (reachedFrom_singleton_iff start name).mp ((hmem name).mp hname)

end Worksheet.Wiring
