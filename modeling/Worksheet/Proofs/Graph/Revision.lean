import Worksheet.Proofs.Graph.Coherence
import Worksheet.Proofs.Graph.Walk

/-! # One cell reads other names

    An edit of a cell replaces the edges into it and no others. When there was no cycle before, a
    cycle afterwards runs through the edited cell, so that a walk from this cell alone finds it;
    and it is closed by a new precedent that the cell led to already.

    - `Rewired.transGen_self_iff`: when the replaced edges close a cycle.
    - `Wiring.order_revised_ok_iff`: the walk over the revised graph decides this.
    - `Graph.Coherent.feeds_setPrecedents`: the graph once the edit is made has the same edges.
-/

namespace Worksheet

open Relation (ReflTransGen TransGen)

/-! ## Section 1: A relation with other edges into one name -/

/-- The relation `r` with edges from `sources` in place of all its edges into `cell`. -/
def Rewired (r : String → String → Prop) (cell : String) (sources : String → Prop)
    (u v : String) : Prop :=
  (v = cell ∧ sources u) ∨ (v ≠ cell ∧ r u v)

namespace Rewired

variable {r : String → String → Prop} {cell : String} {sources : String → Prop}

/-- What the cell leads to it led to before: a path may start after its last visit of the cell. -/
theorem reflTransGen_old {v : String} (h : ReflTransGen (Rewired r cell sources) cell v) :
    ReflTransGen r cell v := by
  induction h with
  | refl => exact ReflTransGen.refl
  | tail _ hstep ih =>
    rcases hstep with ⟨rfl, -⟩ | ⟨-, hold⟩
    · exact ReflTransGen.refl
    · exact ih.tail hold

/-- What the cell led to it still leads to, unless it led to itself. -/
theorem reflTransGen_new (hcell : ¬TransGen r cell cell) {v : String}
    (h : ReflTransGen r cell v) : ReflTransGen (Rewired r cell sources) cell v := by
  induction h with
  | refl => exact ReflTransGen.refl
  | tail hpath hstep ih =>
    refine ih.tail (Or.inr ⟨?_, hstep⟩)
    -- a path that came back to the cell would have been a cycle
    intro heq
    subst heq
    exact hcell (TransGen.tail' hpath hstep)

/-- A path either keeps to the old edges or runs through the cell. -/
theorem old_or_through {u v : String} (h : TransGen (Rewired r cell sources) u v) :
    TransGen r u v ∨ (TransGen (Rewired r cell sources) u cell
      ∧ ReflTransGen (Rewired r cell sources) cell v) := by
  induction h with
  | single hstep =>
    rcases hstep with ⟨rfl, hnew⟩ | ⟨-, hold⟩
    · exact Or.inr ⟨TransGen.single (Or.inl ⟨rfl, hnew⟩), ReflTransGen.refl⟩
    · exact Or.inl (TransGen.single hold)
  | tail hpath hstep ih =>
    have hstep' := hstep
    rcases hstep with ⟨rfl, -⟩ | ⟨-, hold⟩
    · exact Or.inr ⟨hpath.tail hstep', ReflTransGen.refl⟩
    · rcases ih with ih | ⟨hto, hfrom⟩
      · exact Or.inl (ih.tail hold)
      · exact Or.inr ⟨hto, hfrom.tail hstep'⟩

/-- Without old cycles, every cycle runs through the cell. -/
theorem transGen_cell_of_cycle (hacyclic : ∀ u, ¬TransGen r u u) {u : String}
    (h : TransGen (Rewired r cell sources) u u) : TransGen (Rewired r cell sources) cell cell := by
  rcases old_or_through h with hold | ⟨hto, hfrom⟩
  · exact absurd hold (hacyclic u)
  · exact TransGen.trans_right hfrom hto

/-- The cell comes to lie on a cycle when it led to one of its new sources, or is one. -/
theorem transGen_self_iff (hcell : ¬TransGen r cell cell) :
    TransGen (Rewired r cell sources) cell cell ↔ ∃ u, sources u ∧ ReflTransGen r cell u := by
  constructor
  · intro hcycle
    obtain ⟨u, hpath, hlast⟩ := TransGen.tail'_iff.mp hcycle
    rcases hlast with ⟨-, hu⟩ | ⟨hne, -⟩
    · exact ⟨u, hu, reflTransGen_old hpath⟩
    · exact absurd rfl hne
  · intro hsource
    obtain ⟨u, hu, hpath⟩ := hsource
    exact TransGen.tail' (reflTransGen_new hcell hpath) (Or.inl ⟨rfl, hu⟩)

end Rewired

/-! ## Section 2: The revised graph -/

/-- There is an edge from `s` to `t`: the cell `t` reads `s`. -/
def Graph.Feeds (g : Graph) (s t : String) : Prop := t ∈ g.dependents s

namespace Wiring

theorem feeds_current (g : Graph) : Feeds (current g).dependents = g.Feeds := by
  funext s t
  exact propext Std.TreeSet.mem_toList

theorem feeds_revised (g : Graph) (cell : String) (precedents : Std.TreeSet String) :
    Feeds (revised g cell precedents).dependents = Rewired g.Feeds cell (· ∈ precedents) := by
  funext s t
  refine propext ?_
  unfold Feeds Rewired Graph.Feeds
  simp only [dependents, Std.TreeSet.mem_toList]
  by_cases hmem : precedents.contains s = true
  · have hs : s ∈ precedents := hmem
    rw [if_pos hmem, Std.TreeSet.mem_insert, Std.TreeSet.mem_erase, ne_eq,
      Std.LawfulEqCmp.compare_eq_iff_eq, eq_comm]
    by_cases ht : t = cell <;> simp [ht, hs]
  · have hs : s ∉ precedents := hmem
    rw [if_neg hmem, Std.TreeSet.mem_erase, ne_eq, Std.LawfulEqCmp.compare_eq_iff_eq, eq_comm]
    simp [hs]

theorem reachedFrom_singleton_iff {dependents : String → List String} (start name : String) :
    ReachedFrom dependents [start] name ↔ ReflTransGen (Feeds dependents) start name := by
  simp [ReachedFrom]

/-- The walk from the edited cell ends exactly when the revised graph has no cycle at all. -/
theorem order_revised_ok_iff_acyclic {g : Graph} (hacyclic : ∀ u, ¬TransGen g.Feeds u u)
    (cell : String) (precedents : Std.TreeSet String) :
    (∃ list, (revised g cell precedents).order [cell] = .ok list) ↔
      ∀ u, ¬TransGen (Rewired g.Feeds cell (· ∈ precedents)) u u := by
  rw [exists_order_ok_iff, feeds_revised]
  constructor
  · intro hreached u hcycle
    -- the cycle runs through the edited cell, where the walk begins
    refine hreached cell ?_ (Rewired.transGen_cell_of_cycle hacyclic hcycle)
    exact (reachedFrom_singleton_iff cell cell).mpr ReflTransGen.refl
  · intro hnone name _
    exact hnone name

/-- The walk from the edited cell ends exactly when the cell leads to none of its new precedents,
    and is none of them. -/
theorem order_revised_ok_iff {g : Graph} (hacyclic : ∀ u, ¬TransGen g.Feeds u u) (cell : String)
    (precedents : Std.TreeSet String) :
    (∃ list, (revised g cell precedents).order [cell] = .ok list) ↔
      ∀ u ∈ precedents, ¬ReflTransGen g.Feeds cell u := by
  rw [order_revised_ok_iff_acyclic hacyclic]
  constructor
  · intro hnone u hu hpath
    exact hnone cell ((Rewired.transGen_self_iff (hacyclic cell)).mpr ⟨u, hu, hpath⟩)
  · intro hfree u hcycle
    have hcell := Rewired.transGen_cell_of_cycle hacyclic hcycle
    obtain ⟨source, hsource, hpath⟩ := (Rewired.transGen_self_iff (hacyclic cell)).mp hcell
    exact hfree source hsource hpath

end Wiring

/-- Once the edit is made, the graph has the edges over which the edit was tried. -/
theorem Graph.Coherent.feeds_setPrecedents {g : Graph} (h : g.Coherent) (cell : String)
    (precedents : Std.TreeSet String) :
    (g.setPrecedents cell precedents.toList).Feeds
      = Rewired g.Feeds cell (· ∈ precedents) := by
  funext s t
  refine propext ?_
  unfold Graph.Feeds Rewired
  rw [h.mem_dependents_setPrecedents_iff, Std.TreeSet.mem_toList]

end Worksheet
