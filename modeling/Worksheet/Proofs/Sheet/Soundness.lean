import Worksheet.Proofs.Graph.Ordering
import Worksheet.Proofs.Sheet.Reachable
import Worksheet.Proofs.Sheet.Recalculation

/-! # Reachable sheets are sound

    A sheet is sound when its graph is coherent and has the edges of the stored formulas, no cell
    depends on itself, and the value of every cell is that of its entry. Empty sheets are sound,
    and an edit is committed only if the walk from the edited cell found no cycle: then the sheet
    is sound afterwards.

    - `Sheet.Sound.commit`: what the walk must have found.
    - `Sheet.Reachable.sound`: every reachable sheet is sound.
    - `Sheet.Sound.exists_order`: the cells of a sound sheet have a safe order.
    - `Sheet.Sound.wellFounded_feeds`: so there is induction from what is mentioned to what
      mentions it.
-/

namespace Worksheet

open Relation (ReflTransGen TransGen)

namespace Sheet

/-! ## Section 1: Sound sheets -/

/-- What every edit keeps. -/
structure Sound (s : Sheet) : Prop where
  coherent : s.graph.Coherent
  /-- The graph has the edges of the stored formulas. -/
  mirrored : s.graph.Feeds = s.cells.Feeds
  acyclic : ∀ name, ¬TransGen s.cells.Feeds name name
  current : ∀ name, s.cells.IsCurrent name

theorem Sound.empty (settings : Settings) : (Sheet.empty settings).Sound := by
  have hget (name : String) : (Sheet.empty settings).cells.get? name = none :=
    Ledger.get?_empty name
  have hfeeds (u v : String) : ¬(Sheet.empty settings).cells.Feeds u v := by
    intro hfeeds
    obtain ⟨f, hentry, -⟩ := hfeeds
    simp [Ledger.held?, hget] at hentry
  refine ⟨Graph.Coherent.empty, ?_, ?_, ?_⟩
  · funext u v
    have hnone : v ∉ Graph.empty.dependents u := by
      simp [Graph.empty, Graph.dependents, Index.neighbours, Index.empty]
    exact propext ⟨fun h => absurd h hnone, fun h => absurd h (hfeeds u v)⟩
  · intro name hcycle
    obtain ⟨v, hfirst, -⟩ := TransGen.head'_iff.mp hcycle
    exact hfeeds name v hfirst
  · intro name cell h
    rw [hget] at h
    cases h

theorem Sound.saved {s : Sheet} (h : s.Sound) : s.saved.Sound :=
  ⟨h.coherent, h.mirrored, h.acyclic, h.current⟩

theorem Sound.graph_acyclic {s : Sheet} (h : s.Sound) (name : String) :
    ¬TransGen s.graph.Feeds name name := by
  rw [h.mirrored]
  exact h.acyclic name

/-! ## Section 2: Edits -/

variable {s : Sheet} {key : String} {entry : Option Entry} {order : List String}

theorem mem_precedentsOf_iff (name : String) :
    name ∈ precedentsOf entry ↔ ∃ f, entry = some (.formula f) ∧ name ∈ f.mentions := by
  rcases entry with - | (x | text | f) <;> simp [precedentsOf, Entry.mentions]

/-- To set an entry is to replace the edges into its cell. -/
theorem feeds_setEntry (cells : Ledger Cell) (key : String) (entry : Option Entry) :
    (cells.setEntry key entry).Feeds = Rewired cells.Feeds key (· ∈ precedentsOf entry) := by
  funext u v
  refine propext ?_
  show _ ↔ (v = key ∧ u ∈ precedentsOf entry) ∨ (v ≠ key ∧ cells.Feeds u v)
  rw [mem_precedentsOf_iff]
  by_cases heq : v = key
  · subst heq
    simp [Ledger.Feeds, Ledger.held?_setEntry_self]
  · simp [Ledger.Feeds, Ledger.held?_setEntry_ne cells entry heq, heq]

theorem keepsLiterals_setEntry {cells : Ledger Cell} (h : cells.KeepsLiterals) (key : String)
    (entry : Option Entry) : (cells.setEntry key entry).KeepsLiterals := by
  intro name cell value hget hliteral
  by_cases heq : name = key
  · subst heq
    rw [Ledger.get?_setEntry_self, Option.map_eq_some_iff] at hget
    obtain ⟨entry, -, rfl⟩ := hget
    rw [hliteral]
    rfl
  · rw [Ledger.get?_setEntry_ne cells entry heq] at hget
    exact h name cell value hget hliteral

theorem feeds_commit_cells (s : Sheet) :
    (s.commit key entry (precedentsOf entry) order).cells.Feeds
      = Rewired s.cells.Feeds key (· ∈ precedentsOf entry) := by
  show ((s.cells.setEntry key entry).recalculate order).Feeds = _
  rw [Ledger.feeds_recalculate, feeds_setEntry]

/-- The edges over which an edit is tried are those of the formulas after it. -/
theorem Sound.feeds_revision (h : s.Sound) :
    Wiring.Feeds (s.revision key entry).dependents = (s.cells.setEntry key entry).Feeds := by
  rw [revision, Wiring.feeds_revised, h.mirrored, feeds_setEntry]

/-- A cell that is not in the order of an edit is not affected by it. -/
theorem Sound.isCurrent_of_not_mem_order (h : s.Sound)
    (horder : (s.revision key entry).order [key] = .ok order) {name : String}
    (hname : name ∉ order) : (s.cells.setEntry key entry).IsCurrent name := by
  obtain ⟨-, -, hmem⟩ := Wiring.order_ok horder
  have hreached {u : String} (hu : ReflTransGen (s.cells.setEntry key entry).Feeds key u) :
      u ∈ order := by
    rw [hmem, Wiring.reachedFrom_singleton_iff, h.feeds_revision]
    exact hu
  have hne : name ≠ key := by
    intro heq
    subst heq
    exact hname (hreached ReflTransGen.refl)
  have hreads : ¬(s.cells.setEntry key entry).Feeds key name :=
    fun hfeeds => hname (hreached (ReflTransGen.single hfeeds))
  rw [feeds_setEntry] at hreads
  refine (h.current name).congr (Ledger.get?_setEntry_ne _ _ hne) ?_
  intro other hother
  refine Ledger.get?_setEntry_ne _ _ ?_
  intro heq
  subst heq
  exact hreads (Or.inr ⟨hne, hother⟩)

/-- A sheet is sound after an edit for which the walk found an order. -/
theorem Sound.commit (h : s.Sound) (horder : (s.revision key entry).order [key] = .ok order) :
    (s.commit key entry (precedentsOf entry) order).Sound := by
  obtain ⟨hnodup, hsettled, -⟩ := Wiring.order_ok horder
  have hliterals : (s.cells.setEntry key entry).KeepsLiterals :=
    keepsLiterals_setEntry (Ledger.keepsLiterals_of_isCurrent h.current) key entry
  refine ⟨h.coherent.setPrecedents key _, ?_, ?_, ?_⟩
  · -- graph and formulas are rewired alike
    show (s.graph.setPrecedents key (precedentsOf entry).toList).Feeds = _
    rw [h.coherent.feeds_setPrecedents, h.mirrored, feeds_commit_cells]
  · -- the walk ended, so that the edit closes no cycle
    rw [feeds_commit_cells, ← h.mirrored]
    exact (Wiring.order_revised_ok_iff_acyclic h.graph_acyclic key (precedentsOf entry)).mp
      ⟨order, horder⟩
  · -- the order holds all cells that the edit affects
    refine Ledger.isCurrent_recalculate hnodup hsettled ?_ hliterals ?_
    · intro u v hfeeds
      rw [← h.feeds_revision] at hfeeds
      exact hfeeds
    · intro name hname
      exact h.isCurrent_of_not_mem_order horder hname

/-- An edit is accepted when its edges and those of the sheet belong to a relation without
    cycles. -/
theorem Sound.exists_order_revision (h : s.Sound) {r : String → String → Prop}
    (hacyclic : ∀ name, ¬TransGen r name name) (hstored : ∀ u v, s.cells.Feeds u v → r u v)
    (hnew : ∀ u ∈ precedentsOf entry, r u key) :
    ∃ order, (s.revision key entry).order [key] = .ok order := by
  have hedges (u v : String) (huv : Rewired s.graph.Feeds key (· ∈ precedentsOf entry) u v) :
      r u v := by
    rcases huv with ⟨rfl, hmem⟩ | ⟨-, hold⟩
    · exact hnew u hmem
    · rw [h.mirrored] at hold
      exact hstored u v hold
  apply (Wiring.order_revised_ok_iff_acyclic h.graph_acyclic key _).mpr
  intro u hcycle
  exact hacyclic u (TransGen.mono hedges _ _ hcycle)

/-- Accepted edits keep a sheet sound. -/
theorem Sound.enter {s s' : Sheet} {typed raw : String} {order : List String} (h : s.Sound)
    (henter : s.enter typed raw = .ok (s', order)) : s'.Sound := by
  obtain ⟨key, entry, -, -, horder, rfl⟩ := enter_eq_ok_iff.mp henter
  exact h.commit horder

/-- Every reachable sheet is sound. -/
theorem Reachable.sound {s : Sheet} (h : s.Reachable) : s.Sound :=
  h.of_steps Sound.empty (fun _ _ _ _ _ hs henter => hs.enter henter) fun _ hs => hs.saved

/-! ## Section 3: A safe order of all cells -/

/-- A walk over the graph of a sound sheet never fails. -/
theorem Sound.exists_order (h : s.Sound) (starts : List String) :
    ∃ order, (Wiring.current s.graph).order starts = .ok order := by
  rw [Wiring.exists_order_ok_iff, Wiring.feeds_current]
  exact fun name _ => h.graph_acyclic name

/-- In a sound sheet mentions do not go on for ever: each name that is mentioned stands before the
    cells that mention it in an order of all cells. -/
theorem Sound.wellFounded_feeds (h : s.Sound) : WellFounded s.cells.Feeds := by
  obtain ⟨order, horder⟩ := h.exists_order (Wiring.current s.graph).sources
  obtain ⟨hnodup, hsettled, hmem⟩ := Wiring.order_ok horder
  have hbefore (u v : String) (huv : s.cells.Feeds u v) : order.idxOf u < order.idxOf v := by
    rw [← h.mirrored, ← Wiring.feeds_current] at huv
    have hu : u ∈ order := by
      rw [hmem]
      exact ⟨u, Wiring.mem_sources_of_feeds _ huv, ReflTransGen.refl⟩
    exact hsettled.idxOf_lt hnodup hu huv
  exact Subrelation.wf (hbefore _ _) (InvImage.wf order.idxOf Nat.lt_wfRel.wf)

/-- The entries of a sound sheet determine its values. -/
theorem Sound.solves_iff (h : s.Sound) (assigned : String → Value) :
    s.cells.Solves assigned ↔
      ∀ name cell, s.cells.get? name = some cell → assigned name = cell.value := by
  constructor
  · intro hsolves name cell hget
    exact hsolves.eq_value h.current h.wellFounded_feeds hget
  · intro hvalues
    exact Ledger.solves_of_isCurrent h.current hvalues

end Sheet

end Worksheet
