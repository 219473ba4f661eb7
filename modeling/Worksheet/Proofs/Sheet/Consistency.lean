import Worksheet.Proofs.Formula.Parsing
import Worksheet.Proofs.Sheet.Soundness

/-! # What holds of every reachable sheet

    - `Sheet.Reachable.values_determined`: each stored cell has the value of its entry, and no
      other values would do.
    - `Sheet.Reachable.no_cycle`: no cell depends on itself, so a walk over the graph never fails.
    - `Sheet.Reachable.graph_mirrors`: the graph has the edges of the stored formulas.
-/

namespace Worksheet

open Relation (ReflTransGen TransGen)

namespace Sheet

variable {s : Sheet}

/-! ## Section 1: Values -/

/-- In a reachable sheet numbers and texts are their own values, and a formula has the value that
    it takes among the present values, which is never the empty text nor that of a malformed
    formula. The values of the stored cells are the only ones for which this is so. -/
theorem Reachable.values_determined (h : s.Reachable) :
    (∀ name cell, s.cells.get? name = some cell →
      (∀ x, cell.entry = .number x → cell.value = .number x)
      ∧ (∀ t, cell.entry = .text t → cell.value = .text t)
      ∧ ∀ f, cell.entry = .formula f → cell.value = f.value s.cells.lookup ∧ cell.value ≠ .empty
          ∧ ∀ e, cell.value = .error e → e.cause ≠ .malformed)
    ∧ ∀ assigned : String → Value, s.cells.Solves assigned ↔
        ∀ name cell, s.cells.get? name = some cell → assigned name = cell.value := by
  refine ⟨?_, h.sound.solves_iff⟩
  intro name cell hget
  have hvalue : cell.value = cell.entry.value s.cells.lookup := h.sound.current name cell hget
  refine ⟨?_, ?_, ?_⟩
  · intro x hentry
    rw [hvalue, hentry, Entry.value]
  · intro t hentry
    rw [hvalue, hentry, Entry.value]
  · intro f hentry
    rw [hentry, Entry.value] at hvalue
    refine ⟨hvalue, ?_⟩
    rw [hvalue]
    rcases f.value_cases s.cells.lookup with ⟨x, hx⟩ | ⟨e, he, hcause⟩
    · simp [hx, Value.empty]
    · rw [he]
      refine ⟨by simp [Value.empty], ?_⟩
      intro e' heq
      obtain rfl := Value.error.inj heq
      exact hcause

/-- The end of a chain of formulas shows the number at its beginning, in any solution. -/
theorem chain_values_determined :
    chain.value "C1" = .ok (.number 2) ∧ ∀ assigned, chain.cells.Solves assigned →
      assigned "C1" = .number 2 := by
  have hcell : ((chain.cells.get? "C1").map Cell.value) = some (.number 2) := by decide +kernel
  refine ⟨by decide +kernel, ?_⟩
  intro assigned hsolves
  obtain ⟨cell, hget, hvalue⟩ := Option.map_eq_some_iff.mp hcell
  rw [(reachable_chain.values_determined.2 assigned).mp hsolves "C1" cell hget, hvalue]

/-! ## Section 2: Cycles -/

/-- The keys of some names: the first name that is refused ends it. -/
theorem mapM_cellKey (s : Sheet) (typed : List String) :
    typed.mapM s.cellKey
      = match typed.find? fun name => (s.settings.naming.cell? name).isNone with
        | some name => .error (.noSuchName name)
        | none => .ok (typed.map s.settings.naming.key) := by
  induction typed with
  | nil => rfl
  | cons name rest ih =>
    rw [List.mapM_cons, ih, List.find?_cons]
    cases hkey : s.settings.naming.cell? name with
    | none =>
      rw [(cellKey_eq_error_iff).mpr ⟨hkey, rfl⟩]
      rfl
    | some key =>
      rw [cellKey_eq_ok_iff.mpr hkey]
      obtain ⟨-, rfl, -⟩ := (Naming.cell?_eq_some_iff _ _ _).mp hkey
      cases rest.find? fun name => (s.settings.naming.cell? name).isNone <;> rfl

/-- In a sound sheet only a name can be the reason why there is no order. -/
theorem Sound.affectedBy_cases (h : s.Sound) (typed : List String) :
    (∃ name, typed.find? (fun name => (s.settings.naming.cell? name).isNone) = some name
        ∧ s.affectedBy typed = .error (.noSuchName name))
      ∨ (typed.find? (fun name => (s.settings.naming.cell? name).isNone) = none
        ∧ ∃ order, s.affectedBy typed = .ok order) := by
  unfold affectedBy
  rw [mapM_cellKey]
  cases typed.find? fun name => (s.settings.naming.cell? name).isNone with
  | some name => exact Or.inl ⟨name, rfl, rfl⟩
  | none =>
    obtain ⟨order, horder⟩ := h.exists_order (typed.map s.settings.naming.key)
    refine Or.inr ⟨rfl, order, ?_⟩
    show ((Wiring.current s.graph).order (typed.map s.settings.naming.key)).mapError _ = _
    rw [horder]
    rfl

/-- In a reachable sheet there is no cycle among the stored formulas, nor among the edges of the
    graph. The cells affected by some names are refused for the first name that means no cell, and
    for nothing else. -/
theorem Reachable.no_cycle (h : s.Reachable) :
    (∀ name, ¬TransGen s.cells.Feeds name name)
    ∧ (∀ name, ¬TransGen s.graph.Feeds name name)
    ∧ ∀ typed, (∀ e, s.affectedBy typed = .error e ↔
          ∃ name, typed.find? (fun name => (s.settings.naming.cell? name).isNone) = some name
            ∧ e = .noSuchName name)
        ∧ ((∃ order, s.affectedBy typed = .ok order) ↔
            ∀ name ∈ typed, ∃ key, s.settings.naming.cell? name = some key) := by
  refine ⟨h.sound.acyclic, h.sound.graph_acyclic, ?_⟩
  intro typed
  have hnone : (∀ name ∈ typed, ∃ key, s.settings.naming.cell? name = some key) ↔
      typed.find? (fun name => (s.settings.naming.cell? name).isNone) = none := by
    simp [List.find?_eq_none, ← Option.ne_none_iff_exists']
  rw [hnone]
  rcases h.sound.affectedBy_cases typed with ⟨name, hfind, heq⟩ | ⟨hfind, order, heq⟩
  · rw [hfind, heq]
    simp [eq_comm]
  · rw [hfind, heq]
    simp

/-- The names of a chain have an order. -/
theorem chain_no_cycle :
    ¬TransGen chain.cells.Feeds "A1" "A1" ∧ ∃ order, chain.affectedBy ["B1", "A1"] = .ok order := by
  obtain ⟨hcells, -, haffected⟩ := reachable_chain.no_cycle
  refine ⟨hcells "A1", (haffected ["B1", "A1"]).2.mpr ?_⟩
  simp only [List.mem_cons, List.not_mem_nil, or_false, forall_eq_or_imp, forall_eq]
  exact ⟨⟨"B1", by decide +kernel⟩, ⟨"A1", by decide +kernel⟩⟩

/-! ## Section 3: Edges -/

/-- In a reachable sheet there is an edge from `source` to `reader` exactly when `reader` is stored
    with a formula that mentions `source`. These edges are what is told about a cell, and the check
    of the graph succeeds. -/
theorem Reachable.graph_mirrors (h : s.Reachable) :
    (∀ source reader, s.graph.hasEdge source reader = true ↔
      ∃ f value, s.cells.get? reader = some ⟨.formula f, value⟩ ∧ source ∈ f.mentions)
    ∧ (∀ typed key, s.settings.naming.cell? typed = some key →
        ∃ readers, s.dependents typed = .ok readers ∧ ∀ reader, reader ∈ readers ↔
          ∃ f value, s.cells.get? reader = some ⟨.formula f, value⟩ ∧ key ∈ f.mentions)
    ∧ (∀ reader, s.graph.isReader reader = true →
        ∃ f value, s.cells.get? reader = some ⟨.formula f, value⟩)
    ∧ s.graph.isCoherent = true := by
  have hedge (source reader : String) : reader ∈ s.graph.dependents source ↔
      ∃ f value, s.cells.get? reader = some ⟨.formula f, value⟩ ∧ source ∈ f.mentions := by
    rw [← Ledger.feeds_iff, ← h.sound.mirrored]
    rfl
  refine ⟨hedge, ?_, ?_, h.sound.coherent.isCoherent_eq_true⟩
  · intro typed key hkey
    refine ⟨s.graph.dependents key, ?_, hedge key⟩
    rw [dependents, cellKey_eq_ok_iff.mpr hkey]
    rfl
  · intro reader hreader
    obtain ⟨source, hmem⟩ := (h.sound.coherent.isReader_eq_true_iff reader).mp hreader
    obtain ⟨f, value, hget, -⟩ := (hedge source reader).mp hmem
    exact ⟨f, value, hget⟩

/-- The edge between two cells of a chain comes from a formula. -/
theorem chain_graph_mirrors :
    ∃ f value, chain.cells.get? "C1" = some ⟨.formula f, value⟩ ∧ "B1" ∈ f.mentions :=
  (reachable_chain.graph_mirrors.1 "B1" "C1").mp (by decide +kernel)

end Sheet

end Worksheet
