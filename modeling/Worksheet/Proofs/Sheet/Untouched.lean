import Worksheet.Proofs.Sheet.Affected
import Worksheet.Proofs.Sheet.History

/-! # What an edit leaves alone

    An edit writes to the edited cell, to the edges into this cell, and to the values of the cells
    in its order. The other cells keep their entries and their places, and what is not listed keeps
    its value too. Besides the edited cell only formulas are listed, so that a number or a text is
    never written by the edit of another cell.

    - `Sheet.LeavesOthers`: all that stays.
    - `Sheet.Sound.leavesOthers_commit`: an edit that closes no cycle is one of its cell alone.
    - `Sheet.Reachable.others_untouched`: so is every accepted request to set a cell.
-/

namespace Worksheet

open Relation (TransGen)

/-! ## Section 1: Places and values -/

namespace Ledger

variable {cells : Ledger Cell}

theorem filter_names_setEntry (cells : Ledger Cell) (name : String) (entry : Option Entry) :
    (cells.setEntry name entry).names.filter (· ≠ name) = cells.names.filter (· ≠ name) := by
  cases entry with
  | none => exact cells.filter_names_erase name
  | some entry => exact cells.filter_names_put name _

/-- What is not listed is not computed again. -/
theorem get?_recalculate_of_not_mem {order : List String} {name : String} (h : name ∉ order) :
    (cells.recalculate order).get? name = cells.get? name := by
  induction order generalizing cells with
  | nil => rfl
  | cons first rest ih =>
    rw [List.mem_cons, not_or] at h
    show ((cells.recalculateCell first).recalculate rest).get? name = _
    rw [ih h.2, cells.get?_recalculateCell_ne h.1]

end Ledger

namespace Sheet

theorem listing_eq (s : Sheet) :
    s.listing = s.names.filterMap fun name =>
      (s.cells.get? name).map fun cell => (name, cell.entry) :=
  s.cells.map_toList fun name cell => (name, cell.entry)

/-- The listing without one cell is made of the other names and what these hold. -/
theorem filter_listing (s : Sheet) (key : String) :
    s.listing.filter (·.1 ≠ key)
      = (s.names.filter (· ≠ key)).filterMap fun name =>
          (s.cells.held? name).map fun entry => (name, entry) := by
  rw [listing_eq, List.filter_filterMap, List.filterMap_filter]
  refine List.filterMap_congr ?_
  intro name _
  unfold Ledger.held?
  by_cases hname : name = key
  · cases s.cells.get? name <;> simp [hname]
  · cases s.cells.get? name <;> simp [hname]

/-! ## Section 2: Edits -/

/-- All that an edit of the cell `key` does not change when the cells of `order` are computed
    again. -/
structure LeavesOthers (s s' : Sheet) (key : String) (order : List String) : Prop where
  settings_eq : s'.settings = s.settings
  /-- The other cells hold the same entries, in the same order. -/
  listing_eq : s'.listing.filter (·.1 ≠ key) = s.listing.filter (·.1 ≠ key)
  /-- What is not listed keeps its value too. -/
  get?_eq : ∀ name, name ∉ order → s'.cells.get? name = s.cells.get? name
  /-- The other cells read what they read before. -/
  precedents_eq : ∀ name, name ≠ key →
    (s'.graph.precedents name).toList = (s.graph.precedents name).toList
  /-- The cells that are told to read a cell are the same, the edited one left aside. -/
  dependents_eq : ∀ typed,
    (s'.dependents typed).map (fun readers => (readers.erase key).toList)
      = (s.dependents typed).map fun readers => (readers.erase key).toList
  /-- The other cells that are listed hold formulas. -/
  listed_formula : ∀ name ∈ order, name ≠ key →
    ∃ f value value', s.cells.get? name = some ⟨.formula f, value⟩
      ∧ s'.cells.get? name = some ⟨.formula f, value'⟩
  /-- Numbers and texts in other cells are as before. -/
  literal_eq : ∀ name cell, name ≠ key → s.cells.get? name = some cell →
    cell.entry.isFormula = false → s'.cells.get? name = some cell

variable {s s' : Sheet} {typed raw key : String} {entry : Option Entry} {order : List String}

theorem filter_listing_commit (s : Sheet) (key : String) (entry : Option Entry)
    (order : List String) :
    (s.commit key entry (precedentsOf entry) order).listing.filter (·.1 ≠ key)
      = s.listing.filter (·.1 ≠ key) := by
  have hnames : (s.commit key entry (precedentsOf entry) order).names.filter (· ≠ key)
      = s.names.filter (· ≠ key) := by
    show ((s.cells.setEntry key entry).recalculate order).names.filter (· ≠ key) = _
    rw [Ledger.names_recalculate, Ledger.filter_names_setEntry]
    rfl
  rw [filter_listing, filter_listing, hnames]
  refine List.filterMap_congr ?_
  intro name hname
  have hne : name ≠ key := of_decide_eq_true (List.mem_filter.mp hname).2
  rw [held?_commit_ne s entry order hne]

/-- The edges into other cells stay. -/
theorem Sound.mem_dependents_commit_iff (h : s.Sound) {source reader : String}
    (hne : reader ≠ key) :
    reader ∈ (s.commit key entry (precedentsOf entry) order).graph.dependents source
      ↔ reader ∈ s.graph.dependents source := by
  show reader ∈ (s.graph.setPrecedents key (precedentsOf entry).toList).dependents source ↔ _
  rw [h.coherent.mem_dependents_setPrecedents_iff]
  simp [hne]

theorem Sound.toList_precedents_commit (h : s.Sound) {name : String} (hne : name ≠ key) :
    ((s.commit key entry (precedentsOf entry) order).graph.precedents name).toList
      = (s.graph.precedents name).toList := by
  have hcoherent : (s.commit key entry (precedentsOf entry) order).graph.Coherent :=
    h.coherent.setPrecedents key _
  apply toList_congr
  intro source
  rw [← hcoherent.mirrored, ← h.coherent.mirrored]
  exact h.mem_dependents_commit_iff hne

theorem Sound.dependents_commit (h : s.Sound) (typed : String) :
    ((s.commit key entry (precedentsOf entry) order).dependents typed).map
        (fun readers => (readers.erase key).toList)
      = (s.dependents typed).map fun readers => (readers.erase key).toList := by
  have herase (source : String) :
      (((s.commit key entry (precedentsOf entry) order).graph.dependents source).erase key).toList
        = ((s.graph.dependents source).erase key).toList := by
    apply toList_congr
    intro reader
    rw [Std.TreeSet.mem_erase, Std.TreeSet.mem_erase, ne_eq, Std.LawfulEqCmp.compare_eq_iff_eq]
    refine and_congr_right ?_
    intro hne
    exact h.mem_dependents_commit_iff (Ne.symm hne)
  -- both sheets have the same naming rules, so that they refuse the same names
  show ((s.cellKey typed).map _).map _ = ((s.cellKey typed).map _).map _
  cases s.cellKey typed with
  | error e => rfl
  | ok source => exact congrArg Except.ok (herase source)

/-- Besides the edited cell an order lists formulas, which stay where they are. -/
theorem Sound.exists_formula_of_mem_order (h : s.Sound)
    (horder : (s.revision key entry).order [key] = .ok order) {name : String}
    (hname : name ∈ order) (hne : name ≠ key) :
    ∃ f value value', s.cells.get? name = some ⟨.formula f, value⟩
      ∧ (s.commit key entry (precedentsOf entry) order).cells.get? name
        = some ⟨.formula f, value'⟩ := by
  rw [h.mem_order_iff horder, Relation.reflTransGen_iff_eq_or_transGen] at hname
  obtain ⟨f, value', hget'⟩ := Ledger.exists_formula_of_transGen (hname.resolve_left hne)
  have hheld : s.cells.held? name = some (.formula f) := by
    rw [← held?_commit_ne s entry order hne, Ledger.held?_of_get? hget']
  obtain ⟨⟨found, value⟩, hget, rfl⟩ := Option.map_eq_some_iff.mp hheld
  exact ⟨f, value, value', hget, hget'⟩

/-- An edit for which the walk found an order leaves all other cells alone. -/
theorem Sound.leavesOthers_commit (h : s.Sound)
    (horder : (s.revision key entry).order [key] = .ok order) :
    s.LeavesOthers (s.commit key entry (precedentsOf entry) order) key order := by
  have hget (name : String) (hname : name ∉ order) :
      (s.commit key entry (precedentsOf entry) order).cells.get? name = s.cells.get? name := by
    -- the edited cell is listed, so that this is another one
    have hne : name ≠ key := by
      rintro rfl
      exact hname ((h.mem_order_iff horder name).mpr Relation.ReflTransGen.refl)
    show ((s.cells.setEntry key entry).recalculate order).get? name = _
    rw [Ledger.get?_recalculate_of_not_mem hname, Ledger.get?_setEntry_ne _ _ hne]
  refine ⟨rfl, filter_listing_commit s key entry order, hget,
    fun name hne => h.toList_precedents_commit hne, h.dependents_commit,
    fun name hname hne => h.exists_formula_of_mem_order horder hname hne, ?_⟩
  intro name cell hne hcell hliteral
  by_cases hname : name ∈ order
  · -- a listed cell would hold a formula
    obtain ⟨f, value, value', hformula, -⟩ := h.exists_formula_of_mem_order horder hname hne
    rw [hcell] at hformula
    obtain rfl := Option.some.inj hformula
    cases hliteral
  · rw [hget name hname, hcell]

/-! ## Section 3: Requests -/

/-- A request to set a cell that is accepted by a reachable sheet changes nothing else: the
    settings, the entries and the places of the other cells, what these read, the values that are
    not listed, and with them every number and every text. -/
theorem Reachable.others_untouched (h : s.Reachable)
    (hsend : (Request.enter typed raw).send s = (.ok order, s')) :
    s.LeavesOthers s' (s.settings.naming.key typed) order := by
  obtain ⟨key, entry, hkey, -, horder, rfl⟩ :=
    enter_eq_ok_iff.mp (Request.send_enter_ok_iff.mp hsend)
  obtain ⟨-, rfl, -⟩ := (Naming.cell?_eq_some_iff _ _ _).mp hkey
  exact h.sound.leavesOthers_commit horder

/-- The beginning of a chain stays when its middle is made a text, though the end is computed
    again. -/
theorem chain_others_untouched :
    ((Request.enter "B1" "two").send chain).1 = .ok ["B1", "C1"]
      ∧ chain.LeavesOthers ((Request.enter "B1" "two").send chain).2 "B1" ["B1", "C1"] := by
  have hanswer : ((Request.enter "B1" "two").send chain).1 = .ok ["B1", "C1"] := by
    decide +kernel
  have hkey : chain.settings.naming.key "B1" = "B1" := by decide +kernel
  have hsend : (Request.enter "B1" "two").send chain
      = (.ok ["B1", "C1"], ((Request.enter "B1" "two").send chain).2) := by
    rw [← hanswer]
  have huntouched := reachable_chain.others_untouched hsend
  rw [hkey] at huntouched
  exact ⟨hanswer, huntouched⟩

end Sheet

end Worksheet
