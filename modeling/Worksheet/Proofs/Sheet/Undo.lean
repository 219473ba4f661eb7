import Worksheet.Proofs.Sheet.Edits
import Worksheet.Proofs.Sheet.Reload

/-! # Edits that are undone

    An edit forgets the entry that it replaces, but the raw text of this entry, kept by the caller,
    brings all of it back. It is read as the same entry. Whatever the cell has read in the meantime,
    the edges into it are replaced before the walk, and what the walk then meets are the edges of
    the sheet as it was, which has no cycle. With the entries the values and the edges return.

    - `Sheet.WasTyped.ofRaw?_held`: the raw text of a cell is read as what the cell holds.
    - `Sheet.Sound.exists_order_restored`: to put an entry back closes no cycle.
    - `Sheet.Reachable.edit_undone`: the content of the sheet is as before.
-/

namespace Worksheet

namespace Sheet

variable {s t : Sheet} {typed raw key : String} {order : List String}

/-! ## Section 1: The entry that is put back -/

/-- The entry of a cell, and the empty text where there is none. -/
theorem entry_eq (h : s.settings.naming.MeansCell typed) :
    s.entry typed = .ok ((s.cells.held? (s.settings.naming.key typed)).getD .empty) := by
  unfold entry cellKey
  rw [h.cell?_eq]
  rfl

/-- The raw text of a cell is read as what the cell holds; that of a cell without an entry clears
    it. -/
theorem WasTyped.ofRaw?_held (h : s.WasTyped)
    (hidempotent : ∀ name, s.settings.naming.key (s.settings.naming.key name)
      = s.settings.naming.key name) (name : String) :
    Entry.ofRaw? s.settings.naming ((s.cells.held? name).getD .empty).raw
      = .ok (s.cells.held? name) := by
  cases hheld : s.cells.held? name with
  | none => rfl
  | some entry => exact (h.read_saved hidempotent hheld).2

/-! ## Section 2: Sheets that differ in one cell -/

/-- What one sheet holds in a cell can be put into another one that holds the same elsewhere. -/
theorem Sound.exists_order_restored (h : s.Sound) (ht : t.Sound)
    (hothers : ∀ name, name ≠ key → t.cells.held? name = s.cells.held? name) :
    ∃ order, (t.revision key (s.cells.held? key)).order [key] = .ok order := by
  -- the walk is the one over the first sheet, whose own edges into the cell are put in
  rw [ht.order_revision_congr h hothers]
  exact h.exists_order_revision h.acyclic (fun u v hfeeds => hfeeds)
    fun u hu => (mem_precedentsOf_iff u).mp hu

/-- With the entry of the one cell the content of the sheet is the same. -/
theorem Sound.sameContent_restored (h : s.Sound) (ht : t.Sound)
    (hothers : ∀ name, name ≠ key → t.cells.held? name = s.cells.held? name)
    (horder : (t.revision key (s.cells.held? key)).order [key] = .ok order) :
    s.SameContent (t.commit key (s.cells.held? key) (precedentsOf (s.cells.held? key)) order) := by
  apply h.sameContent (ht.commit horder)
  intro name
  by_cases hname : name = key
  · rw [hname, held?_commit_self]
  · rw [held?_commit_ne t _ order hname, hothers name hname]

/-! ## Section 3: Two edits of one cell -/

/-- In a reachable sheet whose keys are their own keys, an edit is undone when the raw text of the
    old entry is entered again, whether the edit was accepted or refused. This is never refused, and
    every cell has the entry and the value that it had, or is without one as it was, and the edges
    are the same. -/
theorem Reachable.edit_undone (h : s.Reachable)
    (hidempotent : ∀ name, s.settings.naming.key (s.settings.naming.key name)
      = s.settings.naming.key name)
    (hname : s.settings.naming.MeansCell typed) (raw : String) :
    ∃ old, s.entry typed = .ok old
      ∧ ∃ order s', (Request.enter typed old.raw).send ((Request.enter typed raw).send s).2
          = (.ok order, s') ∧ s.SameContent s' := by
  have hsettings := settings_send_enter s typed raw
  have hothers (name : String) (hne : name ≠ s.settings.naming.key typed) :=
    held?_send_enter_ne s raw hne
  have hbetween := (h.entered typed raw).sound
  generalize ((Request.enter typed raw).send s).2 = t at hsettings hothers hbetween ⊢
  refine ⟨_, entry_eq hname, ?_⟩
  obtain ⟨order, horder⟩ := h.sound.exists_order_restored hbetween hothers
  refine ⟨order, _, Request.send_enter_ok_iff.mpr (enter_eq_ok_iff.mpr ⟨_, _, ?_, ?_, horder, rfl⟩),
    h.sound.sameContent_restored hbetween hothers horder⟩
  · rw [hsettings]
    exact hname.cell?_eq
  · rw [hsettings]
    exact h.wasTyped.ofRaw?_held hidempotent _

/-- The middle of a chain is cut off from the beginning, with an error up to the end, and then reads
    it again. -/
theorem chain_edit_undone :
    ((Request.enter "B1" "=Z1/0").send chain).1 = .ok ["B1", "C1"]
      ∧ ∃ order s', (Request.enter "B1" "=A1").send ((Request.enter "B1" "=Z1/0").send chain).2
          = (.ok order, s') ∧ chain.SameContent s' := by
  have hidempotent (name : String) : chain.settings.naming.key (chain.settings.naming.key name)
      = chain.settings.naming.key name := by
    simp only [chain, settings_send_enter]
    rfl
  have hcell : chain.settings.naming.cell? "B1" = some "B1" := by decide +kernel
  obtain ⟨hname, -⟩ := Naming.meansCell_of_cell? hcell
  have hraw : (chain.entry "B1").map Entry.raw = .ok "=A1" := by decide +kernel
  obtain ⟨old, hold, hundone⟩ := reachable_chain.edit_undone hidempotent hname "=Z1/0"
  rw [hold] at hraw
  obtain hraw : old.raw = "=A1" := Except.ok.inj hraw
  rw [hraw] at hundone
  exact ⟨by decide +kernel, hundone⟩

end Sheet

end Worksheet
