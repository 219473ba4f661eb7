import Worksheet.Proofs.Sheet.Untouched

/-! # The order of first entry

    The order in which cells are listed is stored nowhere. A cell carries the number that it got
    when it was new, and the table is sorted by these numbers whenever it is listed. The result is
    the list that a caller could keep by hand: a new name goes to the end, a name that is set again
    stays where it is, and a name that is cleared is struck out.

    - `Roll`: the list kept by hand.
    - `Roll.Tracks`: it has the names of the sheet, and has counted the numbers that were given.
    - `Roll.Tracks.perform`: one operation keeps this, whether it is accepted or refused.
    - `Sheet.lists_run`: what is listed after any operations on an empty sheet.
-/

namespace Worksheet

/-! ## Section 1: The list kept by hand -/

/-- What a caller asks of a sheet. -/
inductive Operation where
  | enter (typed raw : String)
  | save

/-- An operation that was performed, and whether it was accepted. -/
structure Event where
  operation : Operation
  accepted : Bool

/-- The names in order, and how many were ever added. -/
structure Roll where
  names : List String
  added : Nat

namespace Roll

def blank : Roll := ⟨[], 0⟩

/-- A cell was set to what `raw` is. -/
def note (roll : Roll) (key raw : String) : Roll :=
  if raw = "" then { roll with names := roll.names.filter (· ≠ key) }
  else if key ∈ roll.names then roll
  else ⟨roll.names ++ [key], roll.added + 1⟩

/-- The list after an event. What was refused is not noted. -/
def after (naming : Naming) (roll : Roll) : Event → Roll
  | ⟨.enter typed raw, true⟩ => roll.note (naming.key typed) raw
  | ⟨.enter _ _, false⟩ => roll
  | ⟨.save, _⟩ => roll

/-- The list after all events of a log. -/
def replay (naming : Naming) (roll : Roll) (log : List Event) : Roll :=
  log.foldl (after naming) roll

end Roll

/-! ## Section 2: Operations on a sheet -/

namespace Operation

/-- Whether the operation is accepted, and the sheet afterwards. -/
def perform (s : Sheet) : Operation → Bool × Sheet
  | enter typed raw => ((Request.enter typed raw).send s).map Except.isOk id
  | save => (Request.save.send s).map Except.isOk id

variable {s s' : Sheet} {typed raw : String}

theorem perform_enter_ok {order : List String} (h : s.enter typed raw = .ok (s', order)) :
    (enter typed raw).perform s = (true, s') := by
  rw [perform, Request.send_enter_ok h]
  rfl

theorem perform_enter_error {e : SheetError} (h : s.enter typed raw = .error e) :
    (enter typed raw).perform s = (false, s) := by
  rw [perform, Request.send_enter_error h]
  rfl

theorem settings_perform (s : Sheet) (operation : Operation) :
    (operation.perform s).2.settings = s.settings := by
  cases operation with
  | enter typed raw => exact s.settings_send_enter typed raw
  | save => rfl

end Operation

namespace Sheet

/-- Performs operations in order, and logs them. -/
def run (s : Sheet) : List Operation → List Event × Sheet
  | [] => ([], s)
  | operation :: rest =>
    let (accepted, next) := operation.perform s
    let (log, last) := next.run rest
    (⟨operation, accepted⟩ :: log, last)

end Sheet

/-! ## Section 3: Numbers of names -/

namespace Ledger

theorem next_recalculateCell (cells : Ledger Cell) (name : String) :
    (cells.recalculateCell name).next = cells.next := by
  rcases cells.recalculateCell_cases name with hsame | ⟨cell, hmem, hput⟩
  · rw [hsame]
  · rw [hput, cells.next_put_of_mem cell hmem]

theorem next_recalculate (cells : Ledger Cell) (order : List String) :
    (cells.recalculate order).next = cells.next := by
  induction order generalizing cells with
  | nil => rfl
  | cons first rest ih =>
    show ((cells.recalculateCell first).recalculate rest).next = _
    rw [ih, next_recalculateCell]

/-- As long as the numbers fit into words of 64 bits, it does not matter that they are compared as
    such words, nor how the table is arranged before it is sorted. -/
theorem eq_items_of_words {α : Type} (l : Ledger α) (h : l.next < UInt64.size)
    {sorted : List (String × Numbered α)} (hperm : sorted.Perm l.table.toList)
    (hsorted : sorted.Pairwise fun a b => UInt64.ofNat a.2.number ≤ UInt64.ofNat b.2.number) :
    sorted = l.items := by
  have hfits : ∀ item ∈ sorted, item.2.number < UInt64.size := by
    intro item hitem
    have hget := Std.TreeMap.mem_toList_iff_getElem?_eq_some.mp (hperm.mem_iff.mp hitem)
    exact Nat.lt_trans (l.number_lt_next hget) h
  have hnumbers : sorted.Pairwise fun a b => a.2.number ≤ b.2.number := by
    refine hsorted.imp_of_mem ?_
    intro a b ha hb hle
    rwa [UInt64.le_iff_toNat_le, UInt64.toNat_ofNat_of_lt' (hfits a ha),
      UInt64.toNat_ofNat_of_lt' (hfits b hb)] at hle
  exact l.eq_items_of_perm hperm hnumbers

end Ledger

/-! ## Section 4: Runs -/

namespace Entry

/-- Only the empty text clears a cell. -/
theorem eq_none_iff_of_ofRaw? {naming : Naming} {raw : String} {entry : Option Entry}
    (h : ofRaw? naming raw = .ok entry) : entry = none ↔ raw = "" := by
  rw [← String.toList_eq_nil_iff]
  unfold ofRaw? at h
  split at h
  · next hnil =>
    cases h
    exact iff_of_true rfl hnil
  · next first rest hcons =>
    rw [hcons]
    refine iff_of_false ?_ (List.cons_ne_nil _ _)
    rintro rfl
    split at h
    · cases h
    · split at h
      · cases hparse : Formula.parse naming (String.ofList rest) <;> rw [hparse] at h <;> cases h
      · cases h

end Entry

namespace Roll

/-- The list has the names of the sheet, and has counted the numbers that were given. -/
structure Tracks (roll : Roll) (s : Sheet) : Prop where
  names_eq : s.names = roll.names
  next_eq : s.cells.next = roll.added

variable {roll : Roll} {s : Sheet}

theorem Tracks.blank (settings : Settings) : Roll.blank.Tracks (Sheet.empty settings) :=
  ⟨rfl, rfl⟩

/-- An accepted edit is noted. -/
theorem Tracks.commit {raw key : String} {entry : Option Entry} {order : List String}
    (h : roll.Tracks s) (hentry : entry = none ↔ raw = "") :
    (roll.note key raw).Tracks (s.commit key entry (Sheet.precedentsOf entry) order) := by
  obtain ⟨hnames, hnext⟩ := h
  have hcells : (s.commit key entry (Sheet.precedentsOf entry) order).names
        = (s.cells.setEntry key entry).names
      ∧ (s.commit key entry (Sheet.precedentsOf entry) order).cells.next
        = (s.cells.setEntry key entry).next :=
    ⟨Ledger.names_recalculate _ order, Ledger.next_recalculate _ order⟩
  unfold note
  cases entry with
  | none =>
    rw [if_pos (hentry.mp rfl)]
    refine ⟨hcells.1.trans ?_, hcells.2.trans hnext⟩
    rw [← hnames]
    exact s.cells.names_erase key
  | some entry =>
    rw [if_neg (mt hentry.mpr (Option.some_ne_none entry))]
    by_cases hkey : key ∈ roll.names
    · -- the cell keeps its number
      rw [if_pos hkey]
      rw [← hnames] at hkey
      exact ⟨hcells.1.trans ((s.cells.names_put_of_mem _ hkey).trans hnames),
        hcells.2.trans ((s.cells.next_put_of_mem _ hkey).trans hnext)⟩
    · -- the cell gets the next number, which is larger than all that are in use
      rw [if_neg hkey]
      rw [← hnames] at hkey ⊢
      rw [← hnext]
      exact ⟨hcells.1.trans (s.cells.names_put_of_not_mem _ hkey),
        hcells.2.trans (s.cells.next_put_of_not_mem _ hkey)⟩

/-- One operation is noted if it is accepted, and else neither the list nor the sheet changes. -/
theorem Tracks.perform (h : roll.Tracks s) (operation : Operation) :
    (roll.after s.settings.naming ⟨operation, (operation.perform s).1⟩).Tracks
      (operation.perform s).2 := by
  cases operation with
  | save => exact ⟨h.names_eq, h.next_eq⟩
  | enter typed raw =>
    cases henter : s.enter typed raw with
    | error e =>
      rw [Operation.perform_enter_error henter]
      exact h
    | ok result =>
      obtain ⟨s', order⟩ := result
      rw [Operation.perform_enter_ok henter]
      obtain ⟨key, entry, hcell, hentry, -, rfl⟩ := Sheet.enter_eq_ok_iff.mp henter
      obtain ⟨-, rfl, -⟩ := (Naming.cell?_eq_some_iff _ _ _).mp hcell
      exact h.commit (Entry.eq_none_iff_of_ofRaw? hentry)

/-- After any operations the list replayed from their log tracks the sheet. -/
theorem Tracks.run (h : roll.Tracks s) (operations : List Operation) :
    (roll.replay s.settings.naming (s.run operations).1).Tracks (s.run operations).2 := by
  induction operations generalizing roll s with
  | nil => exact h
  | cons operation rest ih =>
    have hrest := ih (h.perform operation)
    rwa [Operation.settings_perform] at hrest

end Roll

/-! ## Section 5: What is listed -/

namespace Sheet

/-- What a sheet lists is in the order of the list kept by hand. -/
structure Lists (s : Sheet) (roll : Roll) : Prop where
  names_eq : s.names = roll.names
  /-- Entries and raw texts are listed in the same order. -/
  listing_names : s.listing.map Prod.fst = roll.names
  rawEntries_eq : s.rawEntries = s.listing.map fun item => (item.1, item.2.raw)
  /-- Each stored cell is listed once, with its entry. -/
  nodup : roll.names.Nodup
  mem_listing_iff : ∀ name entry,
    (name, entry) ∈ s.listing ↔ s.cells.held? name = some entry
  size_eq : s.size = roll.names.length
  /-- The table may come in any arrangement, and the numbers may be words of 64 bits: what is listed
      is the table sorted by these. -/
  sorted_eq : roll.added < UInt64.size → ∀ sorted : List (String × Numbered Cell),
    sorted.Perm s.cells.table.toList →
      (sorted.Pairwise fun a b => UInt64.ofNat a.2.number ≤ UInt64.ofNat b.2.number) →
        sorted = s.cells.items

theorem map_fst_listing (s : Sheet) : s.listing.map Prod.fst = s.names := by
  simp [listing, names, Ledger.toList, Ledger.names, Function.comp_def]

theorem mem_listing (s : Sheet) (name : String) (entry : Entry) :
    (name, entry) ∈ s.listing ↔ s.cells.held? name = some entry := by
  rw [listing_eq, List.mem_filterMap]
  constructor
  · rintro ⟨other, -, hother⟩
    obtain ⟨cell, hget, hcell⟩ := Option.map_eq_some_iff.mp hother
    cases hcell
    exact Ledger.held?_of_get? hget
  · intro hheld
    obtain ⟨cell, hget, rfl⟩ := Option.map_eq_some_iff.mp hheld
    have hname : name ∈ s.names := by
      rw [names, ← s.cells.get?_isSome_iff, hget]
      rfl
    exact ⟨name, hname, by rw [hget]; rfl⟩

theorem Lists.of_tracks {s : Sheet} {roll : Roll} (h : roll.Tracks s) : s.Lists roll where
  names_eq := h.names_eq
  listing_names := s.map_fst_listing.trans h.names_eq
  rawEntries_eq := by simp [rawEntries, listing, Function.comp_def]
  nodup := h.names_eq ▸ s.cells.nodup_names
  mem_listing_iff := s.mem_listing
  size_eq := h.names_eq ▸ s.cells.size_eq_length_names
  sorted_eq := by
    intro hadded sorted hperm hsorted
    rw [← h.next_eq] at hadded
    exact s.cells.eq_items_of_words hadded hperm hsorted

/-- After any operations on an empty sheet, its cells are listed in the order of the list that is
    replayed from the log of these operations. -/
theorem lists_run (settings : Settings) (operations : List Operation) :
    ((Sheet.empty settings).run operations).2.Lists
      (Roll.blank.replay settings.naming ((Sheet.empty settings).run operations).1) :=
  .of_tracks ((Roll.Tracks.blank settings).run operations)

/-- A cell that is set again keeps its place, and one that was cleared comes back at the end. -/
example :
    let again := (Sheet.empty {}).run [.enter "B2" "x", .enter "A1" "y", .enter "B2" "z"]
    let back := again.2.run [.enter "B2" "", .enter "B2" "x"]
    again.2.names = ["B2", "A1"] ∧ back.2.names = ["A1", "B2"] := by
  decide +kernel

end Sheet

end Worksheet
