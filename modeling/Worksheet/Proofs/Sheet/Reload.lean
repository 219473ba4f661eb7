import Worksheet.Proofs.Entry.RoundTrip
import Worksheet.Proofs.Sheet.History

/-! # Saving a sheet and loading it again

    What is saved of a sheet is each name with the raw text of its entry, in the order of entry.
    Loaded again, each text is read as the entry it came from. The sheet may have been edited in
    another order, so that a formula can be loaded before what it mentions: still no cycle is found,
    since the edges loaded so far are edges of the saved sheet, which has none. With the entries the
    values and the edges are determined.

    - `Sheet.Reachable.wasTyped`: every entry was read, under a name that was typed.
    - `Sheet.LoadedPart.enter`: one more cell is loaded.
    - `Sheet.Reachable.load_rawEntries`: the sheet is reproduced.
-/

namespace Worksheet

open Relation (TransGen)

/-- Under naming rules in which every key is its own key, the key of a cell means this cell. -/
theorem Naming.cell?_key {naming : Naming} {typed key : String}
    (hidempotent : ∀ name, naming.key (naming.key name) = naming.key name)
    (h : naming.cell? typed = some key) : naming.cell? key = some key := by
  obtain ⟨-, rfl, hkey, haccepts⟩ := (naming.cell?_eq_some_iff typed key).mp h
  rw [naming.cell?_eq_some_iff, hidempotent]
  exact ⟨hkey, rfl, hkey, haccepts⟩

namespace Ledger

variable {cells : Ledger Cell} {name : String}

theorem held?_isSome_iff : (cells.held? name).isSome = true ↔ name ∈ cells.names := by
  rw [held?, Option.isSome_map, cells.get?_isSome_iff]

theorem held?_eq_none_iff : cells.held? name = none ↔ name ∉ cells.names := by
  rw [← held?_isSome_iff, Option.not_isSome_iff_eq_none]

/-- A new entry goes to the end. -/
theorem names_setEntry_of_not_mem (h : name ∉ cells.names) (entry : Entry) :
    (cells.setEntry name (some entry)).names = cells.names ++ [name] :=
  cells.names_put_of_not_mem _ h

end Ledger

namespace Sheet

variable {s t : Sheet} {names : List String} {name : String}

/-! ## Section 1: Where the entries of a sheet come from -/

/-- Every entry was read from a raw text, and is held under the key of a name that was typed. -/
def WasTyped (s : Sheet) : Prop :=
  ∀ name entry, s.cells.held? name = some entry →
    ∃ typed raw, s.settings.naming.cell? typed = some name
      ∧ Entry.ofRaw? s.settings.naming raw = .ok (some entry)

theorem WasTyped.enter {s' : Sheet} {typed raw : String} {order : List String} (h : s.WasTyped)
    (henter : s.enter typed raw = .ok (s', order)) : s'.WasTyped := by
  obtain ⟨key, entry, hkey, hentry, -, rfl⟩ := enter_eq_ok_iff.mp henter
  intro name found hheld
  by_cases hname : name = key
  · subst hname
    rw [held?_commit_self] at hheld
    subst hheld
    exact ⟨typed, raw, hkey, hentry⟩
  · rw [held?_commit_ne s entry order hname] at hheld
    exact h name found hheld

theorem Reachable.wasTyped (h : s.Reachable) : s.WasTyped := by
  refine h.of_steps ?_ (fun _ _ _ _ _ hs henter => hs.enter henter) fun _ hs => hs
  intro settings name entry hheld
  have hnone : (Sheet.empty settings).cells.get? name = none := Ledger.get?_empty name
  rw [Ledger.held?, hnone] at hheld
  cases hheld

/-- What is saved of a cell is read as this cell and its entry. -/
theorem WasTyped.read_saved (h : s.WasTyped)
    (hidempotent : ∀ name, s.settings.naming.key (s.settings.naming.key name)
      = s.settings.naming.key name) {entry : Entry} (hheld : s.cells.held? name = some entry) :
    s.settings.naming.cell? name = some name
    ∧ Entry.ofRaw? s.settings.naming entry.raw = .ok (some entry) := by
  obtain ⟨typed, raw, hcell, hraw⟩ := h name entry hheld
  exact ⟨Naming.cell?_key hidempotent hcell, Entry.ofRaw?_raw hidempotent hraw⟩

/-- What is saved are the names in order of entry, each with the raw text of its entry. -/
theorem rawEntries_eq (s : Sheet) :
    s.rawEntries = s.names.filterMap fun name =>
      (s.cells.held? name).map fun entry => (name, entry.raw) := by
  refine (s.cells.map_toList fun name cell => (name, cell.entry.raw)).trans ?_
  refine List.filterMap_congr ?_
  intro name _
  rw [Ledger.held?, Option.map_map]
  rfl

/-! ## Section 2: A part of a sheet -/

/-- The sheet `t` has exactly the named cells of `s`, in this order. -/
structure LoadedPart (s t : Sheet) (names : List String) : Prop where
  sound : t.Sound
  settings_eq : t.settings = s.settings
  names_eq : t.names = names
  held?_eq : ∀ name ∈ names, t.cells.held? name = s.cells.held? name

namespace LoadedPart

theorem empty (s : Sheet) : s.LoadedPart (Sheet.empty s.settings) [] :=
  ⟨Sound.empty s.settings, rfl, rfl, nofun⟩

/-- The edges among the loaded cells are edges of the whole. -/
theorem feeds (h : s.LoadedPart t names) {u v : String} (huv : t.cells.Feeds u v) :
    s.cells.Feeds u v := by
  obtain ⟨f, hheld, hmem⟩ := huv
  have hv : v ∈ names := by
    rw [← h.names_eq]
    exact Ledger.held?_isSome_iff.mp (Option.isSome_of_eq_some hheld)
  rw [h.held?_eq v hv] at hheld
  exact ⟨f, hheld, hmem⟩

/-- No cycle is found when one more cell is loaded. -/
theorem exists_order (h : s.LoadedPart t names) (hs : s.Sound) {entry : Entry}
    (hheld : s.cells.held? name = some entry) :
    ∃ order, (t.revision name (some entry)).order [name] = .ok order := by
  apply h.sound.exists_order_revision hs.acyclic (fun u v => h.feeds)
  -- an edge into the new cell comes from its entry, which the whole sheet holds too
  intro u hu
  obtain ⟨f, hformula, hmem⟩ := (mem_precedentsOf_iff u).mp hu
  exact ⟨f, hheld.trans hformula, hmem⟩

/-- One more cell is loaded, behind the others. -/
theorem enter (h : s.LoadedPart t names) (hs : s.Sound) {entry : Entry} (hname : name ∉ names)
    (hheld : s.cells.held? name = some entry)
    (hcell : s.settings.naming.cell? name = some name)
    (hraw : Entry.ofRaw? s.settings.naming entry.raw = .ok (some entry)) :
    ∃ t' order, t.enter name entry.raw = .ok (t', order)
      ∧ s.LoadedPart t' (names ++ [name]) := by
  obtain ⟨order, horder⟩ := h.exists_order hs hheld
  refine ⟨t.commit name (some entry) (precedentsOf (some entry)) order, order, ?_, ?_⟩
  · rw [enter_eq_ok_iff, h.settings_eq]
    exact ⟨name, some entry, hcell, hraw, horder, rfl⟩
  constructor
  case sound => exact h.sound.commit horder
  case settings_eq => exact h.settings_eq
  case names_eq =>
    rw [← h.names_eq] at hname ⊢
    show ((t.cells.setEntry name (some entry)).recalculate order).names = _
    rw [Ledger.names_recalculate]
    exact Ledger.names_setEntry_of_not_mem hname entry
  case held?_eq =>
    intro other hother
    by_cases heq : other = name
    · subst heq
      rw [held?_commit_self, hheld]
    · rw [held?_commit_ne t _ order heq]
      exact h.held?_eq other (by simpa [heq] using hother)

/-- The other cells of a sheet are loaded one after the other. -/
theorem load (h : s.LoadedPart t names) (hs : s.Sound) (htyped : s.WasTyped)
    (hidempotent : ∀ name, s.settings.naming.key (s.settings.naming.key name)
      = s.settings.naming.key name) {rest : List String} (hnames : s.names = names ++ rest) :
    ∃ t', t.enterAll (rest.filterMap fun name =>
          (s.cells.held? name).map fun entry => (name, entry.raw)) = .ok t'
      ∧ s.LoadedPart t' s.names := by
  -- on the names that are still to be loaded
  induction rest generalizing t names with
  | nil =>
    rw [hnames, List.append_nil]
    exact ⟨t, rfl, h⟩
  | cons name rest ih =>
    have hstored : name ∈ s.cells.names := by
      show name ∈ s.names
      rw [hnames]
      exact List.mem_append_right _ List.mem_cons_self
    have hname : name ∉ names := by
      have hnodup : s.names.Nodup := s.cells.nodup_names
      rw [hnames] at hnodup
      intro hmem
      exact List.disjoint_of_nodup_append hnodup hmem List.mem_cons_self
    obtain ⟨entry, hheld⟩ := Option.isSome_iff_exists.mp (Ledger.held?_isSome_iff.mpr hstored)
    obtain ⟨hcell, hraw⟩ := htyped.read_saved hidempotent hheld
    obtain ⟨next, order, henter, hnext⟩ := h.enter hs hname hheld hcell hraw
    obtain ⟨t', hload, ht'⟩ := ih hnext (by rw [hnames, List.append_assoc]; rfl)
    refine ⟨t', ?_, ht'⟩
    simp only [List.filterMap_cons, hheld, Option.map_some]
    exact enterAll_cons_eq_ok_iff.mpr ⟨next, order, henter, hload⟩

end LoadedPart

/-! ## Section 3: The whole sheet -/

/-- If every key is its own key, what is saved of a reachable sheet can be loaded, and gives a sheet
    with the same names in the same order, the same entries and values, and the same edges. It is
    not marked as edited. -/
theorem Reachable.load_rawEntries (h : s.Reachable)
    (hidempotent : ∀ name, s.settings.naming.key (s.settings.naming.key name)
      = s.settings.naming.key name) :
    ∃ t, load s.settings s.rawEntries = .ok t
      ∧ t.settings = s.settings ∧ t.names = s.names ∧ s.SameContent t ∧ t.edited = false := by
  obtain ⟨t, hload, hpart⟩ := (LoadedPart.empty s).load h.sound h.wasTyped hidempotent
    (List.nil_append s.names).symm
  rw [← rawEntries_eq] at hload
  refine ⟨t.saved, load_eq_ok_iff.mpr ⟨t, hload, rfl⟩, hpart.settings_eq, hpart.names_eq, ?_, rfl⟩
  · refine h.sound.sameContent hpart.sound.saved ?_
    intro name
    by_cases hname : name ∈ s.names
    · exact (hpart.held?_eq name hname).symm
    · -- a name that was not saved is held by neither sheet
      have hmissing : name ∉ t.names := by rwa [hpart.names_eq]
      exact (Ledger.held?_eq_none_iff.mpr hname).trans (Ledger.held?_eq_none_iff.mpr hmissing).symm

/-- A small sheet with an entry of each sort: `B1` reads `A1`, which was set after it. -/
def halved : Sheet :=
  ((Request.enter "c1" " half").send ((Request.enter "a1" "-0.0").send
    ((Request.enter "b1" "= a1 / 2.50").send (empty ⟨.uppercase, "default"⟩)).2).2).2

theorem reachable_halved : halved.Reachable :=
  (((Reachable.empty _).entered "b1" "= a1 / 2.50").entered "a1" "-0.0").entered "c1" " half"

/-- The saved texts need not be those that were typed. -/
theorem halved_load_rawEntries :
    ∃ t, load ⟨.uppercase, "default"⟩ [("B1", "=A1/2.5"), ("A1", "-0"), ("C1", " half")] = .ok t
      ∧ t.names = ["B1", "A1", "C1"] ∧ halved.SameContent t := by
  have hsettings : halved.settings = ⟨.uppercase, "default"⟩ := by
    simp only [halved, settings_send_enter]
    rfl
  have hentries : halved.rawEntries = [("B1", "=A1/2.5"), ("A1", "-0"), ("C1", " half")] := by
    decide +kernel
  have hnames : halved.names = ["B1", "A1", "C1"] := by
    decide +kernel
  have hidempotent (name : String) : halved.settings.naming.key (halved.settings.naming.key name)
      = halved.settings.naming.key name := by
    rw [hsettings]
    exact Naming.key_uppercase_idempotent name
  obtain ⟨t, hload, -, hsame, hcontent, -⟩ := reachable_halved.load_rawEntries hidempotent
  rw [hsettings, hentries] at hload
  exact ⟨t, hload, hsame.trans hnames, hcontent⟩

end Sheet

end Worksheet
