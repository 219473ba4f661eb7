import Worksheet.Proofs.Sheet.Edits
import Worksheet.Proofs.Sheet.History

/-! # Loading in any order

    A sheet is loaded from a listing of typed names with raw texts, which are set one after the
    other. If no two of them are for the same cell, the sheet holds in the end what each cell was
    given, and the values and edges do not show in which order it was given.

    On the way there are sheets that hold a part of the listing, where formulas may stand before
    what they mention. The edges of such a sheet are edges of the whole listing, so that a cycle is
    found on the way only if the whole has one; and if it has one, the last of its formulas closes
    it.

    - `Naming.Reads`, `Naming.ReadsEdge`: what a listing says, whatever its order.
    - `Sheet.Holds.enter`, `Sheet.Holds.enterAll`: what one text adds to the sheet, and all of them.
    - `Sheet.load_permuted`: when a listing can be loaded, and what its order matters for.
-/

namespace Worksheet

open Relation (TransGen)

/-! ## Section 1: Listings -/

namespace Naming

/-- The typed names of the listing mean cells, and no two of them mean the same. -/
structure Separates (naming : Naming) (listing : List (String × String)) : Prop where
  means : ∀ typed raw, (typed, raw) ∈ listing → naming.MeansCell typed
  nodup : (listing.map fun item => naming.key item.1).Nodup

/-- The listing has the entry for the cell. -/
def Reads (naming : Naming) (listing : List (String × String)) (key : String) (entry : Entry) :
    Prop :=
  ∃ typed raw, (typed, raw) ∈ listing ∧ naming.key typed = key
    ∧ Entry.ofRaw? naming raw = .ok (some entry)

/-- The listing has a formula for `reader` that mentions `source`. -/
def ReadsEdge (naming : Naming) (listing : List (String × String)) (source reader : String) :
    Prop :=
  ∃ f, naming.Reads listing reader (.formula f) ∧ source ∈ f.mentions

/-- No raw text of the listing is refused as a formula. -/
def ReadsAll (naming : Naming) (listing : List (String × String)) : Prop :=
  ∀ typed raw, (typed, raw) ∈ listing → ∀ e, Entry.ofRaw? naming raw ≠ .error e

variable {naming : Naming} {listing listing' done rest : List (String × String)}
  {typed raw key : String} {entry : Entry}

theorem Reads.mono (hsub : listing ⊆ listing') (h : naming.Reads listing key entry) :
    naming.Reads listing' key entry := by
  obtain ⟨typed, raw, hmem, hread⟩ := h
  exact ⟨typed, raw, hsub hmem, hread⟩

theorem ReadsEdge.mono (hsub : listing ⊆ listing') {source reader : String}
    (h : naming.ReadsEdge listing source reader) : naming.ReadsEdge listing' source reader := by
  obtain ⟨f, hread, hmem⟩ := h
  exact ⟨f, hread.mono hsub, hmem⟩

theorem reads_append_singleton_iff :
    naming.Reads (done ++ [(typed, raw)]) key entry ↔
      naming.Reads done key entry
        ∨ (naming.key typed = key ∧ Entry.ofRaw? naming raw = .ok (some entry)) := by
  constructor
  · intro h
    obtain ⟨typed', raw', hmem, hread⟩ := h
    rcases List.mem_append.mp hmem with hdone | hlast
    · exact Or.inl ⟨typed', raw', hdone, hread⟩
    · cases List.mem_singleton.mp hlast
      exact Or.inr hread
  · intro h
    rcases h with hdone | hlast
    · exact hdone.mono (List.subset_append_left _ _)
    · exact ⟨typed, raw, by simp, hlast⟩

theorem reads_perm (h : listing.Perm listing') : naming.Reads listing = naming.Reads listing' := by
  funext key entry
  exact propext ⟨Reads.mono h.subset, Reads.mono h.symm.subset⟩

theorem readsEdge_perm (h : listing.Perm listing') :
    naming.ReadsEdge listing = naming.ReadsEdge listing' := by
  unfold ReadsEdge
  rw [reads_perm h]

theorem readsAll_perm (h : listing.Perm listing') :
    naming.ReadsAll listing ↔ naming.ReadsAll listing' := by
  unfold ReadsAll
  simp only [h.mem_iff]

theorem Separates.perm (h : naming.Separates listing) (hperm : listing.Perm listing') :
    naming.Separates listing' where
  means typed raw hmem := h.means typed raw (hperm.mem_iff.mpr hmem)
  nodup := (hperm.map _).nodup_iff.mp h.nodup

theorem Separates.left (h : naming.Separates (done ++ rest)) : naming.Separates done where
  means typed raw hmem := h.means typed raw (List.mem_append_left _ hmem)
  nodup := by
    have hnodup := h.nodup
    rw [List.map_append] at hnodup
    exact hnodup.of_append_left

/-- What comes next is for a cell that the listing has not had before. -/
theorem Separates.not_reads (h : naming.Separates (done ++ [(typed, raw)])) :
    ¬naming.Reads done (naming.key typed) entry := by
  intro hread
  obtain ⟨typed', raw', hmem, hkey, -⟩ := hread
  have hnodup := h.nodup
  rw [List.map_append] at hnodup
  apply List.disjoint_of_nodup_append hnodup (List.mem_map.mpr ⟨(typed', raw'), hmem, hkey⟩)
  exact List.mem_singleton_self _

end Naming

namespace Sheet

/-! ## Section 2: Sheets that hold a listing -/

/-- The sheet holds what the listing has for each cell, and nothing else. -/
structure Holds (s : Sheet) (settings : Settings) (listing : List (String × String)) : Prop where
  sound : s.Sound
  settings_eq : s.settings = settings
  held?_iff : ∀ key entry,
    s.cells.held? key = some entry ↔ settings.naming.Reads listing key entry

variable {s s' : Sheet} {settings : Settings} {listing listing' done rest : List (String × String)}
  {typed raw : String} {order : List String}

namespace Holds

theorem empty (settings : Settings) : (Sheet.empty settings).Holds settings [] := by
  refine ⟨Sound.empty settings, rfl, ?_⟩
  intro key entry
  have hnone : (Sheet.empty settings).cells.get? key = none := Ledger.get?_empty key
  rw [Ledger.held?, hnone]
  simp [Naming.Reads]

theorem saved (h : s.Holds settings listing) : s.saved.Holds settings listing :=
  ⟨h.sound.saved, h.settings_eq, h.held?_iff⟩

/-- The edges of the sheet are those of the listing. -/
theorem feeds_eq (h : s.Holds settings listing) :
    s.cells.Feeds = settings.naming.ReadsEdge listing := by
  funext source reader
  unfold Ledger.Feeds Naming.ReadsEdge
  simp only [h.held?_iff]

/-- Sheets that hold the same listing in different orders have the same content. -/
theorem sameContent (h : s.Holds settings listing) (h' : s'.Holds settings listing')
    (hperm : listing.Perm listing') : s.SameContent s' := by
  apply h.sound.sameContent h'.sound
  intro key
  apply Option.ext
  intro entry
  rw [h.held?_iff, h'.held?_iff, Naming.reads_perm hperm]

/-- With one more text of a listing the sheet holds what this text is for. -/
theorem enter (h : s.Holds settings done)
    (hseparates : settings.naming.Separates (done ++ [(typed, raw)]))
    (henter : s.enter typed raw = .ok (s', order)) :
    s'.Holds settings (done ++ [(typed, raw)]) := by
  obtain ⟨key, entry, hkey, hentry, horder, rfl⟩ := enter_eq_ok_iff.mp henter
  rw [h.settings_eq] at hkey hentry
  obtain ⟨-, rfl⟩ := Naming.meansCell_of_cell? hkey
  refine ⟨h.sound.commit horder, h.settings_eq, ?_⟩
  intro name found
  rw [Naming.reads_append_singleton_iff]
  by_cases hname : name = settings.naming.key typed
  · subst hname
    have hnew : ¬settings.naming.Reads done (settings.naming.key typed) found :=
      hseparates.not_reads
    rw [held?_commit_self, hentry]
    simp [hnew]
  · rw [held?_commit_ne s entry order hname, h.held?_iff]
    simp [Ne.symm hname]

/-- With the rest of a listing the sheet holds the whole. No text of the rest was refused as a
    formula. -/
theorem enterAll (h : s.Holds settings done)
    (hseparates : settings.naming.Separates (done ++ rest))
    (hload : s.enterAll rest = .ok s') :
    s'.Holds settings (done ++ rest) ∧ settings.naming.ReadsAll rest := by
  induction rest generalizing s done with
  | nil =>
    cases hload
    rw [List.append_nil]
    exact ⟨h, nofun⟩
  | cons item rest ih =>
    obtain ⟨typed, raw⟩ := item
    obtain ⟨next, order, henter, hrest⟩ := enterAll_cons_eq_ok_iff.mp hload
    rw [List.append_cons] at hseparates ⊢
    obtain ⟨hholds, hreads⟩ := ih (h.enter hseparates.left henter) hseparates hrest
    refine ⟨hholds, ?_⟩
    intro typed' raw' hmem e herror
    rcases List.mem_cons.mp hmem with heq | hmem
    · cases heq
      obtain ⟨key, entry, -, hentry, -⟩ := enter_eq_ok_iff.mp henter
      rw [h.settings_eq, herror] at hentry
      cases hentry
    · exact hreads typed' raw' hmem e herror

/-- One more text of a listing without cycles is accepted, unless it is refused as a formula. -/
theorem exists_enter (h : s.Holds settings done) (hsub : done ⊆ listing)
    (hmem : (typed, raw) ∈ listing) (hmeans : settings.naming.MeansCell typed)
    (hreads : ∀ e, Entry.ofRaw? settings.naming raw ≠ .error e)
    (hacyclic : ∀ name, ¬TransGen (settings.naming.ReadsEdge listing) name name) :
    ∃ s' order, s.enter typed raw = .ok (s', order) := by
  cases hentry : Entry.ofRaw? settings.naming raw with
  | error e => exact absurd hentry (hreads e)
  | ok entry =>
    have hstored (u v : String) (huv : s.cells.Feeds u v) :
        settings.naming.ReadsEdge listing u v := by
      rw [h.feeds_eq] at huv
      exact huv.mono hsub
    have hnew : ∀ u ∈ precedentsOf entry,
        settings.naming.ReadsEdge listing u (settings.naming.key typed) := by
      intro u hu
      obtain ⟨f, rfl, hmention⟩ := (mem_precedentsOf_iff u).mp hu
      exact ⟨f, ⟨typed, raw, hmem, rfl, hentry⟩, hmention⟩
    obtain ⟨order, horder⟩ := h.sound.exists_order_revision hacyclic hstored hnew
    refine ⟨_, order, enter_eq_ok_iff.mpr ⟨settings.naming.key typed, entry, ?_, ?_, horder, rfl⟩⟩
    · rw [h.settings_eq]
      exact hmeans.cell?_eq
    · rw [h.settings_eq]
      exact hentry

/-- The rest of a listing without cycles is accepted, if none of its texts is refused as a
    formula. -/
theorem exists_enterAll (h : s.Holds settings done)
    (hseparates : settings.naming.Separates (done ++ rest))
    (hreads : settings.naming.ReadsAll rest)
    (hacyclic : ∀ name, ¬TransGen (settings.naming.ReadsEdge (done ++ rest)) name name) :
    ∃ s', s.enterAll rest = .ok s' := by
  induction rest generalizing s done with
  | nil => exact ⟨s, rfl⟩
  | cons item rest ih =>
    obtain ⟨typed, raw⟩ := item
    have hmem : (typed, raw) ∈ done ++ (typed, raw) :: rest := by simp
    obtain ⟨next, order, henter⟩ := h.exists_enter (List.subset_append_left _ _) hmem
      (hseparates.means typed raw hmem) (hreads typed raw List.mem_cons_self) hacyclic
    rw [List.append_cons] at hseparates hacyclic
    obtain ⟨s', hrest⟩ := ih (h.enter hseparates.left henter) hseparates
      (fun typed' raw' hitem => hreads typed' raw' (List.mem_cons_of_mem _ hitem)) hacyclic
    exact ⟨s', enterAll_cons_eq_ok_iff.mpr ⟨next, order, henter, hrest⟩⟩

end Holds

/-! ## Section 3: Whole listings -/

/-- A sheet that was loaded holds the listing. -/
theorem holds_of_load (hseparates : settings.naming.Separates listing)
    (hload : load settings listing = .ok s) :
    s.Holds settings listing ∧ settings.naming.ReadsAll listing := by
  obtain ⟨t, hall, rfl⟩ := load_eq_ok_iff.mp hload
  obtain ⟨hholds, hreads⟩ := (Holds.empty settings).enterAll hseparates hall
  exact ⟨hholds.saved, hreads⟩

theorem exists_load_iff (hseparates : settings.naming.Separates listing) :
    (∃ s, load settings listing = .ok s) ↔
      settings.naming.ReadsAll listing
        ∧ ∀ name, ¬TransGen (settings.naming.ReadsEdge listing) name name := by
  constructor
  · intro hexists
    obtain ⟨s, hload⟩ := hexists
    obtain ⟨hholds, hreads⟩ := holds_of_load hseparates hload
    rw [← hholds.feeds_eq]
    exact ⟨hreads, hholds.sound.acyclic⟩
  · intro hlisting
    obtain ⟨hreads, hacyclic⟩ := hlisting
    obtain ⟨t, hall⟩ := (Holds.empty settings).exists_enterAll hseparates hreads hacyclic
    exact ⟨t.saved, load_eq_ok_iff.mpr ⟨t, hall, rfl⟩⟩

/-- A listing in which no two names mean the same cell can be loaded if no text is refused as a
    formula and the formulas have no cycle, and only then. In another order it can be loaded too,
    and gives a sheet with the same content, in which only the names may stand in another order. -/
theorem load_permuted (hseparates : settings.naming.Separates listing) :
    ((∃ s, load settings listing = .ok s) ↔
      settings.naming.ReadsAll listing
        ∧ ∀ name, ¬TransGen (settings.naming.ReadsEdge listing) name name)
    ∧ ∀ listing', listing.Perm listing' →
        ((∃ s, load settings listing = .ok s) ↔ ∃ s', load settings listing' = .ok s')
        ∧ ∀ s s', load settings listing = .ok s → load settings listing' = .ok s' →
            s.SameContent s' ∧ s.names.Perm s'.names ∧ s.settings = s'.settings
              ∧ s.edited = s'.edited := by
  refine ⟨exists_load_iff hseparates, ?_⟩
  intro listing' hperm
  have hseparates' : settings.naming.Separates listing' := hseparates.perm hperm
  constructor
  · rw [exists_load_iff hseparates, exists_load_iff hseparates', Naming.readsAll_perm hperm,
      Naming.readsEdge_perm hperm]
  · intro s s' hload hload'
    have hholds : s.Holds settings listing := (holds_of_load hseparates hload).1
    have hholds' : s'.Holds settings listing' := (holds_of_load hseparates' hload').1
    have hcontent : s.SameContent s' := hholds.sameContent hholds' hperm
    refine ⟨hcontent, hcontent.names_perm, hholds.settings_eq.trans hholds'.settings_eq.symm, ?_⟩
    obtain ⟨t, -, rfl⟩ := load_eq_ok_iff.mp hload
    obtain ⟨t', -, rfl⟩ := load_eq_ok_iff.mp hload'
    rfl

/-- The cells of a chain, each after what it mentions. -/
def chainListing : List (String × String) := [("A1", "2"), ("B1", "=A1"), ("C1", "=B1")]

/-- They may be set from the end, so that both formulas stand before what they mention. -/
theorem chain_load_permuted :
    ∃ s s', load {} chainListing = .ok s ∧ load {} chainListing.reverse = .ok s'
      ∧ s.SameContent s' := by
  have hseparates : ({} : Settings).naming.Separates chainListing := by
    constructor
    case means =>
      have hcells : ∀ item ∈ chainListing, (({} : Settings).naming.cell? item.1).isSome := by
        decide +kernel
      intro typed raw hmem
      obtain ⟨key, hkey⟩ := Option.isSome_iff_exists.mp (hcells _ hmem)
      exact (Naming.meansCell_of_cell? hkey).1
    case nodup => decide +kernel
  have hloaded : (load {} chainListing).toOption.isSome := by decide +kernel
  cases hload : load {} chainListing with
  | error e =>
    rw [hload] at hloaded
    cases hloaded
  | ok s =>
    obtain ⟨hiff, hsame⟩ := (load_permuted hseparates).2 _ (List.reverse_perm chainListing).symm
    obtain ⟨s', hload'⟩ := hiff.mp ⟨s, hload⟩
    exact ⟨s, s', rfl, hload', (hsame s s' hload hload').1⟩

end Sheet

end Worksheet
