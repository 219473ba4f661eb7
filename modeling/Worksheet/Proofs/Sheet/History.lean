import Worksheet.Proofs.Graph.Sameness
import Worksheet.Proofs.Sheet.Soundness

/-! # What a sheet has forgotten

    Values and edges are kept up by each edit in turn, but in a sound sheet they follow from the
    entries: two sound sheets with the same entries have the same values and the same edges. For an
    edit the entry of the edited cell does not matter either, since the edges into this cell are
    replaced before the walk. The same holds of a part of the sheet that mentions nothing outside.

    - `Ledger.get?_eq_of_closedOn`: the entries of a part decide its values.
    - `Sheet.Sound.sameContent`: the entries decide the values and the edges.
    - `Sheet.Sound.order_revision_congr`: the other entries decide the order of an edit.
    - `Sheet.Reachable.outcome_determined`: they decide its outcome.
    - `Sheet.Reachable.region_determined`: what a cell reads decides its value.
-/

namespace Worksheet

open Relation (ReflTransGen TransGen)

/-! ## Section 1: Ledgers with the same entries -/

namespace Ledger

variable {cells cells' : Ledger Cell}

theorem feeds_congr {target : String} (h : cells.held? target = cells'.held? target)
    (source : String) : cells.Feeds source target ↔ cells'.Feeds source target := by
  unfold Feeds
  rw [h]

/-- A cell that one ledger stores is stored by the other, with the same entry. -/
theorem exists_get?_of_held?_eq {name : String} (h : cells.held? name = cells'.held? name)
    {cell : Cell} (hget : cells.get? name = some cell) :
    ∃ cell', cells'.get? name = some cell' ∧ cell'.entry = cell.entry := by
  rw [held?_of_get? hget] at h
  exact Option.map_eq_some_iff.mp h.symm

theorem get?_eq_none_of_held?_eq {name : String} (h : cells.held? name = cells'.held? name)
    (hget : cells.get? name = none) : cells'.get? name = none := by
  rw [held?, hget, Option.map_none] at h
  exact Option.map_eq_none_iff.mp h.symm

/-- What a cell reads is among the names that its entry mentions. -/
theorem mem_of_feeds {source reader : String} {names : List String}
    (hfeeds : cells.Feeds source reader)
    (hmentions : (cells.held? reader).map (·.mentions.toList) = some names) : source ∈ names := by
  obtain ⟨f, hheld, hsource⟩ := hfeeds
  rw [hheld] at hmentions
  obtain rfl : f.mentions.toList = names := Option.some.inj hmentions
  exact Std.TreeSet.mem_toList.mpr hsource

/-- What the cells of the region mention lies in the region. -/
def ClosedOn (cells : Ledger Cell) (region : String → Prop) : Prop :=
  ∀ source reader, cells.Feeds source reader → region reader → region source

/-- Where two ledgers hold the same entries and mention nothing else, current cells have the same
    values. -/
theorem get?_eq_of_closedOn {region : String → Prop} (hwf : WellFounded cells.Feeds)
    (hcurrent : ∀ name, cells.IsCurrent name) (hcurrent' : ∀ name, cells'.IsCurrent name)
    (hclosed : cells.ClosedOn region)
    (hsame : ∀ name, region name → cells.held? name = cells'.held? name) {name : String}
    (hname : region name) : cells.get? name = cells'.get? name := by
  -- from what is mentioned to what mentions it
  induction name using hwf.induction with
  | _ name ih =>
    cases hget : cells.get? name with
    | none => rw [get?_eq_none_of_held?_eq (hsame name hname) hget]
    | some cell =>
      obtain ⟨cell', hget', hentry⟩ := exists_get?_of_held?_eq (hsame name hname) hget
      have hvalue : cell'.value = cell.value := by
        rw [hcurrent name cell hget, hcurrent' name cell' hget', hentry]
        apply cell.entry.value_congr
        intro source hsource
        have hfeeds : cells.Feeds source name := feeds_of_mentions hget hsource
        exact (lookup_congr (ih source hfeeds (hclosed source name hfeeds hname))).symm
      have hcell : cell' = cell := congrArg₂ Cell.mk hentry hvalue
      rw [hget', hcell]

end Ledger

/-! ## Section 2: Sheets with the same entries -/

namespace Sheet

/-- The sheets store the same cells, with the same entries and values, and have the same edges. The
    cells may have been entered in another order. -/
structure SameContent (s s' : Sheet) : Prop where
  get?_eq : ∀ name, s.cells.get? name = s'.cells.get? name
  sameEdges : s.graph.SameEdges s'.graph

variable {s s' : Sheet} {key : String} {entry : Option Entry} {order : List String}

theorem SameContent.names_perm (h : s.SameContent s') : s.names.Perm s'.names := by
  unfold names
  rw [List.perm_ext_iff_of_nodup s.cells.nodup_names s'.cells.nodup_names]
  intro name
  rw [← s.cells.get?_isSome_iff, ← s'.cells.get?_isSome_iff, h.get?_eq]

/-- The entries of a sound sheet decide its values and its edges. -/
theorem Sound.sameContent (h : s.Sound) (h' : s'.Sound)
    (hheld : ∀ name, s.cells.held? name = s'.cells.held? name) : s.SameContent s' := by
  constructor
  case get?_eq =>
    intro name
    have hall : s.cells.ClosedOn fun _ => True := fun _ _ _ _ => trivial
    exact Ledger.get?_eq_of_closedOn h.wellFounded_feeds h.current h'.current hall
      (fun name _ => hheld name) trivial
  case sameEdges =>
    apply h.coherent.sameEdges h'.coherent
    rw [h.mirrored, h'.mirrored]
    funext source target
    exact propext (Ledger.feeds_congr (hheld target) source)

/-! ## Section 3: Edits of the same cell -/

theorem held?_commit_self (s : Sheet) (key : String) (entry : Option Entry) (order : List String) :
    (s.commit key entry (precedentsOf entry) order).cells.held? key = entry := by
  show ((s.cells.setEntry key entry).recalculate order).held? key = _
  rw [Ledger.held?_recalculate, Ledger.held?_setEntry_self]

theorem held?_commit_ne (s : Sheet) (entry : Option Entry) (order : List String) {name : String}
    (hne : name ≠ key) :
    (s.commit key entry (precedentsOf entry) order).cells.held? name = s.cells.held? name := by
  show ((s.cells.setEntry key entry).recalculate order).held? name = _
  rw [Ledger.held?_recalculate, Ledger.held?_setEntry_ne _ _ hne]

/-- The order of an edit does not depend on the entry that is replaced. -/
theorem Sound.order_revision_congr (h : s.Sound) (h' : s'.Sound)
    (hothers : ∀ name, name ≠ key → s.cells.held? name = s'.cells.held? name)
    (entry : Option Entry) :
    (s.revision key entry).order [key] = (s'.revision key entry).order [key] := by
  apply Wiring.order_congr
  unfold revision
  rw [Wiring.feeds_revised, Wiring.feeds_revised, h.mirrored, h'.mirrored]
  funext source target
  refine propext (or_congr_right ?_)
  -- edges into other cells than the edited one come from entries that both sheets hold
  constructor
  · intro hedge
    exact ⟨hedge.1, (Ledger.feeds_congr (hothers target hedge.1) source).mp hedge.2⟩
  · intro hedge
    exact ⟨hedge.1, (Ledger.feeds_congr (hothers target hedge.1) source).mpr hedge.2⟩

/-- Edits of one cell leave the same content when the other cells hold the same entries. -/
theorem Sound.sameContent_commit (h : s.Sound) (h' : s'.Sound)
    (hothers : ∀ name, name ≠ key → s.cells.held? name = s'.cells.held? name)
    (horder : (s.revision key entry).order [key] = .ok order) :
    (s.commit key entry (precedentsOf entry) order).SameContent
      (s'.commit key entry (precedentsOf entry) order) := by
  have horder' : (s'.revision key entry).order [key] = .ok order := by
    rw [← h.order_revision_congr h' hothers, horder]
  refine (h.commit horder).sameContent (h'.commit horder') ?_
  intro name
  by_cases hname : name = key
  · subst hname
    rw [held?_commit_self, held?_commit_self]
  · rw [held?_commit_ne s entry order hname, held?_commit_ne s' entry order hname]
    exact hothers name hname

/-! ## Section 4: Requests that leave the other cells alone -/

theorem settings_send_enter (s : Sheet) (typed raw : String) :
    ((Request.enter typed raw).send s).2.settings = s.settings := by
  rw [Request.send_enter]
  cases henter : s.enter typed raw with
  | error e => rfl
  | ok result =>
    obtain ⟨s', order⟩ := result
    obtain ⟨key, entry, -, -, -, rfl⟩ := enter_eq_ok_iff.mp henter
    rfl

/-- A request to set a cell changes no other entry, whether it is refused or not. -/
theorem held?_send_enter_ne (s : Sheet) {typed : String} (raw : String) {name : String}
    (hne : name ≠ s.settings.naming.key typed) :
    ((Request.enter typed raw).send s).2.cells.held? name = s.cells.held? name := by
  rw [Request.send_enter]
  cases henter : s.enter typed raw with
  | error e => rfl
  | ok result =>
    obtain ⟨s', order⟩ := result
    obtain ⟨key, entry, hkey, -, -, rfl⟩ := enter_eq_ok_iff.mp henter
    obtain ⟨-, rfl, -⟩ := (Naming.cell?_eq_some_iff _ _ _).mp hkey
    exact held?_commit_ne s entry order hne

/-! ## Section 5: The outcome -/

/-- When two reachable sheets with the same settings hold the same entries in all cells but one, a
    request to set this cell has the same answer in both, an order or an error; and if it is
    accepted, both sheets have the same content afterwards. How the sheets came about does not
    matter, nor what they held in the cell. -/
theorem Reachable.outcome_determined (h : s.Reachable) (h' : s'.Reachable)
    (hsettings : s.settings = s'.settings) (typed raw : String)
    (hothers : ∀ name, name ≠ s.settings.naming.key typed →
      s.cells.held? name = s'.cells.held? name) :
    ((Request.enter typed raw).send s).1 = ((Request.enter typed raw).send s').1
    ∧ ∀ order, ((Request.enter typed raw).send s).1 = .ok order →
        ((Request.enter typed raw).send s).2.SameContent
          ((Request.enter typed raw).send s').2 := by
  rw [Request.send_enter, Request.send_enter, enter_eq, enter_eq, ← hsettings]
  cases hkey : s.settings.naming.cell? typed with
  | none => exact ⟨rfl, nofun⟩
  | some key =>
    obtain ⟨-, rfl, -⟩ := (Naming.cell?_eq_some_iff _ _ _).mp hkey
    cases hentry : Entry.ofRaw? s.settings.naming raw with
    | error e => exact ⟨rfl, nofun⟩
    | ok entry =>
      simp only [h.sound.order_revision_congr h'.sound hothers entry]
      cases horder : (s'.revision (s.settings.naming.key typed) entry).order
        [s.settings.naming.key typed] with
      | error name => exact ⟨rfl, nofun⟩
      | ok order =>
        refine ⟨rfl, ?_⟩
        intro order' _
        rw [← h.sound.order_revision_congr h'.sound hothers entry] at horder
        exact h.sound.sameContent_commit h'.sound hothers horder

/-- What the beginning of a chain is overwritten with does not show once it is set again. -/
theorem chain_outcome_determined :
    ((Request.enter "A1" "5").send chain).1
        = ((Request.enter "A1" "5").send ((Request.enter "A1" "=Z1").send chain).2).1
      ∧ ((Request.enter "A1" "5").send chain).2.SameContent
          ((Request.enter "A1" "5").send ((Request.enter "A1" "=Z1").send chain).2).2 := by
  have haccepted : ((Request.enter "A1" "5").send chain).1 = .ok ["A1", "B1", "C1"] := by
    decide +kernel
  obtain ⟨hanswer, hcontent⟩ := reachable_chain.outcome_determined
    (reachable_chain.entered "A1" "=Z1") (settings_send_enter chain "A1" "=Z1").symm "A1" "5"
    fun name hname => (held?_send_enter_ne chain "=Z1" hname).symm
  exact ⟨hanswer, hcontent _ haccepted⟩

/-! ## Section 6: A part of a sheet -/

/-- When two reachable sheets hold the same entries in some cells, and no other cells are mentioned
    there, then they have the same values in these cells. How the sheets came about does not
    matter, nor what they hold elsewhere. -/
theorem Reachable.region_determined (h : s.Reachable) (h' : s'.Reachable)
    {region : String → Prop} (hclosed : s.cells.ClosedOn region)
    (hsame : ∀ name, region name → s.cells.held? name = s'.cells.held? name) (name : String)
    (hname : region name) : s.cells.get? name = s'.cells.get? name :=
  Ledger.get?_eq_of_closedOn h.sound.wellFounded_feeds h.sound.current h'.sound.current hclosed
    hsame hname

/-- The middle of a chain keeps its value when the end is overwritten. -/
theorem chain_region_determined :
    chain.cells.get? "B1" = ((Request.enter "C1" "=B1/0").send chain).2.cells.get? "B1" := by
  have hclosed : chain.cells.ClosedOn fun name => name = "A1" ∨ name = "B1" := by
    have hfirst : (chain.cells.held? "A1").map (·.mentions.toList) = some [] := by decide +kernel
    have hmiddle : (chain.cells.held? "B1").map (·.mentions.toList) = some ["A1"] := by
      decide +kernel
    intro source reader hfeeds hreader
    rcases hreader with rfl | rfl
    · simpa using Ledger.mem_of_feeds hfeeds hfirst
    · exact Or.inl (List.mem_singleton.mp (Ledger.mem_of_feeds hfeeds hmiddle))
  apply reachable_chain.region_determined (reachable_chain.entered "C1" "=B1/0") hclosed
  case hname => exact Or.inr rfl
  case hsame =>
    have hkey : chain.settings.naming.key "C1" = "C1" := by decide +kernel
    intro name hname
    have hne : name ≠ chain.settings.naming.key "C1" := by
      rw [hkey]
      rcases hname with rfl | rfl <;> decide
    exact (held?_send_enter_ne chain "=B1/0" hne).symm

end Sheet

end Worksheet
