import Worksheet.Proofs.Sheet.Soundness

/-! # When an edit is refused

    A request to set a cell is refused for its name, for its formula or for a cycle, in this order,
    and a request that is refused changes nothing. The last reason is decided by a walk over the
    revised graph, but it can be told from the sheet as it is: the formula mentions the cell itself
    or one that reads it, directly or through others.

    - `Entry.ofRaw?_eq_map_iff`: which raw texts are taken for formulas.
    - `Sheet.Refusal`: why a request must be refused.
    - `Sheet.Reachable.refused_iff`: it is refused for this and for nothing else.
-/

namespace Worksheet

open Relation (ReflTransGen TransGen)

/-! ## Section 1: Names and raw texts -/

namespace Naming

/-- A name means a cell when it is a cell name both as typed and as a key, and the key is
    accepted. -/
def MeansCell (naming : Naming) (typed : String) : Prop :=
  Name.isCell typed = true ∧ Name.isCell (naming.key typed) = true
    ∧ naming.accepts (naming.key typed) = true

variable {naming : Naming} {typed key : String}

theorem MeansCell.cell?_eq (h : naming.MeansCell typed) :
    naming.cell? typed = some (naming.key typed) :=
  (cell?_eq_some_iff _ _ _).mpr ⟨h.1, rfl, h.2.1, h.2.2⟩

theorem meansCell_of_cell? (h : naming.cell? typed = some key) :
    naming.MeansCell typed ∧ key = naming.key typed := by
  obtain ⟨htyped, rfl, hkey, haccepts⟩ := (cell?_eq_some_iff _ _ _).mp h
  exact ⟨⟨htyped, hkey, haccepts⟩, rfl⟩

theorem cell?_eq_none_iff : naming.cell? typed = none ↔ ¬naming.MeansCell typed := by
  constructor
  · intro h hmeans
    rw [hmeans.cell?_eq] at h
    cases h
  · intro h
    cases hkey : naming.cell? typed with
    | none => rfl
    | some key => exact absurd (meansCell_of_cell? hkey).1 h

end Naming

namespace Entry

/-- The raw text is no finite number and begins as a formula, with `rest` after the mark. -/
def BeginsFormula (raw : String) (rest : List Char) : Prop :=
  finiteNumber? raw.toList = none ∧ raw.toList = '=' :: rest

variable {naming : Naming} {raw : String} {rest : List Char}

/-- What the formula after the mark is read as decides. -/
theorem BeginsFormula.ofRaw?_eq (h : BeginsFormula raw rest) :
    ofRaw? naming raw
      = (Formula.parse naming (String.ofList rest)).map fun f => some (formula f) := by
  obtain ⟨hnumber, hraw⟩ := h
  rw [hraw] at hnumber
  unfold ofRaw?
  rw [hraw]
  simp only [hnumber, if_true]

/-- Any other text is accepted as no formula: as a number, as a text or as no entry. -/
theorem ofRaw?_of_not_beginsFormula (naming : Naming) (h : ∀ rest, ¬BeginsFormula raw rest) :
    ∃ entry, ofRaw? naming raw = .ok entry ∧ ∀ f, entry ≠ some (formula f) := by
  unfold ofRaw?
  cases hraw : raw.toList with
  | nil => exact ⟨none, rfl, nofun⟩
  | cons first rest =>
    cases hnumber : finiteNumber? (first :: rest) with
    | some x => exact ⟨some (number x), by simp only [hnumber], nofun⟩
    | none =>
      have hfirst : first ≠ '=' := by
        intro heq
        subst heq
        exact h rest ⟨by rw [hraw, hnumber], hraw⟩
      exact ⟨some (text raw), by simp only [hnumber, if_neg hfirst], nofun⟩

/-- A raw text is taken for a formula, or refused as one, when it begins as a formula, and as what
    stands after the mark. -/
theorem ofRaw?_eq_map_iff (result : Except SyntaxError Formula) :
    ofRaw? naming raw = result.map (fun f => some (formula f)) ↔
      ∃ rest, BeginsFormula raw rest ∧ Formula.parse naming (String.ofList rest) = result := by
  constructor
  · intro h
    by_cases hbegins : ∃ rest, BeginsFormula raw rest
    · obtain ⟨rest, hrest⟩ := hbegins
      refine ⟨rest, hrest, ?_⟩
      rw [hrest.ofRaw?_eq] at h
      generalize Formula.parse naming (String.ofList rest) = parsed at h ⊢
      cases parsed with
      | ok f =>
        cases result with
        | ok g => simpa [Except.map] using h
        | error e => cases h
      | error e =>
        cases result with
        | ok g => cases h
        | error e' => simpa [Except.map] using h
    · obtain ⟨entry, hentry, hformula⟩ :=
        ofRaw?_of_not_beginsFormula naming fun rest hrest => hbegins ⟨rest, hrest⟩
      rw [hentry] at h
      cases result with
      | ok f => exact absurd (Except.ok.inj h) (hformula f)
      | error e => cases h
  · intro hex
    obtain ⟨rest, hrest, rfl⟩ := hex
    exact hrest.ofRaw?_eq

end Entry

/-! ## Section 2: Reasons to refuse -/

namespace Sheet

/-- Why the sheet must refuse to set the cell typed as `typed` to what `raw` is. -/
inductive Refusal (s : Sheet) (typed raw : String) : SheetError → Prop where
  | noSuchName (h : ¬s.settings.naming.MeansCell typed) : Refusal s typed raw (.noSuchName typed)
  /-- The text after the mark is no formula. -/
  | badFormula {rest : List Char} {e : SyntaxError} (hname : s.settings.naming.MeansCell typed)
      (hraw : Entry.BeginsFormula raw rest)
      (hparse : Formula.parse s.settings.naming (String.ofList rest) = .error e) :
      Refusal s typed raw (.badFormula e)
  /-- The formula mentions the cell, or one that depends on it. -/
  | cycle {rest : List Char} {f : Formula} {name : String}
      (hname : s.settings.naming.MeansCell typed) (hraw : Entry.BeginsFormula raw rest)
      (hparse : Formula.parse s.settings.naming (String.ofList rest) = .ok f)
      (hmem : name ∈ f.mentions)
      (hpath : name = s.settings.naming.key typed
        ∨ TransGen s.cells.Feeds (s.settings.naming.key typed) name) :
      Refusal s typed raw (.cycle (s.settings.naming.key typed))

variable {s : Sheet} {typed raw key : String}

/-- The walk of an edit fails exactly when the new entry is a formula that mentions the cell or one
    that depends on it. -/
theorem Sound.order_revision_error_iff (h : s.Sound) {entry : Option Entry} :
    (∃ name, (s.revision key entry).order [key] = .error name) ↔
      ∃ f name, entry = some (.formula f) ∧ name ∈ f.mentions
        ∧ (name = key ∨ TransGen s.cells.Feeds key name) := by
  have hok := Wiring.order_revised_ok_iff h.graph_acyclic key (precedentsOf entry)
  rw [h.mirrored] at hok
  constructor
  · intro herror
    obtain ⟨name, horder⟩ := herror
    by_contra hnone
    have hfree : ∀ u ∈ precedentsOf entry, ¬ReflTransGen s.cells.Feeds key u := by
      intro u hu hpath
      obtain ⟨f, hf, hmem⟩ := (mem_precedentsOf_iff u).mp hu
      exact hnone ⟨f, u, hf, hmem, Relation.reflTransGen_iff_eq_or_transGen.mp hpath⟩
    obtain ⟨order, hlist⟩ := hok.mpr hfree
    rw [revision, hlist] at horder
    cases horder
  · intro hcloses
    obtain ⟨f, name, hf, hmem, hpath⟩ := hcloses
    cases horder : (s.revision key entry).order [key] with
    | error name => exact ⟨name, rfl⟩
    | ok order =>
      have hfree := hok.mp ⟨order, horder⟩
      exact absurd (Relation.reflTransGen_iff_eq_or_transGen.mpr hpath)
        (hfree name ((mem_precedentsOf_iff name).mpr ⟨f, hf, hmem⟩))

/-- A sound sheet refuses an edit when it must. -/
theorem Sound.enter_eq_error_iff (h : s.Sound) {e : SheetError} :
    s.enter typed raw = .error e ↔ s.Refusal typed raw e := by
  rw [enter_eq]
  constructor
  · -- the checks in their order, each with the reason for which it fails
    intro henter
    split at henter
    · next hkey =>
      cases henter
      exact .noSuchName (Naming.cell?_eq_none_iff.mp hkey)
    · next key hkey =>
      obtain ⟨hname, rfl⟩ := Naming.meansCell_of_cell? hkey
      split at henter
      · next e hentry =>
        cases henter
        obtain ⟨rest, hraw, hparse⟩ := (Entry.ofRaw?_eq_map_iff (.error e)).mp hentry
        exact .badFormula hname hraw hparse
      · next entry hentry =>
        split at henter
        · next failed horder =>
          cases henter
          obtain ⟨f, name, rfl, hmem, hpath⟩ := h.order_revision_error_iff.mp ⟨failed, horder⟩
          obtain ⟨rest, hraw, hparse⟩ := (Entry.ofRaw?_eq_map_iff (.ok f)).mp hentry
          exact .cycle hname hraw hparse hmem hpath
        · cases henter
  · -- a reason says that the checks before its own succeed
    intro hrefusal
    cases hrefusal with
    | noSuchName hname => rw [Naming.cell?_eq_none_iff.mpr hname]
    | badFormula hname hraw hparse =>
      rw [hname.cell?_eq]
      simp only [hraw.ofRaw?_eq, hparse, Except.map]
    | @cycle rest f name hname hraw hparse hmem hpath =>
      obtain ⟨failed, horder⟩ :=
        h.order_revision_error_iff.mpr ⟨f, name, rfl, hmem, hpath⟩
      rw [hname.cell?_eq]
      simp only [hraw.ofRaw?_eq, hparse, Except.map, horder]

/-! ## Section 3: Requests to set a cell -/

/-- A request that is refused leaves the sheet as it was. -/
theorem send_enter_error_iff {s' : Sheet} {e : SheetError} :
    (Request.enter typed raw).send s = (.error e, s') ↔ s.enter typed raw = .error e ∧ s' = s := by
  rw [Request.send_enter]
  cases s.enter typed raw with
  | error e' => simp [eq_comm]
  | ok result => simp

/-- A request that is not refused marks the sheet as edited. -/
theorem edited_of_send_enter_ok {s' : Sheet} {order : List String}
    (h : (Request.enter typed raw).send s = (.ok order, s')) : s'.edited = true := by
  rw [Request.send_enter] at h
  cases henter : s.enter typed raw with
  | error e =>
    rw [henter] at h
    cases h
  | ok result =>
    obtain ⟨next, list⟩ := result
    rw [henter] at h
    cases h
    obtain ⟨key, entry, -, -, -, rfl⟩ := enter_eq_ok_iff.mp henter
    rfl

theorem exists_send_enter_ok_iff :
    (∃ order s', (Request.enter typed raw).send s = (.ok order, s')) ↔
      ∀ e, s.enter typed raw ≠ .error e := by
  rw [Request.send_enter]
  cases s.enter typed raw with
  | error e => simp
  | ok result => simp

/-- In a reachable sheet a request to set a cell is refused when it must be, and nothing is changed
    then. Otherwise it succeeds, and the sheet is edited. In particular numbers, texts and clears
    are never refused for a name that means a cell. -/
theorem Reachable.refused_iff (h : s.Reachable) (typed raw : String) :
    (∀ e s', (Request.enter typed raw).send s = (.error e, s') ↔ s.Refusal typed raw e ∧ s' = s)
    ∧ ((∃ order s', (Request.enter typed raw).send s = (.ok order, s')) ↔
        ∀ e, ¬s.Refusal typed raw e)
    ∧ (∀ order s', (Request.enter typed raw).send s = (.ok order, s') → s'.edited = true)
    ∧ (s.settings.naming.MeansCell typed → (∀ rest, ¬Entry.BeginsFormula raw rest) →
        ∃ order s', (Request.enter typed raw).send s = (.ok order, s')) := by
  have hok : (∃ order s', (Request.enter typed raw).send s = (.ok order, s')) ↔
      ∀ e, ¬s.Refusal typed raw e := by
    rw [exists_send_enter_ok_iff]
    exact forall_congr' fun e => not_congr h.sound.enter_eq_error_iff
  refine ⟨?_, hok, fun order s' => edited_of_send_enter_ok, ?_⟩
  · intro e s'
    rw [send_enter_error_iff, h.sound.enter_eq_error_iff]
  · intro hname hplain
    rw [hok]
    intro e hrefusal
    cases hrefusal with
    | noSuchName hnot => exact hnot hname
    | badFormula _ hraw _ => exact hplain _ hraw
    | cycle _ hraw _ _ _ => exact hplain _ hraw

/-- The beginning of a chain cannot read its end, and nothing else is changed by the attempt. -/
theorem chain_refused_iff :
    chain.Refusal "A1" "=C1" (.cycle "A1")
      ∧ ((Request.enter "A1" "=C1").send chain).2 = chain := by
  have hanswer : ((Request.enter "A1" "=C1").send chain).1 = .error (.cycle "A1") := by
    decide +kernel
  apply ((reachable_chain.refused_iff "A1" "=C1").1 (.cycle "A1") _).mp
  rw [← hanswer]

end Sheet

end Worksheet
