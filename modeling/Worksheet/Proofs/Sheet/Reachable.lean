import Worksheet.Sheet.Request

/-! # Reachable sheets

    A sheet is reachable when it was created empty or loaded, and was then sent any requests, of
    which any may have been refused.

    - `Sheet.enter_eq_ok_iff`: what an accepted edit commits.
    - `Request.send_enter`: setting a cell in place is `Sheet.enter`; what is refused changes
      nothing.
    - `Sheet.Reachable.of_steps`: what holds of empty sheets, and is kept by accepted edits and when
      the sheet is saved, holds of reachable sheets.
-/

namespace Worksheet

/-! ## Section 1: Accepted edits -/

namespace Sheet

variable {s s' : Sheet} {typed raw key : String} {order : List String}

theorem cellKey_eq_ok_iff :
    s.cellKey typed = .ok key ↔ s.settings.naming.cell? typed = some key := by
  unfold cellKey
  cases s.settings.naming.cell? typed <;> simp

theorem cellKey_eq_error_iff {e : SheetError} :
    s.cellKey typed = .error e ↔
      s.settings.naming.cell? typed = none ∧ e = .noSuchName typed := by
  unfold cellKey
  cases s.settings.naming.cell? typed <;> simp [eq_comm]

/-- The names that a new entry mentions; none if the cell is cleared. -/
def precedentsOf (entry : Option Entry) : Std.TreeSet String := entry.elim ∅ Entry.mentions

/-- The graph in which the cell `key` holds the new entry. -/
def revision (s : Sheet) (key : String) (entry : Option Entry) : Wiring :=
  .revised s.graph key (precedentsOf entry)

/-- The three reasons to refuse an edit, in their order, and what is committed otherwise. -/
theorem enter_eq (s : Sheet) (typed raw : String) :
    s.enter typed raw =
      match s.settings.naming.cell? typed with
      | none => .error (.noSuchName typed)
      | some key =>
        match Entry.ofRaw? s.settings.naming raw with
        | .error e => .error (.badFormula e)
        | .ok entry =>
          match (s.revision key entry).order [key] with
          | .error _ => .error (.cycle key)
          | .ok order => .ok (s.commit key entry (precedentsOf entry) order, order) := by
  unfold enter cellKey
  cases s.settings.naming.cell? typed with
  | none => rfl
  | some key =>
    cases Entry.ofRaw? s.settings.naming raw with
    | error e => rfl
    | ok entry => rfl

/-- An accepted edit has a key and an entry, and an order for the revised graph, which it
    commits. -/
theorem enter_eq_ok_iff :
    s.enter typed raw = .ok (s', order) ↔
      ∃ key entry, s.settings.naming.cell? typed = some key
        ∧ Entry.ofRaw? s.settings.naming raw = .ok entry
        ∧ (s.revision key entry).order [key] = .ok order
        ∧ s' = s.commit key entry (precedentsOf entry) order := by
  rw [enter_eq]
  constructor
  · intro h
    split at h
    · cases h
    · next key hkey =>
      split at h
      · cases h
      · next entry hentry =>
        split at h
        · cases h
        · next order horder =>
          cases h
          exact ⟨key, entry, hkey, hentry, horder, rfl⟩
  · intro h
    obtain ⟨key, entry, hkey, hentry, horder, rfl⟩ := h
    rw [hkey]
    simp only [hentry, horder]

end Sheet

/-! ## Section 2: Requests in place -/

namespace Request

variable {α β : Type}

theorem send_bind (request : Request α) (next : α → Request β) (s : Sheet) :
    (request >>= next).send s = match request.send s with
      | (.ok a, s') => (next a).send s'
      | (.error e, s') => (.error e, s') := by
  unfold send
  rcases h : request s with ⟨answer, s'⟩
  cases answer <;>
  · simp only [bind, ExceptT.bind, ExceptT.mk, ExceptT.run, StateT.bind, StateT.run, h]
    rfl

theorem send_pure (a : α) (s : Sheet) : (pure a : Request α).send s = (.ok a, s) := rfl

theorem send_get (s : Sheet) : (get : Request Sheet).send s = (.ok s, s) := rfl

theorem send_modify (change : Sheet → Sheet) (s : Sheet) :
    (modify change : Request PUnit).send s = (.ok (), change s) := rfl

theorem send_lift (answer : Except SheetError α) (s : Sheet) :
    (liftM answer : Request α).send s = (answer, s) := by
  cases answer <;> rfl

theorem send_modifyCells (change : Ledger Cell → Ledger Cell) (s : Sheet) :
    (modifyCells change).send s = (.ok (), { s with cells := change s.cells }) := rfl

/-- Cells computed again one by one are computed again in the given order. -/
theorem send_recalculate (order : List String) (s : Sheet) :
    (order.forM fun name => modifyCells (Ledger.recalculateCell · name)).send s
      = (.ok (), { s with cells := s.cells.recalculate order }) := by
  induction order generalizing s with
  | nil => rfl
  | cons name order ih => exact ih { s with cells := s.cells.recalculateCell name }

theorem send_mapError {ε : Type} (answer : Except ε α) (blame : ε → SheetError) (s : Sheet) :
    (liftM (answer.mapError blame) : Request α).send s = match answer with
      | .ok a => (.ok a, s)
      | .error e => (.error (blame e), s) := by
  cases answer <;> rfl

/-- To set a cell in place is to go on with the sheet that `Sheet.enter` gives, if it gives one,
    and else with the same sheet. -/
theorem send_enter (s : Sheet) (typed raw : String) :
    (enter typed raw).send s = match s.enter typed raw with
      | .ok (s', order) => (.ok order, s')
      | .error e => (.error e, s) := by
  rw [Sheet.enter_eq]
  unfold enter Sheet.revision Sheet.precedentsOf
  rw [send_bind, send_get]
  dsimp only
  rw [send_bind, send_lift]
  cases hkey : s.settings.naming.cell? typed with
  | none => rw [Sheet.cellKey_eq_error_iff.mpr ⟨hkey, rfl⟩]
  | some key =>
    rw [Sheet.cellKey_eq_ok_iff.mpr hkey]
    simp only [send_bind, send_mapError]
    cases hentry : Entry.ofRaw? s.settings.naming raw with
    | error e => rfl
    | ok entry =>
      dsimp only
      -- nothing has been written yet when the walk fails
      cases (Wiring.revised s.graph key (entry.elim ∅ Entry.mentions)).order [key] with
      | error name => rfl
      | ok order =>
        simp only [send_modify, send_modifyCells, send_recalculate, send_pure]
        rfl

theorem send_enter_ok {s s' : Sheet} {typed raw : String} {order : List String}
    (h : s.enter typed raw = .ok (s', order)) : (enter typed raw).send s = (.ok order, s') := by
  rw [send_enter, h]

theorem send_enter_error {s : Sheet} {typed raw : String} {e : SheetError}
    (h : s.enter typed raw = .error e) : (enter typed raw).send s = (.error e, s) := by
  rw [send_enter, h]

theorem send_enter_ok_iff {s s' : Sheet} {typed raw : String} {order : List String} :
    (enter typed raw).send s = (.ok order, s') ↔ s.enter typed raw = .ok (s', order) := by
  constructor
  · intro h
    cases henter : s.enter typed raw with
    | error e =>
      rw [send_enter_error henter] at h
      cases h
    | ok result =>
      obtain ⟨next, list⟩ := result
      rw [send_enter_ok henter] at h
      cases h
      rfl
  · exact send_enter_ok

end Request

namespace Sheet

/-! ## Section 3: Reachable sheets -/

/-- The sheets that a caller may hold. -/
inductive Reachable : Sheet → Prop where
  | empty (settings : Settings) : Reachable (Sheet.empty settings)
  | loaded {settings : Settings} {entries : List (String × String)} {s : Sheet}
      (h : load settings entries = .ok s) : Reachable s
  /-- A cell was set, or the request to set it was refused. -/
  | entered {s : Sheet} (typed raw : String) (h : Reachable s) :
      Reachable ((Request.enter typed raw).send s).2
  | saved {s : Sheet} (h : Reachable s) : Reachable (Request.save.send s).2

/-- Sets cells one after the other, until an entry is refused. -/
def enterAll (s : Sheet) (entries : List (String × String)) : Except SheetError Sheet :=
  entries.foldlM (fun s (typed, raw) => (s.enter typed raw).map Prod.fst) s

theorem enterAll_cons (s : Sheet) (typed raw : String) (entries : List (String × String)) :
    s.enterAll ((typed, raw) :: entries) = match s.enter typed raw with
      | .ok (next, _) => next.enterAll entries
      | .error e => .error e := by
  unfold enterAll
  simp only [List.foldlM_cons]
  cases s.enter typed raw <;> rfl

theorem enterAll_cons_eq_ok_iff {s s' : Sheet} {typed raw : String}
    {entries : List (String × String)} :
    s.enterAll ((typed, raw) :: entries) = .ok s' ↔
      ∃ next order, s.enter typed raw = .ok (next, order) ∧ next.enterAll entries = .ok s' := by
  rw [enterAll_cons]
  cases s.enter typed raw with
  | error e => simp
  | ok result =>
    obtain ⟨next, order⟩ := result
    simp

/-- To load entries is to set them one after the other in an empty sheet. -/
theorem load_eq_ok_iff {settings : Settings} {entries : List (String × String)} {s : Sheet} :
    load settings entries = .ok s ↔
      ∃ t, (Sheet.empty settings).enterAll entries = .ok t ∧ s = t.saved := by
  show ((Sheet.empty settings).enterAll entries >>= fun t => pure t.saved) = .ok s ↔ _
  cases (Sheet.empty settings).enterAll entries with
  | error e => simp [bind, Except.bind]
  | ok t => simp [bind, Except.bind, pure, Except.pure, eq_comm]

theorem enterAll_induction {P : Sheet → Prop}
    (henter : ∀ s s' typed raw order, P s → s.enter typed raw = .ok (s', order) → P s')
    {entries : List (String × String)} {s s' : Sheet} (hs : P s)
    (h : s.enterAll entries = .ok s') : P s' := by
  induction entries generalizing s with
  | nil =>
    cases h
    exact hs
  | cons entry entries ih =>
    obtain ⟨next, order, hstep, hrest⟩ := enterAll_cons_eq_ok_iff.mp h
    exact ih (henter s next _ _ order hs hstep) hrest

/-- What holds of empty sheets, and is kept by accepted edits and when the sheet is saved, holds of
    all reachable sheets. -/
theorem Reachable.of_steps {P : Sheet → Prop} (hempty : ∀ settings, P (Sheet.empty settings))
    (henter : ∀ s s' typed raw order, P s → s.enter typed raw = .ok (s', order) → P s')
    (hsaved : ∀ s : Sheet, P s → P s.saved) {s : Sheet} (h : s.Reachable) : P s := by
  induction h with
  | empty settings => exact hempty settings
  | @loaded settings entries s h =>
    obtain ⟨t, hload, rfl⟩ := load_eq_ok_iff.mp h
    exact hsaved t (enterAll_induction henter (hempty settings) hload)
  | @entered s typed raw _ ih =>
    cases hstep : s.enter typed raw with
    | error e =>
      -- a refused request leaves the sheet as it was
      rw [Request.send_enter_error hstep]
      exact ih
    | ok result =>
      obtain ⟨next, order⟩ := result
      rw [Request.send_enter_ok hstep]
      exact henter s next typed raw order ih hstep
  | saved _ ih => exact hsaved _ ih

/-- A small sheet: `C1` reads `B1`, which reads `A1`. -/
def chain : Sheet :=
  ((Request.enter "C1" "=B1").send ((Request.enter "B1" "=A1").send
    ((Request.enter "A1" "2").send (empty {})).2).2).2

theorem reachable_chain : chain.Reachable :=
  (((Reachable.empty {}).entered "A1" "2").entered "B1" "=A1").entered "C1" "=B1"

end Sheet

end Worksheet
