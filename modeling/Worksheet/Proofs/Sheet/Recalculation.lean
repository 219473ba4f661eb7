import Worksheet.Proofs.Graph.Walk
import Worksheet.Sheet.Basic

/-! # Cells computed again in a safe order

    A cell is current when its value is what its entry gives among the present values. To compute a
    formula again makes its cell current, and leaves every other cell current that does not mention
    it. So when the cells of an order are computed again, each before those that mention it, all
    cells are current in the end if those outside the order were at the start.

    The values of current cells are determined by their entries, if mentions do not go on for ever.

    - `Entry.value_congr`: what a value depends on.
    - `Ledger.isCurrent_recalculate`: the cells are current after recalculation.
    - `Ledger.Solves.eq_value`: no other values fit the entries.
-/

namespace Worksheet

/-! ## Section 1: A value depends on what is mentioned -/

section Congruence

variable {lookup lookup' : String → Option Float}

theorem Machine.step_congr (m : Machine) {token : Token}
    (h : ∀ name, token = .name name → lookup name = lookup' name) :
    m.step lookup token = m.step lookup' token := by
  cases token with
  | name spelling => simp only [Machine.step, h spelling rfl]
  | _ => rfl

theorem Machine.run_congr (m : Machine) {tokens : List Token}
    (h : ∀ name, Token.name name ∈ tokens → lookup name = lookup' name) :
    m.run lookup tokens = m.run lookup' tokens := by
  induction tokens generalizing m with
  | nil => rfl
  | cons token rest ih =>
    have hstep : m.step lookup token = m.step lookup' token := by
      apply m.step_congr
      intro name heq
      exact h name (heq ▸ List.mem_cons_self)
    have hrest (m : Machine) : m.run lookup rest = m.run lookup' rest :=
      ih m fun name hname => h name (List.mem_cons_of_mem _ hname)
    simp only [Machine.run, hstep, hrest]

/-- Lookups that agree on what a formula mentions give it the same value. -/
theorem Formula.value_congr (f : Formula) (h : ∀ name ∈ f.mentions, lookup name = lookup' name) :
    f.value lookup = f.value lookup' := by
  have hrun : Machine.start.run lookup f.tokens = Machine.start.run lookup' f.tokens :=
    Machine.start.run_congr fun name hname => h name ((f.mem_mentions_iff name).mpr hname)
  unfold Formula.value calculate
  rw [hrun]

theorem Entry.value_congr (entry : Entry)
    (h : ∀ name ∈ entry.mentions, lookup name = lookup' name) :
    entry.value lookup = entry.value lookup' := by
  cases entry with
  | formula f => exact f.value_congr h
  | _ => rfl

theorem Entry.value_eq_of_literal? {entry : Entry} {value : Value}
    (h : entry.literal? = some value) : entry.value lookup = value := by
  cases entry with
  | formula f => cases h
  | _ => exact Option.some.inj h

/-- An entry whose value must be computed is a formula. -/
theorem Entry.exists_formula {entry : Entry} (h : entry.literal? = none) :
    ∃ f, entry = .formula f := by
  cases entry with
  | formula f => exact ⟨f, rfl⟩
  | _ => cases h

end Congruence

/-! ## Section 2: Entries and edges of a ledger -/

namespace Ledger

/-- The entry that the cell holds, if it is stored. -/
def held? (cells : Ledger Cell) (name : String) : Option Entry :=
  (cells.get? name).map Cell.entry

/-- There is an edge from `s` to `t`: the cell `t` holds a formula that mentions `s`. -/
def Feeds (cells : Ledger Cell) (s t : String) : Prop :=
  ∃ f, cells.held? t = some (.formula f) ∧ s ∈ f.mentions

variable {cells : Ledger Cell} {name other : String}

theorem held?_of_get? {cell : Cell} (h : cells.get? name = some cell) :
    cells.held? name = some cell.entry := by
  rw [held?, h, Option.map_some]

theorem feeds_iff {s t : String} :
    cells.Feeds s t ↔ ∃ f value, cells.get? t = some ⟨.formula f, value⟩ ∧ s ∈ f.mentions := by
  constructor
  · intro hfeeds
    obtain ⟨f, hentry, hmem⟩ := hfeeds
    obtain ⟨⟨entry, value⟩, hget, rfl⟩ := Option.map_eq_some_iff.mp hentry
    exact ⟨f, value, hget, hmem⟩
  · intro hstored
    obtain ⟨f, value, hget, hmem⟩ := hstored
    exact ⟨f, held?_of_get? hget, hmem⟩

/-- What depends on another cell, directly or through others, does so by a formula of its own. -/
theorem exists_formula_of_transGen {s t : String} (h : Relation.TransGen cells.Feeds s t) :
    ∃ f value, cells.get? t = some ⟨.formula f, value⟩ := by
  obtain ⟨last, -, hlast⟩ := Relation.TransGen.tail'_iff.mp h
  obtain ⟨f, value, hget, -⟩ := feeds_iff.mp hlast
  exact ⟨f, value, hget⟩

/-- A stored cell that mentions a name holds a formula. -/
theorem feeds_of_mentions {cell : Cell} (h : cells.get? name = some cell)
    (hmem : other ∈ cell.entry.mentions) : cells.Feeds other name := by
  cases hentry : cell.entry with
  | formula f =>
    rw [hentry] at hmem
    exact ⟨f, by rw [held?_of_get? h, hentry], hmem⟩
  | _ => simp [hentry, Entry.mentions] at hmem

/-! ### After an entry was set -/

theorem get?_setEntry_self (cells : Ledger Cell) (name : String) (entry : Option Entry) :
    (cells.setEntry name entry).get? name
      = entry.map fun entry => ⟨entry, entry.literal?.getD .empty⟩ := by
  cases entry with
  | none => exact cells.get?_erase_self name
  | some entry => exact cells.get?_put_self name _

theorem get?_setEntry_ne (cells : Ledger Cell) (entry : Option Entry) (h : other ≠ name) :
    (cells.setEntry name entry).get? other = cells.get? other := by
  cases entry with
  | none => exact cells.get?_erase_ne h
  | some entry => exact cells.get?_put_ne _ h

theorem held?_setEntry_self (cells : Ledger Cell) (name : String) (entry : Option Entry) :
    (cells.setEntry name entry).held? name = entry := by
  rw [held?, get?_setEntry_self]
  cases entry <;> rfl

theorem held?_setEntry_ne (cells : Ledger Cell) (entry : Option Entry) (h : other ≠ name) :
    (cells.setEntry name entry).held? other = cells.held? other := by
  rw [held?, get?_setEntry_ne cells entry h, held?]

/-! ### After a cell was computed again -/

theorem get?_recalculateCell_ne (cells : Ledger Cell) (h : other ≠ name) :
    (cells.recalculateCell name).get? other = cells.get? other := by
  unfold recalculateCell
  split
  · exact cells.get?_put_ne _ h
  · rfl

theorem get?_recalculateCell_formula {f : Formula} {value : Value}
    (h : cells.get? name = some ⟨.formula f, value⟩) :
    (cells.recalculateCell name).get? name = some ⟨.formula f, f.value cells.lookup⟩ := by
  unfold recalculateCell
  rw [h]
  exact cells.get?_put_self name _

/-- Only formulas are computed again. -/
theorem recalculateCell_of_not_formula (h : ∀ f, cells.held? name ≠ some (.formula f)) :
    cells.recalculateCell name = cells := by
  unfold recalculateCell
  split
  · next f value hget => exact absurd (held?_of_get? hget) (h f)
  · rfl

theorem held?_recalculateCell (cells : Ledger Cell) (name other : String) :
    (cells.recalculateCell name).held? other = cells.held? other := by
  by_cases heq : other = name
  · subst heq
    by_cases hformula : ∃ f, cells.held? other = some (.formula f)
    · obtain ⟨f, hf⟩ := hformula
      have hf' := hf
      unfold held? at hf
      obtain ⟨⟨entry, value⟩, hget, rfl⟩ := Option.map_eq_some_iff.mp hf
      rw [held?, get?_recalculateCell_formula hget, hf']
      rfl
    · rw [recalculateCell_of_not_formula fun f hf => hformula ⟨f, hf⟩]
  · unfold held?
    rw [cells.get?_recalculateCell_ne heq]

theorem feeds_recalculateCell (cells : Ledger Cell) (name : String) :
    (cells.recalculateCell name).Feeds = cells.Feeds := by
  funext s t
  unfold Feeds
  rw [held?_recalculateCell]

/-- To compute a cell again is to put a value under a name that is there, or to do nothing. -/
theorem recalculateCell_cases (cells : Ledger Cell) (name : String) :
    cells.recalculateCell name = cells
      ∨ ∃ cell, name ∈ cells.names ∧ cells.recalculateCell name = cells.put name cell := by
  unfold recalculateCell
  split
  · next f value hget =>
    refine .inr ⟨_, ?_, rfl⟩
    rw [← cells.get?_isSome_iff, hget]
    rfl
  · exact .inl rfl

theorem names_recalculateCell (cells : Ledger Cell) (name : String) :
    (cells.recalculateCell name).names = cells.names := by
  rcases cells.recalculateCell_cases name with hsame | ⟨cell, hmem, hput⟩
  · rw [hsame]
  · rw [hput, cells.names_put_of_mem cell hmem]

theorem held?_recalculate (cells : Ledger Cell) (order : List String) (name : String) :
    (cells.recalculate order).held? name = cells.held? name := by
  induction order generalizing cells with
  | nil => rfl
  | cons first rest ih =>
    show ((cells.recalculateCell first).recalculate rest).held? name = _
    rw [ih, held?_recalculateCell]

theorem feeds_recalculate (cells : Ledger Cell) (order : List String) :
    (cells.recalculate order).Feeds = cells.Feeds := by
  funext s t
  unfold Feeds
  rw [held?_recalculate]

theorem names_recalculate (cells : Ledger Cell) (order : List String) :
    (cells.recalculate order).names = cells.names := by
  induction order generalizing cells with
  | nil => rfl
  | cons first rest ih =>
    show ((cells.recalculateCell first).recalculate rest).names = _
    rw [ih, names_recalculateCell]

/-! ## Section 3: Current cells -/

/-- The value of the cell, if it is stored, is that of its entry among the present values. -/
def IsCurrent (cells : Ledger Cell) (name : String) : Prop :=
  ∀ cell, cells.get? name = some cell → cell.value = cell.entry.value cells.lookup

/-- Every stored number and text is its own value. -/
def KeepsLiterals (cells : Ledger Cell) : Prop :=
  ∀ name cell value, cells.get? name = some cell → cell.entry.literal? = some value →
    cell.value = value

/-- What is found under a name depends on its cell alone. -/
theorem lookup_congr {cells cells' : Ledger Cell} (h : cells'.get? name = cells.get? name) :
    cells'.lookup name = cells.lookup name := by
  rw [lookup, h, lookup]

/-- A cell stays current when neither it nor what it mentions is changed. -/
theorem IsCurrent.congr {cells cells' : Ledger Cell} (h : cells.IsCurrent name)
    (hsame : cells'.get? name = cells.get? name)
    (hmentions : ∀ other, cells.Feeds other name → cells'.get? other = cells.get? other) :
    cells'.IsCurrent name := by
  intro cell hget
  rw [hsame] at hget
  rw [h cell hget]
  apply cell.entry.value_congr
  intro other hmem
  exact (lookup_congr (hmentions other (feeds_of_mentions hget hmem))).symm

theorem keepsLiterals_of_isCurrent (h : ∀ name, cells.IsCurrent name) : cells.KeepsLiterals := by
  intro name cell value hget hliteral
  rw [h name cell hget, Entry.value_eq_of_literal? hliteral]

theorem KeepsLiterals.isCurrent (h : cells.KeepsLiterals)
    (hformula : ∀ f, cells.held? name ≠ some (.formula f)) : cells.IsCurrent name := by
  intro cell hget
  cases hliteral : cell.entry.literal? with
  | none =>
    obtain ⟨f, hf⟩ := Entry.exists_formula hliteral
    exact absurd (by rw [held?_of_get? hget, hf]) (hformula f)
  | some value => rw [h name cell value hget hliteral, Entry.value_eq_of_literal? hliteral]

theorem KeepsLiterals.recalculateCell (h : cells.KeepsLiterals) (name : String) :
    (cells.recalculateCell name).KeepsLiterals := by
  intro other cell value hget hliteral
  by_cases hformula : ∃ f, cells.held? other = some (.formula f)
  · -- the cell still holds the formula, which is no literal
    obtain ⟨f, hf⟩ := hformula
    rw [← held?_recalculateCell cells name, held?_of_get? hget] at hf
    rw [Option.some.inj hf] at hliteral
    cases hliteral
  · by_cases heq : other = name
    · subst heq
      rw [recalculateCell_of_not_formula fun f hf => hformula ⟨f, hf⟩] at hget
      exact h other cell value hget hliteral
    · rw [cells.get?_recalculateCell_ne heq] at hget
      exact h other cell value hget hliteral

/-- A formula that does not mention its own cell is current once it was computed again. -/
theorem isCurrent_recalculateCell_self (h : cells.KeepsLiterals) (hself : ¬cells.Feeds name name) :
    (cells.recalculateCell name).IsCurrent name := by
  by_cases hformula : ∃ f value, cells.get? name = some ⟨.formula f, value⟩
  · obtain ⟨f, value, hget⟩ := hformula
    intro cell hcell
    rw [get?_recalculateCell_formula hget] at hcell
    cases hcell
    apply f.value_congr
    intro other hmem
    have hne : other ≠ name := by
      intro heq
      subst heq
      exact hself (feeds_of_mentions hget hmem)
    exact (lookup_congr (cells.get?_recalculateCell_ne hne)).symm
  · refine (h.recalculateCell name).isCurrent fun f hf => hformula ?_
    rw [held?_recalculateCell, held?] at hf
    obtain ⟨⟨entry, value⟩, hget, rfl⟩ := Option.map_eq_some_iff.mp hf
    exact ⟨f, value, hget⟩

/-- A current cell that does not mention the one computed again stays current. -/
theorem IsCurrent.recalculateCell_ne (h : cells.IsCurrent other) (hne : other ≠ name)
    (hfeeds : ¬cells.Feeds name other) : (cells.recalculateCell name).IsCurrent other := by
  refine h.congr (cells.get?_recalculateCell_ne hne) ?_
  intro source hsource
  refine cells.get?_recalculateCell_ne ?_
  intro heq
  subst heq
  exact hfeeds hsource

/-- All cells are current after recalculation in an order in which each name stands before all that
    mention it, if those outside the order are current at the start. -/
theorem isCurrent_recalculate {dependents : String → List String} {order : List String}
    (hnodup : order.Nodup) (hsettled : Wiring.Settled dependents order)
    (hedges : ∀ s t, cells.Feeds s t → t ∈ dependents s) (hliterals : cells.KeepsLiterals)
    (houtside : ∀ name, name ∉ order → cells.IsCurrent name) (name : String) :
    (cells.recalculate order).IsCurrent name := by
  -- what is outside the rest of the order is current; the order shrinks from the front
  induction order generalizing cells with
  | nil => exact houtside name List.not_mem_nil
  | cons first rest ih =>
    obtain ⟨hfirst, hrest⟩ := List.nodup_cons.mp hnodup
    have hlater : ∀ other, cells.Feeds first other → other ∈ rest :=
      fun other hfeeds => hsettled.1 other (hedges first other hfeeds)
    refine ih hrest hsettled.2 ?_ (hliterals.recalculateCell first) ?_
    · rw [feeds_recalculateCell]
      exact hedges
    · intro other hother
      by_cases heq : other = first
      · subst heq
        exact isCurrent_recalculateCell_self hliterals fun hself => hfirst (hlater _ hself)
      · have hmem : other ∉ first :: rest := by simp [heq, hother]
        exact (houtside other hmem).recalculateCell_ne heq fun hfeeds => hother (hlater _ hfeeds)

/-! ## Section 4: The values are determined -/

/-- The number that is found under a name when the stored cells have other values. -/
def lookupUnder (cells : Ledger Cell) (assigned : String → Value) (name : String) :
    Option Float :=
  (cells.get? name).bind fun _ => (assigned name).number?

/-- Under the assigned values every stored cell has the value of its entry. -/
def Solves (cells : Ledger Cell) (assigned : String → Value) : Prop :=
  ∀ name cell, cells.get? name = some cell →
    assigned name = cell.entry.value (cells.lookupUnder assigned)

variable {assigned : String → Value}

theorem lookupUnder_eq_lookup
    (h : ∀ cell, cells.get? name = some cell → assigned name = cell.value) :
    cells.lookupUnder assigned name = cells.lookup name := by
  unfold lookupUnder lookup
  cases hget : cells.get? name with
  | none => rfl
  | some cell => rw [Option.bind_some, Option.bind_some, h cell hget]

/-- The values of current cells solve the equations. -/
theorem solves_of_isCurrent (hcurrent : ∀ name, cells.IsCurrent name)
    (h : ∀ name cell, cells.get? name = some cell → assigned name = cell.value) :
    cells.Solves assigned := by
  intro name cell hget
  rw [h name cell hget, hcurrent name cell hget]
  apply cell.entry.value_congr
  intro other _
  exact (lookupUnder_eq_lookup (h other)).symm

/-- No other values do, if mentions do not go on for ever. -/
theorem Solves.eq_value (h : cells.Solves assigned) (hcurrent : ∀ name, cells.IsCurrent name)
    (hwf : WellFounded cells.Feeds) {cell : Cell} (hget : cells.get? name = some cell) :
    assigned name = cell.value := by
  -- from what is mentioned to what mentions it
  induction name using hwf.induction generalizing cell with
  | _ name ih =>
    rw [h name cell hget, hcurrent name cell hget]
    apply cell.entry.value_congr
    intro source hsource
    apply lookupUnder_eq_lookup
    intro found hfound
    exact ih source (feeds_of_mentions hget hsource) hfound

end Ledger

end Worksheet
