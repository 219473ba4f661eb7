import Worksheet.Proofs.Formula.Parsing
import Worksheet.Proofs.Sheet.Soundness

/-! # Errors spread along mentions

    A formula has a number only if all that it mentions shows one, and a cell that reads another one
    can be no better off. So a number anywhere vouches for every cell behind it, however long the
    chain, and a text, an error or a missing cell turns all that depends on it into errors.

    - `Formula.resolves_of_value`, `Formula.failure_of_value`: what a value says of the lookup.
    - `Ledger.ShowsNumber`: the cells that a formula may read.
    - `Sheet.Reachable.errors_cascade`: what a cell shows says of the cells that it depends on.
-/

namespace Worksheet

open Relation (TransGen)

/-! ## Section 1: What a value says of the lookup -/

section Lookup

variable {lookup : String → Option Float}

/-- The machine stops at the first name that the lookup does not know. -/
theorem Machine.resolves_of_run (m : Machine) {tokens : List Token} {x : Float}
    (h : (m.run lookup tokens).result = .ok x) {name : String} (hname : .name name ∈ tokens) :
    ∃ y, lookup name = some y := by
  induction tokens generalizing m with
  | nil => cases hname
  | cons token rest ih =>
    rw [Machine.run] at h
    cases hstep : m.step lookup token with
    | error e =>
      rw [hstep] at h
      cases h
    | ok next =>
      rw [hstep] at h
      rcases List.mem_cons.mp hname with rfl | hrest
      · -- without a number for the name this step would have failed
        cases hlookup : lookup name with
        | some y => exact ⟨y, rfl⟩
        | none => simp [Machine.step, hlookup] at hstep
      · exact ih next h hrest

/-- A formula with a number has found one for each name that it mentions. -/
theorem Formula.resolves_of_value {f : Formula} {x : Float} (h : f.value lookup = .number x)
    {name : String} (hname : name ∈ f.mentions) : ∃ y, lookup name = some y := by
  unfold Formula.value at h
  cases hresult : (calculate lookup f.tokens).result with
  | error e =>
    rw [hresult] at h
    cases h
  | ok y => exact Machine.start.resolves_of_run hresult ((f.mem_mentions_iff name).mp hname)

/-- A formula without a number has divided by zero, or mentions a name for which it found none. -/
theorem Formula.failure_of_value {f : Formula} {e : EvalError} (h : f.value lookup = .error e) :
    e = .divisionByZero
      ∨ ∃ name, e = .unresolved name ∧ name ∈ f.mentions ∧ lookup name = none := by
  obtain ⟨p, hp⟩ := f.exists_phrase
  unfold Formula.value at h
  rw [← hp, p.calculate_tokens] at h
  cases hresult : (p.evaluate lookup).result with
  | ok x =>
    rw [hresult] at h
    cases h
  | error e' =>
    rw [hresult] at h
    obtain rfl := Value.error.inj h
    rcases p.mayFail_of_error hresult with hzero | ⟨name, hname, hnone, heq⟩
    · exact Or.inl hzero
    · rw [hp, ← f.mem_mentions_iff] at hname
      exact Or.inr ⟨name, heq, hname, hnone⟩

end Lookup

/-! ## Section 2: Cells that show a number -/

namespace Ledger

variable {cells : Ledger Cell} {source reader name : String}

/-- The cell is stored and has a number as its value. A cell that does not is missing, or has a text
    or an error as its value. -/
def ShowsNumber (cells : Ledger Cell) (name : String) : Prop :=
  ∃ entry x, cells.get? name = some ⟨entry, .number x⟩

/-- These are the cells whose values formulas may use. -/
theorem showsNumber_iff : cells.ShowsNumber name ↔ ∃ x, cells.lookup name = some x := by
  unfold ShowsNumber lookup
  cases cells.get? name with
  | none => simp
  | some cell =>
    obtain ⟨entry, value⟩ := cell
    cases value <;> simp [Value.number?]

theorem not_showsNumber_iff : ¬cells.ShowsNumber name ↔ cells.lookup name = none := by
  rw [showsNumber_iff, Option.eq_none_iff_forall_ne_some, not_exists]

/-- A current cell shows a number only if all that it mentions does. -/
theorem IsCurrent.showsNumber_of_feeds (h : cells.IsCurrent reader)
    (hfeeds : cells.Feeds source reader) (hnumber : cells.ShowsNumber reader) :
    cells.ShowsNumber source := by
  obtain ⟨f, value, hget, hsource⟩ := feeds_iff.mp hfeeds
  obtain ⟨entry, x, hshows⟩ := hnumber
  rw [hget] at hshows
  cases hshows
  have hvalue : f.value cells.lookup = .number x := (h _ hget).symm
  exact showsNumber_iff.mpr (Formula.resolves_of_value hvalue hsource)

/-- So do all cells that it depends on. -/
theorem showsNumber_of_transGen (hcurrent : ∀ name, cells.IsCurrent name)
    (hpath : TransGen cells.Feeds source reader) (hnumber : cells.ShowsNumber reader) :
    cells.ShowsNumber source := by
  -- backwards along the chain of mentions
  induction hpath with
  | single hfeeds => exact (hcurrent _).showsNumber_of_feeds hfeeds hnumber
  | tail _ hlast ih => exact ih ((hcurrent _).showsNumber_of_feeds hlast hnumber)

/-- A current formula shows an error if it shows no number. -/
theorem IsCurrent.exists_error (h : cells.IsCurrent name) {f : Formula} {value : Value}
    (hget : cells.get? name = some ⟨.formula f, value⟩) (hnumber : ¬cells.ShowsNumber name) :
    ∃ e, value = .error e := by
  have hvalue : value = f.value cells.lookup := h _ hget
  rcases f.value_cases cells.lookup with ⟨x, hx⟩ | ⟨e, he, -⟩
  · have hshows : cells.ShowsNumber name := ⟨.formula f, x, by rw [hget, hvalue, hx]⟩
    exact absurd hshows hnumber
  · exact ⟨e, hvalue.trans he⟩

end Ledger

/-! ## Section 3: Reachable sheets -/

namespace Sheet

variable {s : Sheet}

/-- In a reachable sheet a cell that shows a number depends only on cells that show one. What
    depends on a cell that shows none shows an error. A formula with an error has divided by zero,
    or it names a cell that it mentions and that shows no number. -/
theorem Reachable.errors_cascade (h : s.Reachable) :
    (∀ source reader, TransGen s.cells.Feeds source reader → s.cells.ShowsNumber reader →
      s.cells.ShowsNumber source)
    ∧ (∀ source reader, TransGen s.cells.Feeds source reader → ¬s.cells.ShowsNumber source →
      ∃ f e, s.cells.get? reader = some ⟨.formula f, .error e⟩)
    ∧ ∀ name f e, s.cells.get? name = some ⟨.formula f, .error e⟩ →
      e = .divisionByZero
        ∨ ∃ found, e = .unresolved found ∧ found ∈ f.mentions ∧ ¬s.cells.ShowsNumber found := by
  have hcurrent := h.sound.current
  refine ⟨?_, ?_, ?_⟩
  · intro source reader hpath
    exact Ledger.showsNumber_of_transGen hcurrent hpath
  · intro source reader hpath hsource
    have hreader : ¬s.cells.ShowsNumber reader :=
      fun hnumber => hsource (Ledger.showsNumber_of_transGen hcurrent hpath hnumber)
    obtain ⟨f, value, hget⟩ := Ledger.exists_formula_of_transGen hpath
    obtain ⟨e, rfl⟩ := (hcurrent reader).exists_error hget hreader
    exact ⟨f, e, hget⟩
  · intro name f e hget
    have hvalue : f.value s.cells.lookup = .error e := (hcurrent name _ hget).symm
    rcases Formula.failure_of_value hvalue with hzero | ⟨found, heq, hmem, hnone⟩
    · exact Or.inl hzero
    · exact Or.inr ⟨found, heq, hmem, Ledger.not_showsNumber_iff.mpr hnone⟩

/-- A text at the beginning of a chain makes its end an error. -/
theorem chain_errors_cascade :
    ∃ f e, ((Request.enter "A1" "two").send chain).2.cells.get? "C1"
      = some ⟨.formula f, .error e⟩ := by
  have hreachable := reachable_chain.entered "A1" "two"
  have hfirst : ((Request.enter "A1" "two").send chain).2.cells.Feeds "A1" "B1" := by
    rw [← hreachable.sound.mirrored]
    exact (Graph.hasEdge_eq_true_iff _ _ _).mp (by decide +kernel)
  have hsecond : ((Request.enter "A1" "two").send chain).2.cells.Feeds "B1" "C1" := by
    rw [← hreachable.sound.mirrored]
    exact (Graph.hasEdge_eq_true_iff _ _ _).mp (by decide +kernel)
  have htext : ((Request.enter "A1" "two").send chain).2.cells.lookup "A1" = none := by
    decide +kernel
  obtain ⟨-, hspread, -⟩ := hreachable.errors_cascade
  exact hspread "A1" "C1" ((TransGen.single hfirst).tail hsecond)
    (Ledger.not_showsNumber_iff.mpr htext)

end Sheet

end Worksheet
