import Worksheet.Proofs.Formula.Grammar

/-! # Tokens that are no expression

    The machine does not look where a token stands. Operands and operators go to stacks of their
    own, so that an operator may come before both its operands or behind them: `1 2 +` has a value.
    What the machine cannot miss is how many there are: each operator takes two numbers for one, and
    each closing parenthesis an opening one.

    - `Balances`: sequences in which the numbers are right.
    - `Machine.balances_of_run`: only these have a value.
    - `calculate_error_or_misplaced`: what is found by the check and not by the machine.
    - `calculate_postfix`: a value for a sequence that is no expression.
-/

namespace Worksheet

/-! ## Section 1: Sequences in which the numbers are right -/

/-- The tokens close `depth` parentheses and all that they open, and they have so many operators
    that with `excess` more operands than operators before them there is one more in the end. -/
inductive Balances : Nat → Int → List Token → Prop where
  | finish : Balances 0 1 []
  | number {depth : Nat} {excess : Int} {rest : List Token} (value : Float) :
      Balances depth (excess + 1) rest → Balances depth excess (.number value :: rest)
  | name {depth : Nat} {excess : Int} {rest : List Token} (spelling : String) :
      Balances depth (excess + 1) rest → Balances depth excess (.name spelling :: rest)
  | operator {depth : Nat} {excess : Int} {rest : List Token} (op : Operator) :
      Balances depth (excess - 1) rest → Balances depth excess (.operator op :: rest)
  | opening {depth : Nat} {excess : Int} {rest : List Token} :
      Balances (depth + 1) excess rest → Balances depth excess (.opening :: rest)
  | closing {depth : Nat} {excess : Int} {rest : List Token} :
      Balances depth excess rest → Balances (depth + 1) excess (.closing :: rest)

/-! ## Section 2: The numbers on the stacks -/

namespace Machine

variable {lookup : String → Option Float} {m m' : Machine}

/-- How many parentheses are open. -/
def depth (m : Machine) : Nat := m.waiting.count .opening

/-- How many more numbers there are than operators that wait. -/
def excess (m : Machine) : Int := m.values.length - m.waiting.countP (· ≠ .opening)

/-- No more and no fewer parentheses are open, and there is no more and no less excess. -/
def SameBalance (m m' : Machine) : Prop := m'.depth = m.depth ∧ m'.excess = m.excess

theorem countP_operator_cons (op : Operator) (waiting : List Waiting) :
    (Waiting.operator op :: waiting).countP (· ≠ .opening)
      = waiting.countP (· ≠ .opening) + 1 :=
  List.countP_cons_of_pos (by simp)

/-- An operator takes two numbers and leaves one. -/
theorem sameBalance_performTop (h : m.performTop = .ok m') : m.SameBalance m' := by
  obtain ⟨values, waiting⟩ := m
  unfold performTop at h
  split at h
  · next op waiting right left values hwaiting hvalues =>
    dsimp only at hwaiting hvalues
    subst hwaiting hvalues
    cases hresult : op.perform left right with
    | error e =>
      rw [hresult] at h
      cases h
    | ok value =>
      rw [hresult] at h
      cases h
      constructor
      · simp [depth]
      · simp only [excess, List.length_cons, countP_operator_cons]
        omega
  · cases h

theorem sameBalance_performTight (h : m.performTight = .ok m') : m.SameBalance m' := by
  unfold performTight at h
  split at h
  · split at h
    · cases h
      exact ⟨rfl, rfl⟩
    · exact sameBalance_performTop h
  · cases h
    exact ⟨rfl, rfl⟩

theorem sameBalance_performLoose (h : m.performLoose = .ok m') : m.SameBalance m' := by
  unfold performLoose at h
  split at h
  · split at h
    · exact sameBalance_performTop h
    · cases h
      exact ⟨rfl, rfl⟩
  · cases h
    exact ⟨rfl, rfl⟩

theorem balance_operand {x : Float} (h : m.operand x = .ok m') :
    m'.depth = m.depth ∧ m'.excess = m.excess + 1 := by
  obtain ⟨hdepth, hexcess⟩ := sameBalance_performTight h
  refine ⟨hdepth, hexcess.trans ?_⟩
  simp only [excess, List.length_cons]
  omega

theorem balance_wait_operator (op : Operator) (m : Machine) :
    (m.wait (.operator op)).depth = m.depth ∧ (m.wait (.operator op)).excess = m.excess - 1 := by
  constructor
  · simp [depth, wait]
  · simp only [excess, wait, countP_operator_cons]
    omega

theorem balance_operator {op : Operator} (h : m.operator op = .ok m') :
    m'.depth = m.depth ∧ m'.excess = m.excess - 1 := by
  unfold operator at h
  split at h
  · cases hloose : m.performLoose with
    | error e =>
      rw [hloose] at h
      cases h
    | ok next =>
      rw [hloose] at h
      cases h
      obtain ⟨hdepth, hexcess⟩ := sameBalance_performLoose hloose
      rw [← hdepth, ← hexcess]
      exact balance_wait_operator op next
  · cases h
    exact balance_wait_operator op m

theorem balance_opening (m : Machine) :
    (m.wait .opening).depth = m.depth + 1 ∧ (m.wait .opening).excess = m.excess := by
  constructor
  · simp [depth, wait]
  · simp [excess, wait]

theorem balance_dropOpening (h : m.dropOpening = .ok m') :
    m.depth = m'.depth + 1 ∧ m'.excess = m.excess := by
  unfold dropOpening at h
  split at h
  · next waiting hwaiting =>
    cases h
    constructor
    · simp [depth, hwaiting]
    · simp [excess, hwaiting]
  · cases h

theorem balance_close (h : m.close = .ok m') :
    m.depth = m'.depth + 1 ∧ m'.excess = m.excess := by
  unfold close at h
  cases hloose : m.performLoose with
  | error e =>
    rw [hloose] at h
    cases h
  | ok inside =>
    rw [hloose] at h
    cases hdrop : inside.dropOpening with
    | error e =>
      simp only [bind, Except.bind, hdrop] at h
      cases h
    | ok outside =>
      simp only [bind, Except.bind, hdrop] at h
      obtain ⟨hdepth, hexcess⟩ := sameBalance_performLoose hloose
      obtain ⟨hdepth', hexcess'⟩ := balance_dropOpening hdrop
      obtain ⟨hdepth'', hexcess''⟩ := sameBalance_performTight h
      omega

/-- One number is left, and nothing else. -/
theorem balance_finish {x : Float} (h : m.finish = .ok x) : m.depth = 0 ∧ m.excess = 1 := by
  unfold finish at h
  split at h
  · next hwaiting hvalues => simp [depth, excess, hwaiting, hvalues]
  · next op right left hwaiting hvalues => simp [depth, excess, hwaiting, hvalues]
  · cases h

/-- What is run to a value has the numbers right. -/
theorem balances_of_run {tokens : List Token} {x : Float}
    (h : (m.run lookup tokens).result = .ok x) : Balances m.depth m.excess tokens := by
  -- the stacks and the tokens to come balance, and each step moves from the tokens to the stacks
  induction tokens generalizing m with
  | nil =>
    obtain ⟨hdepth, hexcess⟩ := balance_finish h
    rw [hdepth, hexcess]
    exact .finish
  | cons token rest ih =>
    rw [run] at h
    cases hstep : m.step lookup token with
    | error e =>
      rw [hstep] at h
      cases h
    | ok next =>
      rw [hstep] at h
      have hrest := ih h
      cases token with
      | number value =>
        obtain ⟨hdepth, hexcess⟩ := balance_operand hstep
        rw [hdepth, hexcess] at hrest
        exact .number value hrest
      | name spelling =>
        cases hlookup : lookup spelling with
        | none => simp [step, hlookup] at hstep
        | some value =>
          simp only [step, hlookup] at hstep
          obtain ⟨hdepth, hexcess⟩ := balance_operand hstep
          rw [hdepth, hexcess] at hrest
          exact .name spelling hrest
      | operator op =>
        obtain ⟨hdepth, hexcess⟩ := balance_operator hstep
        rw [hdepth, hexcess] at hrest
        exact .operator op hrest
      | opening =>
        cases hstep
        obtain ⟨hdepth, hexcess⟩ := balance_opening m
        rw [hdepth, hexcess] at hrest
        exact .opening hrest
      | closing =>
        obtain ⟨hdepth, hexcess⟩ := balance_close hstep
        rw [hdepth, ← hexcess]
        exact .closing hrest
      | stray text => cases hstep

end Machine

/-! ## Section 3: What the check finds and the machine does not -/

/-- A token stands where it must not. -/
inductive SyntaxError.IsMisplacement : SyntaxError → Prop where
  | badStart (first : String) : IsMisplacement (.badStart first)
  | badEnd (last : String) : IsMisplacement (.badEnd last)
  | operandExpected (after found : String) : IsMisplacement (.operandExpected after found)
  | operatorExpected (after found : String) : IsMisplacement (.operatorExpected after found)

/-- A token with the wrong neighbour is misplaced, or else what is wrong is wrong later on. -/
theorem isMisplacement_of_needOperand {token : Token} {rest : List Token}
    {further : Option SyntaxError} {e : SyntaxError}
    (hfurther : further = some e → e.IsMisplacement)
    (h : needOperand token rest further = some e) : e.IsMisplacement := by
  unfold needOperand at h
  split at h
  · cases h
    exact .badEnd _
  · split at h
    · exact hfurther h
    · cases h
      exact .operandExpected _ _

theorem isMisplacement_of_needOperator {token : Token} {rest : List Token}
    {further : Option SyntaxError} {e : SyntaxError}
    (hfurther : further = some e → e.IsMisplacement)
    (h : needOperator token rest further = some e) : e.IsMisplacement := by
  unfold needOperator at h
  split at h
  · exact hfurther h
  · split at h
    · exact hfurther h
    · cases h
      exact .operatorExpected _ _

namespace Balances

variable {tokens : List Token} {depth : Nat} {excess : Int}

theorem ne_nil (h : Balances 0 0 tokens) : tokens ≠ [] := by
  rintro rfl
  cases h

theorem findSome?_stray? (h : Balances depth excess tokens) :
    tokens.findSome? Token.stray? = none := by
  induction h with
  | finish => rfl
  | number value _ ih => simpa [Token.stray?] using ih
  | name spelling _ ih => simpa [Token.stray?] using ih
  | operator op _ ih => simpa [Token.stray?] using ih
  | opening _ ih => simpa [Token.stray?] using ih
  | closing _ ih => simpa [Token.stray?] using ih

/-- Where the parentheses match, the pass over the tokens finds misplaced tokens only. -/
theorem isMisplacement_of_placeError? (h : Balances depth excess tokens)
    {position opened closed : Nat} (hdepth : opened = closed + depth) {e : SyntaxError}
    (herror : placeError? position opened closed tokens = some e) : e.IsMisplacement := by
  induction h generalizing position opened closed with
  | finish =>
    have hclosed : opened = closed := by omega
    rw [placeError?, if_pos hclosed] at herror
    cases herror
  | number value _ ih => exact isMisplacement_of_needOperator (ih hdepth) herror
  | name spelling _ ih => exact isMisplacement_of_needOperator (ih hdepth) herror
  | operator op _ ih => exact isMisplacement_of_needOperand (ih hdepth) herror
  | opening _ ih => exact isMisplacement_of_needOperand (ih (by omega)) herror
  | closing _ ih =>
    -- a parenthesis is open here, so that the check goes on to the neighbour
    have hopen : ¬ opened < closed + 1 := by omega
    simp only [placeError?, Token.kind, if_neg hopen] at herror
    exact isMisplacement_of_needOperator (ih (by omega)) herror

theorem isMisplacement_of_structureError? (h : Balances 0 0 tokens) {e : SyntaxError}
    (herror : structureError? tokens = some e) : e.IsMisplacement := by
  have hne := h.ne_nil
  unfold structureError? at herror
  rw [h.findSome?_stray?] at herror
  split at herror
  · dsimp only at herror
    split at herror
    · cases herror
      exact .badStart _
    · split at herror
      · cases herror
        exact .badEnd _
      · exact h.isMisplacement_of_placeError? rfl herror
  · next hends =>
    -- a sequence with a token in it has a first and a last one
    exact absurd (List.getLast?_eq_some_getLast hne) (hends _ _ (List.head?_eq_some_head hne))

end Balances

/-- Of what the check refuses, the machine refuses all but a sequence in which the numbers are
    right and some token stands where it must not. -/
theorem calculate_error_or_misplaced (lookup : String → Option Float) {tokens : List Token}
    {e : SyntaxError} (h : structureError? tokens = some e) :
    (∃ e', (calculate lookup tokens).result = .error e')
      ∨ e.IsMisplacement ∧ Balances 0 0 tokens := by
  cases hresult : (calculate lookup tokens).result with
  | error e' => exact .inl ⟨e', rfl⟩
  | ok x =>
    have hbalances : Balances 0 0 tokens := Machine.balances_of_run hresult
    exact .inr ⟨hbalances.isMisplacement_of_structureError? h, hbalances⟩

/-- An opening parenthesis that is not closed is found by both. -/
theorem calculate_unclosed :
    structureError? [.opening, .number 1] = some (.unclosedParens 1)
      ∧ ∃ e', (calculate (fun _ => none) [.opening, .number 1]).result = .error e' := by
  have hcheck : structureError? [.opening, .number 1] = some (.unclosedParens 1) := by decide
  refine ⟨hcheck, ?_⟩
  rcases calculate_error_or_misplaced (fun _ => none) hcheck with herror | ⟨hmisplaced, -⟩
  · exact herror
  · cases hmisplaced

/-- An operator behind its operands is found by the check alone. -/
theorem calculate_postfix :
    structureError? [.number 1, .number 2, .operator .plus] ≠ none
      ∧ (calculate (fun _ => none) [.number 1, .number 2, .operator .plus]).result
        = .ok (1 + 2) := by
  constructor
  · decide
  · rfl

end Worksheet
