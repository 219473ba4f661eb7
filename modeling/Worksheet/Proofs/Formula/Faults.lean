import Worksheet.Formula.Structure

/-! # The first thing that is wrong

    Why a token sequence is no expression is told here without the pass over it: first what is
    wrong with the sequence as a whole, then the first place at which a rule for neighbours or for
    parentheses is broken, then the parentheses that are left open. The check says the same.

    - `FaultAt`: a rule is broken at a place.
    - `Verdict`: what there is to say about a sequence.
    - `placeError?_cases`: the pass stops at the first fault in the rest of a sequence.
    - `structureError?_iff_verdict`: the check gives the verdict.
-/

namespace Worksheet

/-! ## Section 1: Faults -/

/-- How many parentheses are opened. -/
def opens (tokens : List Token) : Nat := tokens.count .opening

/-- How many parentheses are closed. -/
def closes (tokens : List Token) : Nat := tokens.count .closing

/-- A rule is broken by the token at `place`, counted from zero. -/
inductive FaultAt (tokens : List Token) (place : Nat) : SyntaxError → Prop where
  /-- No operand begins behind an opening parenthesis or an operator. -/
  | operandExpected {token next : Token} (here : tokens[place]? = some token)
      (needs : token.kind = .opening ∨ token.kind = .operator)
      (there : tokens[place + 1]? = some next) (fails : next.kind.beginsOperand = false) :
      FaultAt tokens place (.operandExpected token.text next.text)
  /-- With this one more parentheses are closed than were opened. -/
  | unopenedParen (here : tokens[place]? = some .closing)
      (exceeds : opens (tokens.take (place + 1)) < closes (tokens.take (place + 1))) :
      FaultAt tokens place (.unopenedParen place)
  /-- Neither an operator nor a closing parenthesis follows where an operand ends. -/
  | operatorExpected {token next : Token} (here : tokens[place]? = some token)
      (ends : token.kind.endsOperand = true)
      (opened : token = .closing →
        closes (tokens.take (place + 1)) ≤ opens (tokens.take (place + 1)))
      (there : tokens[place + 1]? = some next) (fails : next.kind.followsOperand = false) :
      FaultAt tokens place (.operatorExpected token.text next.text)

/-- A sequence that is not wrong as a whole. -/
structure Framed (tokens : List Token) : Prop where
  not_stray : ∀ token ∈ tokens, token.kind ≠ .stray
  begins : ∃ first, tokens.head? = some first ∧ first.kind.beginsOperand = true
  ends : ∃ last, tokens.getLast? = some last ∧ last.kind.endsOperand = true

/-- What there is to say about a sequence, nothing if it is sound. -/
inductive Verdict (tokens : List Token) : Option SyntaxError → Prop where
  | noTokens (empty : tokens = []) : Verdict tokens (some .noTokens)
  /-- The first stray token counts before all that comes before it. -/
  | strayText {before after : List Token} {text : String}
      (split : tokens = before ++ .stray text :: after)
      (first : ∀ token ∈ before, token.kind ≠ .stray) : Verdict tokens (some (.strayText text))
  | badStart {first : Token} (not_stray : ∀ token ∈ tokens, token.kind ≠ .stray)
      (head : tokens.head? = some first) (fails : first.kind.beginsOperand = false) :
      Verdict tokens (some (.badStart first.text))
  | badEnd {first last : Token} (not_stray : ∀ token ∈ tokens, token.kind ≠ .stray)
      (head : tokens.head? = some first) (begins : first.kind.beginsOperand = true)
      (getLast : tokens.getLast? = some last) (fails : last.kind.endsOperand = false) :
      Verdict tokens (some (.badEnd last.text))
  /-- The first fault counts. -/
  | fault {place : Nat} {e : SyntaxError} (framed : Framed tokens) (fault : FaultAt tokens place e)
      (first : ∀ earlier < place, ∀ e', ¬FaultAt tokens earlier e') : Verdict tokens (some e)
  | unclosedParens {count : Nat} (framed : Framed tokens)
      (faultless : ∀ place e, ¬FaultAt tokens place e) (pos : 0 < count)
      (surplus : opens tokens = closes tokens + count) :
      Verdict tokens (some (.unclosedParens count))
  | sound (framed : Framed tokens) (faultless : ∀ place e, ¬FaultAt tokens place e)
      (balanced : opens tokens = closes tokens) : Verdict tokens none

/-! ## Section 2: One place -/

/-- What the pass finds at one token, when the rest is left aside. -/
def placeFault? (position opened closed : Nat) (token : Token) (rest : List Token) :
    Option SyntaxError :=
  match token.kind with
  | .stray => none
  | .opening => needOperand token rest none
  | .operator => needOperand token rest none
  | .closing =>
    if opened < closed + 1 then some (.unopenedParen position) else needOperator token rest none
  | .number => needOperator token rest none
  | .name => needOperator token rest none

section Place

variable {before rest : List Token} {token : Token} {e : SyntaxError}

theorem needOperand_eq_or (token : Token) (rest : List Token) (further : Option SyntaxError) :
    needOperand token rest further = (needOperand token rest none).or further := by
  unfold needOperand
  split
  · rfl
  · split <;> rfl

theorem needOperator_eq_or (token : Token) (rest : List Token) (further : Option SyntaxError) :
    needOperator token rest further = (needOperator token rest none).or further := by
  unfold needOperator
  split
  · rfl
  · split <;> rfl

/-- The pass stops at a token, or counts it and goes on. -/
theorem placeError?_cons (position opened closed : Nat) (token : Token) (rest : List Token) :
    placeError? position opened closed (token :: rest)
      = (placeFault? position opened closed token rest).or
          (placeError? (position + 1) (opened + opens [token]) (closed + closes [token]) rest) := by
  cases token with
  | number value => exact needOperator_eq_or _ _ _
  | name spelling => exact needOperator_eq_or _ _ _
  | operator op => exact needOperand_eq_or _ _ _
  | opening => exact needOperand_eq_or _ _ _
  | closing =>
    by_cases h : opened < closed + 1
    · simp only [placeError?, placeFault?, Token.kind, if_pos h]
      rfl
    · simp only [placeError?, placeFault?, Token.kind, if_neg h]
      exact needOperator_eq_or _ _ _
  | stray text => rfl

theorem needOperand_eq_some_iff (hrest : rest ≠ []) :
    needOperand token rest none = some e ↔
      ∃ next ∈ rest.head?, next.kind.beginsOperand = false
        ∧ e = .operandExpected token.text next.text := by
  obtain ⟨next, tail, rfl⟩ := List.exists_cons_of_ne_nil hrest
  cases h : next.kind.beginsOperand with
  | false => simp [needOperand, h, eq_comm (a := e)]
  | true => simp [needOperand, h]

theorem needOperator_eq_some_iff :
    needOperator token rest none = some e ↔
      ∃ next ∈ rest.head?, next.kind.followsOperand = false
        ∧ e = .operatorExpected token.text next.text := by
  cases rest with
  | nil => simp [needOperator]
  | cons next tail =>
    cases h : next.kind.followsOperand with
    | false => simp [needOperator, h, eq_comm (a := e)]
    | true => simp [needOperator, h]

theorem getElem?_place (before : List Token) (token : Token) (rest : List Token) :
    (before ++ token :: rest)[before.length]? = some token := by
  simp

theorem getElem?_next (before : List Token) (token : Token) (rest : List Token) :
    (before ++ token :: rest)[before.length + 1]? = rest.head? := by
  rw [List.getElem?_append_right (Nat.le_succ _)]
  simp [List.head?_eq_getElem?]

theorem take_place (before : List Token) (token : Token) (rest : List Token) :
    (before ++ token :: rest).take (before.length + 1) = before ++ [token] := by
  rw [List.take_append, List.take_of_length_le (Nat.le_succ _), Nat.add_sub_cancel_left]
  rfl

theorem faultAt_place_iff :
    FaultAt (before ++ token :: rest) before.length e ↔
      ((token.kind = .opening ∨ token.kind = .operator)
          ∧ ∃ next ∈ rest.head?, next.kind.beginsOperand = false
              ∧ e = .operandExpected token.text next.text)
      ∨ (token = .closing ∧ opens (before ++ [token]) < closes (before ++ [token])
          ∧ e = .unopenedParen before.length)
      ∨ (token.kind.endsOperand = true
          ∧ (token = .closing → closes (before ++ [token]) ≤ opens (before ++ [token]))
          ∧ ∃ next ∈ rest.head?, next.kind.followsOperand = false
              ∧ e = .operatorExpected token.text next.text) := by
  -- the place is told by what stands before it
  have hhere := getElem?_place before token rest
  have hnext := getElem?_next before token rest
  have htake := take_place before token rest
  constructor
  · intro h
    cases h with
    | operandExpected here needs there fails =>
      cases hhere.symm.trans here
      exact .inl ⟨needs, _, hnext.symm.trans there, fails, rfl⟩
    | unopenedParen here exceeds =>
      cases hhere.symm.trans here
      rw [htake] at exceeds
      exact .inr (.inl ⟨rfl, exceeds, rfl⟩)
    | operatorExpected here ends opened there fails =>
      cases hhere.symm.trans here
      rw [htake] at opened
      exact .inr (.inr ⟨ends, opened, _, hnext.symm.trans there, fails, rfl⟩)
  · rintro (⟨needs, next, there, fails, rfl⟩ | ⟨rfl, exceeds, rfl⟩
      | ⟨ends, opened, next, there, fails, rfl⟩)
    · exact .operandExpected hhere needs (hnext.trans there) fails
    · rw [← htake] at exceeds
      exact .unopenedParen hhere exceeds
    · rw [← htake] at opened
      exact .operatorExpected hhere ends opened (hnext.trans there) fails

theorem opens_append (tokens others : List Token) :
    opens (tokens ++ others) = opens tokens + opens others :=
  List.count_append

theorem closes_append (tokens others : List Token) :
    closes (tokens ++ others) = closes tokens + closes others :=
  List.count_append

theorem closes_singleton_of_ne (h : token ≠ .closing) : closes [token] = 0 :=
  List.count_eq_zero.mpr (by simpa using Ne.symm h)

/-- At a place where the sequence neither holds a stray token nor ends too early, the pass finds the
    fault that there is. -/
theorem faultAt_iff_placeFault? (hstray : token.kind ≠ .stray)
    (hends : rest = [] → token.kind.endsOperand = true) :
    FaultAt (before ++ token :: rest) before.length e ↔
      placeFault? before.length (opens before) (closes before) token rest = some e := by
  have hrest (hneeds : token.kind.endsOperand = false) : rest ≠ [] := by
    intro hnil
    rw [hends hnil] at hneeds
    cases hneeds
  rw [faultAt_place_iff]
  cases token with
  | number value =>
    simp [placeFault?, Token.kind, needOperator_eq_some_iff, Token.Kind.endsOperand,
      Token.Kind.isOperand]
  | name spelling =>
    simp [placeFault?, Token.kind, needOperator_eq_some_iff, Token.Kind.endsOperand,
      Token.Kind.isOperand]
  | operator op =>
    simp [placeFault?, Token.kind, needOperand_eq_some_iff (hrest rfl), Token.Kind.endsOperand,
      Token.Kind.isOperand]
  | opening =>
    simp [placeFault?, Token.kind, needOperand_eq_some_iff (hrest rfl), Token.Kind.endsOperand,
      Token.Kind.isOperand]
  | closing =>
    have hcount : opens (before ++ [.closing]) = opens before
        ∧ closes (before ++ [.closing]) = closes before + 1 := by
      rw [opens_append, closes_append]
      exact ⟨rfl, rfl⟩
    by_cases h : opens before < closes before + 1
    · have hle : ¬ closes before + 1 ≤ opens before := by omega
      simp [placeFault?, Token.kind, hcount, h, hle, eq_comm (a := e)]
    · have hle : closes before + 1 ≤ opens before := by omega
      simp [placeFault?, Token.kind, hcount, h, hle, needOperator_eq_some_iff,
        Token.Kind.endsOperand, Token.Kind.isOperand]
  | stray text => exact absurd rfl hstray

/-- Where the pass finds nothing, no more parentheses are closed than opened. -/
theorem closes_le_of_placeFault? (hle : closes before ≤ opens before)
    (h : placeFault? before.length (opens before) (closes before) token rest = none) :
    closes (before ++ [token]) ≤ opens (before ++ [token]) := by
  rw [opens_append, closes_append]
  by_cases hclosing : token = .closing
  · subst hclosing
    have hcounts : opens [.closing] = 0 ∧ closes [.closing] = 1 := ⟨rfl, rfl⟩
    simp only [placeFault?, Token.kind] at h
    split at h
    · cases h
    · omega
  · have hcount := closes_singleton_of_ne hclosing
    omega

end Place

/-! ## Section 3: The pass -/

theorem FaultAt.lt_length {tokens : List Token} {place : Nat} {e : SyntaxError}
    (h : FaultAt tokens place e) : place < tokens.length := by
  cases h with
  | operandExpected here => exact (List.getElem?_eq_some_iff.mp here).1
  | unopenedParen here => exact (List.getElem?_eq_some_iff.mp here).1
  | operatorExpected here => exact (List.getElem?_eq_some_iff.mp here).1

/-- No more than one thing is wrong at a place. -/
theorem FaultAt.unique {tokens : List Token} {place : Nat} {e e' : SyntaxError}
    (h : FaultAt tokens place e) (h' : FaultAt tokens place e') : e = e' := by
  -- the kind of the token tells the rules apart, and at a closing parenthesis the count does
  cases h with
  | operandExpected here needs there fails =>
    cases h' with
    | operandExpected here' needs' there' fails' =>
      cases here.symm.trans here'
      cases there.symm.trans there'
      rfl
    | unopenedParen here' =>
      cases here.symm.trans here'
      rcases needs with h | h <;> cases h
    | operatorExpected here' ends' =>
      cases here.symm.trans here'
      rcases needs with h | h <;> (rw [h] at ends'; cases ends')
  | unopenedParen here exceeds =>
    cases h' with
    | operandExpected here' needs' =>
      cases here.symm.trans here'
      rcases needs' with h | h <;> cases h
    | unopenedParen => rfl
    | operatorExpected here' ends' opened' =>
      cases here.symm.trans here'
      exact absurd (opened' rfl) (Nat.not_le_of_lt exceeds)
  | operatorExpected here ends opened there fails =>
    cases h' with
    | operandExpected here' needs' =>
      cases here.symm.trans here'
      rcases needs' with h | h <;> (rw [h] at ends; cases ends)
    | unopenedParen here' exceeds' =>
      cases here.symm.trans here'
      exact absurd (opened rfl) (Nat.not_le_of_lt exceeds')
    | operatorExpected here' ends' opened' there' fails' =>
      cases here.symm.trans here'
      cases there.symm.trans there'
      rfl

/-- The pass over `rest` stops at the first fault in it. Where there is none, it counts the
    parentheses to the end, and never more that close than are open. -/
theorem placeError?_cases (before rest : List Token) (hstray : ∀ token ∈ rest, token.kind ≠ .stray)
    (hends : ∀ last ∈ rest.getLast?, last.kind.endsOperand = true)
    (hle : closes before ≤ opens before) :
    (∃ place e, before.length ≤ place ∧ FaultAt (before ++ rest) place e
        ∧ (∀ earlier < place, before.length ≤ earlier → ∀ e', ¬FaultAt (before ++ rest) earlier e')
        ∧ placeError? before.length (opens before) (closes before) rest = some e)
      ∨ (∀ place, before.length ≤ place → ∀ e, ¬FaultAt (before ++ rest) place e)
        ∧ closes (before ++ rest) ≤ opens (before ++ rest)
        ∧ placeError? before.length (opens before) (closes before) rest
          = if opens (before ++ rest) = closes (before ++ rest) then none
            else some (.unclosedParens (opens (before ++ rest) - closes (before ++ rest))) := by
  -- what stands before the rest grows with the induction, so that the counters are its counts
  induction rest generalizing before with
  | nil =>
    refine .inr ⟨?_, ?_, ?_⟩
    · intro place hplace e hfault
      have := hfault.lt_length
      rw [List.append_nil] at this
      omega
    · rwa [List.append_nil]
    · rw [List.append_nil, placeError?]
  | cons token rest ih =>
    obtain ⟨hfirst, hrest⟩ := List.forall_mem_cons.mp hstray
    have hfault {e : SyntaxError} := @faultAt_iff_placeFault? before rest token e hfirst (by
      rintro rfl
      exact hends token rfl)
    rw [placeError?_cons]
    cases hplace : placeFault? before.length (opens before) (closes before) token rest with
    | some e =>
      refine .inl ⟨before.length, e, Nat.le_refl _, hfault.mpr hplace, ?_, rfl⟩
      intro earlier hlt hge
      omega
    | none =>
      have hnone (e : SyntaxError) : ¬FaultAt (before ++ token :: rest) before.length e := by
        rw [hfault, hplace]
        exact nofun
      have hends' : ∀ last ∈ rest.getLast?, last.kind.endsOperand = true := by
        intro last hlast
        refine hends last ?_
        rw [List.getLast?_cons, Option.mem_def.mp hlast]
        rfl
      have hrun := ih (before ++ [token]) hrest hends' (closes_le_of_placeFault? hle hplace)
      rw [List.append_assoc, List.singleton_append, List.length_append, List.length_singleton,
        opens_append before [token], closes_append before [token]] at hrun
      -- the place of this token is no fault either
      have hskip {place : Nat} (hge : before.length ≤ place) {e : SyntaxError}
          (hat : FaultAt (before ++ token :: rest) place e) : before.length + 1 ≤ place := by
        rcases Nat.eq_or_lt_of_le hge with rfl | hlt
        · exact absurd hat (hnone e)
        · exact hlt
      rcases hrun with ⟨place, e, hge, hat, hearlier, hresult⟩ | ⟨hnone', hcount, hresult⟩
      · refine .inl ⟨place, e, Nat.le_of_succ_le hge, hat, ?_, hresult⟩
        intro earlier hlt hle' e' hat'
        exact hearlier earlier hlt (hskip hle' hat') e' hat'
      · refine .inr ⟨?_, hcount, hresult⟩
        intro place hge e hat
        exact hnone' place (hskip hge hat) e hat

/-! ## Section 4: The check -/

section Check

variable {tokens : List Token} {first last : Token} {e : Option SyntaxError}

/-- The questions that the check asks of a sequence as a whole, before the pass. -/
theorem structureError?_of_ends (hhead : tokens.head? = some first)
    (hlast : tokens.getLast? = some last) :
    structureError? tokens = ((tokens.findSome? Token.stray?).map .strayText).or
      (if !first.kind.beginsOperand then some (.badStart first.text)
        else if !last.kind.endsOperand then some (.badEnd last.text)
        else placeError? 0 0 0 tokens) := by
  unfold structureError?
  rw [hhead, hlast]
  cases tokens.findSome? Token.stray? <;> rfl

theorem exists_getLast? (hhead : tokens.head? = some first) :
    ∃ last, tokens.getLast? = some last := by
  cases tokens with
  | nil => cases hhead
  | cons token rest => exact ⟨_, List.getLast?_cons⟩

theorem findSome?_stray?_eq_none_iff :
    tokens.findSome? Token.stray? = none ↔ ∀ token ∈ tokens, token.kind ≠ .stray := by
  simp only [List.findSome?_eq_none_iff, Token.stray?_eq_none_iff]

theorem findSome?_stray?_eq_some_iff {text : String} :
    tokens.findSome? Token.stray? = some text ↔
      ∃ before after, tokens = before ++ .stray text :: after
        ∧ ∀ token ∈ before, token.kind ≠ .stray := by
  have hstray (token : Token) : token.stray? = some text ↔ token = .stray text := by
    cases token <;> simp [Token.stray?]
  simp only [List.findSome?_eq_some_iff, hstray, Token.stray?_eq_none_iff]
  constructor
  · rintro ⟨before, token, after, hsplit, rfl, hbefore⟩
    exact ⟨before, after, hsplit, hbefore⟩
  · rintro ⟨before, after, hsplit, hbefore⟩
    exact ⟨before, _, after, hsplit, rfl, hbefore⟩

/-- The pass decides when the sequence is not wrong as a whole. -/
theorem Framed.structureError?_eq (h : Framed tokens) :
    structureError? tokens = placeError? 0 0 0 tokens := by
  obtain ⟨hstray, ⟨first, hhead, hbegins⟩, last, hlast, hends⟩ := h
  rw [structureError?_of_ends hhead hlast, findSome?_stray?_eq_none_iff.mpr hstray, hbegins, hends]
  rfl

theorem Framed.structureError?_cases (h : Framed tokens) :
    (∃ place e, FaultAt tokens place e ∧ (∀ earlier < place, ∀ e', ¬FaultAt tokens earlier e')
        ∧ structureError? tokens = some e)
      ∨ (∀ place e, ¬FaultAt tokens place e) ∧ closes tokens ≤ opens tokens
        ∧ structureError? tokens = if opens tokens = closes tokens then none
          else some (.unclosedParens (opens tokens - closes tokens)) := by
  obtain ⟨last, hlast, hends⟩ := h.ends
  have hends' : ∀ other ∈ tokens.getLast?, other.kind.endsOperand = true := by
    intro other hother
    cases hlast.symm.trans hother
    exact hends
  rw [h.structureError?_eq]
  rcases placeError?_cases [] tokens h.not_stray hends' (Nat.le_refl _) with
    ⟨place, e, -, hat, hearlier, hresult⟩ | ⟨hnone, hcount, hresult⟩
  · exact .inl ⟨place, e, hat, fun earlier hlt => hearlier earlier hlt (Nat.zero_le _), hresult⟩
  · exact .inr ⟨fun place => hnone place (Nat.zero_le _), hcount, hresult⟩

theorem Framed.verdict (h : Framed tokens) : Verdict tokens (structureError? tokens) := by
  rcases h.structureError?_cases with ⟨place, e, fault, first, hresult⟩ | ⟨hnone, hle, hresult⟩
  · rw [hresult]
    exact .fault h fault first
  · rw [hresult]
    split
    · next hbalanced => exact .sound h hnone hbalanced
    · next hne => exact .unclosedParens h hnone (by omega) (by omega)

/-- What the check says is a verdict. -/
theorem verdict_structureError? (tokens : List Token) :
    Verdict tokens (structureError? tokens) := by
  cases hhead : tokens.head? with
  | none =>
    rw [List.head?_eq_none_iff.mp hhead]
    exact .noTokens rfl
  | some first =>
    -- the questions in their order: a stray token, the first token, the last one, the places
    obtain ⟨last, hlast⟩ := exists_getLast? hhead
    have hcheck := structureError?_of_ends hhead hlast
    cases hfound : tokens.findSome? Token.stray? with
    | some text =>
      obtain ⟨before, after, hsplit, hbefore⟩ := findSome?_stray?_eq_some_iff.mp hfound
      rw [hcheck, hfound, Option.map_some, Option.some_or]
      exact .strayText hsplit hbefore
    | none =>
      have hstray := findSome?_stray?_eq_none_iff.mp hfound
      cases hbegins : first.kind.beginsOperand with
      | false =>
        rw [hcheck, hfound, hbegins]
        exact .badStart hstray hhead hbegins
      | true =>
        cases hends : last.kind.endsOperand with
        | false =>
          rw [hcheck, hfound, hbegins, hends]
          exact .badEnd hstray hhead hbegins hlast hends
        | true => exact Framed.verdict ⟨hstray, ⟨first, hhead, hbegins⟩, last, hlast, hends⟩

/-- There is no other verdict than that of the check. -/
theorem Verdict.structureError?_eq (h : Verdict tokens e) : structureError? tokens = e := by
  cases h with
  | noTokens empty =>
    rw [empty]
    rfl
  | strayText split first =>
    have hfound := findSome?_stray?_eq_some_iff.mpr ⟨_, _, split, first⟩
    obtain ⟨head, hhead⟩ : ∃ head, tokens.head? = some head := by
      cases hhead : tokens.head? with
      | none =>
        rw [List.head?_eq_none_iff.mp hhead] at hfound
        cases hfound
      | some head => exact ⟨head, rfl⟩
    obtain ⟨last, hlast⟩ := exists_getLast? hhead
    rw [structureError?_of_ends hhead hlast, hfound, Option.map_some, Option.some_or]
  | badStart not_stray head fails =>
    obtain ⟨last, hlast⟩ := exists_getLast? head
    rw [structureError?_of_ends head hlast, findSome?_stray?_eq_none_iff.mpr not_stray]
    simp [fails]
  | badEnd not_stray head begins getLast fails =>
    rw [structureError?_of_ends head getLast, findSome?_stray?_eq_none_iff.mpr not_stray]
    simp [begins, fails]
  | @fault place e framed fault first =>
    rcases framed.structureError?_cases with
      ⟨place', e', fault', first', hresult⟩ | ⟨hnone, -, -⟩
    · -- both are the first fault
      have hplace : place' = place := by
        rcases Nat.lt_trichotomy place' place with hlt | heq | hgt
        · exact absurd fault' (first place' hlt e')
        · exact heq
        · exact absurd fault (first' place hgt e)
      subst hplace
      rw [hresult, fault.unique fault']
    · exact absurd fault (hnone place e)
  | @unclosedParens count framed faultless pos surplus =>
    rcases framed.structureError?_cases with ⟨place, e, fault, -, -⟩ | ⟨-, -, hresult⟩
    · exact absurd fault (faultless place e)
    · have hcount : opens tokens - closes tokens = count := by omega
      rw [hresult, if_neg (by omega), hcount]
  | sound framed faultless balanced =>
    rcases framed.structureError?_cases with ⟨place, e, fault, -, -⟩ | ⟨-, -, hresult⟩
    · exact absurd fault (faultless place e)
    · rw [hresult, if_pos balanced]

/-- Before the first fault no more parentheses are closed than opened. -/
theorem closes_take_le (place : Nat) (h : ∀ earlier < place, ∀ e, ¬FaultAt tokens earlier e) :
    closes (tokens.take place) ≤ opens (tokens.take place) := by
  induction place with
  | zero => simp [opens, closes]
  | succ place ih =>
    have hle := ih fun earlier hlt => h earlier (Nat.lt_succ_of_lt hlt)
    cases hhere : tokens[place]? with
    | none => rwa [List.take_add_one, hhere, Option.toList_none, List.append_nil]
    | some token =>
      have htake : tokens.take (place + 1) = tokens.take place ++ [token] := by
        rw [List.take_add_one, hhere, Option.toList_some]
      by_cases hclosing : token = .closing
      · -- a parenthesis that was not opened would be a fault here
        rw [hclosing] at hhere
        exact Nat.le_of_not_lt fun hlt => h place (Nat.lt_succ_self _) _ (.unopenedParen hhere hlt)
      · rw [htake, opens_append, closes_append, closes_singleton_of_ne hclosing]
        exact Nat.le_trans hle (Nat.le_add_right _ _)

end Check

/-- The check says what there is to say of a sequence and nothing else: first what is wrong with it
    as a whole, then the fault at the first place that has one, then how many parentheses are left
    open. Once the pass over the places has begun, it never meets the end where an operand must
    follow; and until it stops, it has not seen more parentheses close than open, so that the
    difference of the two is exact. -/
theorem structureError?_iff_verdict (tokens : List Token) :
    (∀ e, structureError? tokens = e ↔ Verdict tokens e)
    ∧ (Framed tokens → ∀ text, placeError? 0 0 0 tokens ≠ some (.badEnd text))
    ∧ ∀ place, (∀ earlier < place, ∀ e, ¬FaultAt tokens earlier e) →
        closes (tokens.take place) ≤ opens (tokens.take place) := by
  refine ⟨fun e => ⟨?_, Verdict.structureError?_eq⟩, ?_, closes_take_le⟩
  · rintro rfl
    exact verdict_structureError? tokens
  · intro hframed text htext
    have hverdict := hframed.verdict
    rw [hframed.structureError?_eq, htext] at hverdict
    -- the only verdict of this form is about the last token, which ends an operand here
    obtain ⟨last, hlast, hends⟩ := hframed.ends
    cases hverdict with
    | badEnd not_stray head begins getLast fails =>
      cases hlast.symm.trans getLast
      rw [hends] at fails
      cases fails
    | fault framed fault => cases fault

end Worksheet
