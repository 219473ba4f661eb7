import Worksheet.Formula.SyntaxError
import Worksheet.Token.Basic

/-! # The structure of a formula

    Operands and operators alternate, and parentheses match. `structureError?` checks this in one
    pass over the tokens, with two rules for neighbours and a count of the parentheses, and names
    the first thing that is wrong.

    Whether anything is wrong depends on the kinds of the tokens alone.
-/

namespace Worksheet

/-! ## Section 1: Rules for neighbours -/

/-- After `token` an operand must begin; if one does, `further` is what is wrong later on. -/
def needOperand (token : Token) (rest : List Token) (further : Option SyntaxError) :
    Option SyntaxError :=
  match rest with
  | [] => some (.badEnd token.text)
  | next :: _ =>
    if next.kind.beginsOperand then further else some (.operandExpected token.text next.text)

/-- After `token`, which ends an operand, only an operator or a closing parenthesis may follow; if
    so, `further` is what is wrong later on. -/
def needOperator (token : Token) (rest : List Token) (further : Option SyntaxError) :
    Option SyntaxError :=
  match rest with
  | [] => further
  | next :: _ =>
    if next.kind.followsOperand then further else some (.operatorExpected token.text next.text)

/-! ## Section 2: The pass over the tokens -/

/-- The first place, from `position` on, where neighbours do not fit or a parenthesis closes that
    was not opened; at the end, whether all are closed. `opened` and `closed` count the
    parentheses before `position`. -/
def placeError? (position opened closed : Nat) : List Token → Option SyntaxError
  | [] => if opened = closed then none else some (.unclosedParens (opened - closed))
  | token :: rest =>
    match token.kind with
    | .stray => placeError? (position + 1) opened closed rest
    | .opening => needOperand token rest (placeError? (position + 1) (opened + 1) closed rest)
    | .operator => needOperand token rest (placeError? (position + 1) opened closed rest)
    | .closing =>
      if opened < closed + 1 then some (.unopenedParen position)
      else needOperator token rest (placeError? (position + 1) opened (closed + 1) rest)
    | .number => needOperator token rest (placeError? (position + 1) opened closed rest)
    | .name => needOperator token rest (placeError? (position + 1) opened closed rest)

/-- What is wrong with the structure of a token sequence, if anything is. -/
def structureError? (tokens : List Token) : Option SyntaxError :=
  match tokens.head?, tokens.getLast? with
  | some first, some last =>
    match tokens.findSome? Token.stray? with
    | some text => some (.strayText text)
    | none =>
      if !first.kind.beginsOperand then some (.badStart first.text)
      else if !last.kind.endsOperand then some (.badEnd last.text)
      else placeError? 0 0 0 tokens
  | _, _ => some .noTokens

/-! ## Section 3: Only the kinds of tokens matter -/

theorem needOperand_isNone_congr {token other : Token} {rest rest' : List Token}
    {further further' : Option SyntaxError} (hrest : rest.map Token.kind = rest'.map Token.kind)
    (hfurther : further.isNone = further'.isNone) :
    (needOperand token rest further).isNone = (needOperand other rest' further').isNone := by
  unfold needOperand
  cases rest with
  | nil =>
    cases rest' with
    | nil => rfl
    | cons _ _ => simp at hrest
  | cons next _ =>
    cases rest' with
    | nil => simp at hrest
    | cons next' _ =>
      simp only [List.map_cons, List.cons.injEq] at hrest
      simp only [hrest.1]
      split
      · exact hfurther
      · rfl

theorem needOperator_isNone_congr {token other : Token} {rest rest' : List Token}
    {further further' : Option SyntaxError} (hrest : rest.map Token.kind = rest'.map Token.kind)
    (hfurther : further.isNone = further'.isNone) :
    (needOperator token rest further).isNone = (needOperator other rest' further').isNone := by
  unfold needOperator
  cases rest with
  | nil =>
    cases rest' with
    | nil => exact hfurther
    | cons _ _ => simp at hrest
  | cons next _ =>
    cases rest' with
    | nil => simp at hrest
    | cons next' _ =>
      simp only [List.map_cons, List.cons.injEq] at hrest
      simp only [hrest.1]
      split
      · exact hfurther
      · rfl

theorem placeError?_isNone_congr {tokens others : List Token}
    (h : tokens.map Token.kind = others.map Token.kind) (position opened closed : Nat) :
    (placeError? position opened closed tokens).isNone
      = (placeError? position opened closed others).isNone := by
  induction tokens generalizing others position opened closed with
  | nil =>
    cases others with
    | nil => rfl
    | cons _ _ => simp at h
  | cons token rest ih =>
    cases others with
    | nil => simp at h
    | cons other rest' =>
      simp only [List.map_cons, List.cons.injEq] at h
      obtain ⟨hkind, hrest⟩ := h
      unfold placeError?
      rw [hkind]
      split
      · exact ih hrest _ _ _
      · exact needOperand_isNone_congr hrest (ih hrest _ _ _)
      · exact needOperand_isNone_congr hrest (ih hrest _ _ _)
      · split
        · rfl
        · exact needOperator_isNone_congr hrest (ih hrest _ _ _)
      · exact needOperator_isNone_congr hrest (ih hrest _ _ _)
      · exact needOperator_isNone_congr hrest (ih hrest _ _ _)

theorem findSome?_stray?_isNone_iff (tokens : List Token) :
    (tokens.findSome? Token.stray?).isNone = true ↔ Token.Kind.stray ∉ tokens.map Token.kind := by
  simp [List.findSome?_eq_none_iff, Token.stray?_eq_none_iff]

/-- Token sequences of the same kinds are both sound or both not. -/
theorem structureError?_isNone_congr {tokens others : List Token}
    (h : tokens.map Token.kind = others.map Token.kind) :
    (structureError? tokens).isNone = (structureError? others).isNone := by
  have hhead : tokens.head?.map Token.kind = others.head?.map Token.kind := by
    rw [← List.head?_map, ← List.head?_map, h]
  have hlast : tokens.getLast?.map Token.kind = others.getLast?.map Token.kind := by
    rw [← List.getLast?_map, ← List.getLast?_map, h]
  have hstray :
      (tokens.findSome? Token.stray?).isNone = (others.findSome? Token.stray?).isNone := by
    rw [Bool.eq_iff_iff, findSome?_stray?_isNone_iff, findSome?_stray?_isNone_iff, h]
  have hplace := placeError?_isNone_congr h 0 0 0
  unfold structureError?
  generalize tokens.head? = head at hhead ⊢
  generalize others.head? = head' at hhead ⊢
  generalize tokens.getLast? = last at hlast ⊢
  generalize others.getLast? = last' at hlast ⊢
  generalize tokens.findSome? Token.stray? = found at hstray ⊢
  generalize others.findSome? Token.stray? = found' at hstray ⊢
  cases head <;> cases head' <;> simp at hhead <;> try rfl
  cases last <;> cases last' <;> simp at hlast <;> try rfl
  cases found <;> cases found' <;> simp at hstray <;> try rfl
  simp only [hhead, hlast]
  repeat' split
  all_goals simp_all

end Worksheet
