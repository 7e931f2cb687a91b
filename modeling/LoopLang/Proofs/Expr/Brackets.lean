import LoopLang.Token

/-!
# Brackets

The brackets of a token list pair up, said without reading the list in any order,
and counted from the right: an opening bracket takes away the nearest closing
bracket behind it, and every closing bracket has to be taken away in the end.  The
lists need not be expressions; operands and operators stand in them in any order.

Main definitions:

- `Token.Usable`: the tokens that can stand in an expression.
- `Expr.Balanced`: the brackets of a token list pair up.
- `Expr.unopened`: the closing brackets of a list that are not opened in it.
- `Expr.unbracketed`: the tokens of a list that are no brackets.

Main results:

- Theorem `Expr.closes_of_unopened`: the count says how a list falls into parts
  whose brackets pair up.
- Theorem `Expr.balanced_iff`: the brackets pair up if and only if counting them
  from the right never fails and ends at zero.
-/

namespace LoopLang

/-- Whether the token opens or closes a group. -/
def Token.isBracket (token : Token) : Bool :=
  token.kind == .leftBracket || token.kind == .rightBracket

/-- A token that can be a node of a tree: an operand, or a token that spells an
operator. -/
def Token.IsNode (token : Token) : Prop :=
  token.isOperand = true ∨ token.operator?.isSome = true

instance (token : Token) : Decidable token.IsNode :=
  inferInstanceAs (Decidable (_ ∨ _))

/-- A token that can stand somewhere in an expression: a bracket or a node. -/
def Token.Usable (token : Token) : Prop :=
  token.isBracket = true ∨ token.IsNode

instance (token : Token) : Decidable token.Usable :=
  inferInstanceAs (Decidable (_ ∨ _))

namespace Token

/-- An operand is no bracket. -/
theorem isBracket_of_isOperand {token : Token} (hoperand : token.isOperand = true) :
    token.isBracket = false := by
  cases hkind : token.kind <;> simp_all [isOperand, TokenKind.isLiteral, isBracket]

/-- A token that spells an operator is a binary or a unary operator. -/
theorem kind_of_operator? {token : Token} (hoperator : token.operator?.isSome = true) :
    token.kind = .binaryOperator ∨ token.kind = .unaryOperator := by
  cases hkind : token.kind <;> simp_all [operator?]

/-- An operator is no bracket. -/
theorem isBracket_of_operator? {token : Token} (hoperator : token.operator?.isSome = true) :
    token.isBracket = false := by
  rcases kind_of_operator? hoperator with hkind | hkind <;> simp [isBracket, hkind]

end Token

namespace Expr

/-! ## Pairs -/

/-- The brackets of a token list pair up. -/
inductive Balanced : List Token → Prop where
  | empty : Balanced []
  | plain {token : Token} {rest : List Token} (hplain : token.isBracket = false)
      (hrest : Balanced rest) : Balanced (token :: rest)
  | group {opening closing : Token} {inner rest : List Token}
      (hopening : opening.kind = .leftBracket) (hclosing : closing.kind = .rightBracket)
      (hinner : Balanced inner) (hrest : Balanced rest) :
      Balanced (opening :: (inner ++ closing :: rest))

/-! ## Counting -/

/-- The number of closing brackets of a token list that are not opened in it.
There is no such number if an opening bracket of the list is not closed. -/
def unopened : List Token → Option Nat
  | [] => some 0
  | token :: rest => do
    let count ← unopened rest
    match token.kind, count with
    | .rightBracket, count => some (count + 1)
    | .leftBracket, 0 => none
    | .leftBracket, count + 1 => some count
    | _, count => some count

/-- Tokens that are no brackets leave the count as it is. -/
theorem unopened_plain {token : Token} (hplain : token.isBracket = false) (rest : List Token) :
    unopened (token :: rest) = unopened rest := by
  cases hrest : unopened rest with
  | none => simp [unopened, hrest]
  | some count => cases hkind : token.kind <;> simp_all [unopened, Token.isBracket]

/-- One more closing bracket lacks its partner. -/
theorem unopened_closing {token : Token} (hclosing : token.kind = .rightBracket)
    (rest : List Token) : unopened (token :: rest) = (unopened rest).map (· + 1) := by
  cases hrest : unopened rest <;> simp [unopened, hclosing, hrest]

/-- An opening bracket takes one closing bracket away. -/
theorem unopened_opening_eq_some_iff {token : Token} (hopening : token.kind = .leftBracket)
    {rest : List Token} {count : Nat} :
    unopened (token :: rest) = some count ↔ unopened rest = some (count + 1) := by
  rcases hrest : unopened rest with _ | _ | before <;> simp [unopened, hopening, hrest]

/-- An opening bracket needs a closing bracket. -/
theorem unopened_opening_of_zero {token : Token} (hopening : token.kind = .leftBracket)
    {rest : List Token} (hrest : unopened rest = some 0) : unopened (token :: rest) = none := by
  simp [unopened, hopening, hrest]

/-- An opening bracket that is not closed stays so whatever stands before it. -/
theorem unopened_cons_of_none {rest : List Token} (hrest : unopened rest = none)
    (token : Token) : unopened (token :: rest) = none := by
  simp [unopened, hrest]

/-- Tokens whose brackets pair up leave the count of what follows as it is. -/
theorem Balanced.unopened_append {tokens : List Token} (hbalanced : Balanced tokens)
    (more : List Token) : unopened (tokens ++ more) = unopened more := by
  induction hbalanced generalizing more with
  | empty => rfl
  | plain hplain _ ih => rw [List.cons_append, unopened_plain hplain, ih]
  | group hopening hclosing _ _ ihinner ihrest =>
    apply Option.ext
    intro count
    rw [List.cons_append, List.append_assoc, List.cons_append,
      unopened_opening_eq_some_iff hopening, ihinner, unopened_closing hclosing, ihrest]
    simp

/-- Two balanced rows make a balanced one. -/
theorem Balanced.append {front rest : List Token} (hfront : Balanced front)
    (hrest : Balanced rest) : Balanced (front ++ rest) := by
  induction hfront with
  | empty => exact hrest
  | plain hplain _ ih => exact .plain hplain ih
  | group hopening hclosing hinner _ _ ih =>
    rw [List.cons_append, List.append_assoc, List.cons_append]
    exact .group hopening hclosing hinner ih

/-- A token list with the given number of closing brackets that are not opened in
it; the brackets between them pair up. -/
inductive Closes : Nat → List Token → Prop where
  | balanced {tokens : List Token} (hbalanced : Balanced tokens) : Closes 0 tokens
  | closing {count : Nat} {front rest : List Token} {closing : Token} (hfront : Balanced front)
      (hclosing : closing.kind = .rightBracket) (hrest : Closes count rest) :
      Closes (count + 1) (front ++ closing :: rest)

/-- A balanced row in front does not change what the tokens behind it close. -/
theorem Closes.balanced_append {count : Nat} {front rest : List Token} (hfront : Balanced front)
    (hrest : Closes count rest) : Closes count (front ++ rest) := by
  cases hrest with
  | balanced hbalanced => exact .balanced (hfront.append hbalanced)
  | closing hmiddle hclosing hrest =>
    rw [← List.append_assoc]
    exact .closing (hfront.append hmiddle) hclosing hrest

/-- The count says how a token list falls into parts whose brackets pair up. -/
theorem closes_of_unopened {tokens : List Token} {count : Nat}
    (hcount : unopened tokens = some count) : Closes count tokens := by
  induction tokens generalizing count with
  | nil =>
    cases hcount
    exact .balanced .empty
  | cons token rest ih =>
    by_cases hclosing : token.kind = .rightBracket
    · rw [unopened_closing hclosing, Option.map_eq_some_iff] at hcount
      rcases hcount with ⟨inner, hinner, rfl⟩
      exact .closing .empty hclosing (ih hinner)
    by_cases hopening : token.kind = .leftBracket
    · cases ih ((unopened_opening_eq_some_iff hopening).1 hcount) with
      | @closing _ inner after closing hinner hclosing hafter =>
        have hgroup : Balanced (token :: (inner ++ [closing])) :=
          .group hopening hclosing hinner .empty
        have hwhole := hafter.balanced_append hgroup
        simpa using hwhole
    · have hplain : token.isBracket = false := by simp [Token.isBracket, hopening, hclosing]
      rw [unopened_plain hplain] at hcount
      exact (ih hcount).balanced_append (.plain hplain .empty)

/-- The brackets pair up if and only if counting them from the right never fails
and ends at zero. -/
theorem balanced_iff {tokens : List Token} : Balanced tokens ↔ unopened tokens = some 0 := by
  constructor
  · intro hbalanced
    simpa [unopened] using hbalanced.unopened_append []
  · intro hcount
    cases closes_of_unopened hcount with
    | balanced hbalanced => exact hbalanced

instance (tokens : List Token) : Decidable (Balanced tokens) :=
  decidable_of_iff _ balanced_iff.symm

/-! ## The other tokens -/

/-- The tokens of a list that are no brackets. -/
def unbracketed (tokens : List Token) : List Token :=
  tokens.filter fun token => !token.isBracket

theorem unbracketed_plain {token : Token} (hplain : token.isBracket = false)
    (rest : List Token) : unbracketed (token :: rest) = token :: unbracketed rest := by
  simp [unbracketed, hplain]

theorem unbracketed_bracket {token : Token} (hbracket : token.isBracket = true)
    (rest : List Token) : unbracketed (token :: rest) = unbracketed rest := by
  simp [unbracketed, hbracket]

theorem unbracketed_append (front rest : List Token) :
    unbracketed (front ++ rest) = unbracketed front ++ unbracketed rest :=
  List.filter_append front rest

end Expr

end LoopLang
