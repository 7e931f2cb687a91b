import LoopLang.Proofs.Grammar.Printing

/-!
# Expressions from tokens without places

Whether a list of tokens has a tree, and which one, is decided by the categories and
texts of the tokens.  Their places are handed on to the tree and are not looked at;
they show only in the fault of a list that has no tree.

Main definitions:

- `Yard.unplaced`: a yard without the places of its tokens.

Main results:

- Theorem `Yard.polish_unplaced`: the Polish order of tokens without places.
- Theorem `Expr.toOption_ofTokens_unplaced`: the tree of tokens without places.
-/

namespace LoopLang

namespace Token

@[simp]
theorem isOneOf_unplaced (token : Token) (kinds : List TokenKind) :
    token.unplaced.isOneOf kinds = token.isOneOf kinds :=
  rfl

@[simp]
theorem isOperand_unplaced (token : Token) : token.unplaced.isOperand = token.isOperand :=
  rfl

@[simp]
theorem operatorOrFault_unplaced (token : Token) :
    token.unplaced.operatorOrFault = token.operatorOrFault :=
  rfl

end Token

namespace Yard

/-! ## Polish order -/

/-- A yard without the places of its tokens. -/
def unplaced (yard : Yard) : Yard :=
  ⟨yard.settled.map Token.unplaced, yard.waiting.map Token.unplaced⟩

/-- Closing a group looks at categories only. -/
theorem closeGroup_unplaced (settled waiting : List Token) :
    closeGroup (settled.map Token.unplaced) (waiting.map Token.unplaced) =
      (closeGroup settled waiting).map unplaced := by
  induction waiting generalizing settled with
  | nil => rfl
  | cons top rest ih =>
    by_cases hbracket : top.kind = .rightBracket
    · have hbare : top.unplaced.kind = .rightBracket := hbracket
      simp only [List.map_cons, closeGroup, if_pos hbracket, if_pos hbare]
      rfl
    · have hbare : top.unplaced.kind ≠ .rightBracket := hbracket
      simp only [List.map_cons, closeGroup, if_neg hbracket, if_neg hbare]
      exact ih (top :: settled)

/-- Operators are settled by their spelling, wherever they stand. -/
theorem settleTighter_unplaced (precedence : Nat) (settled waiting : List Token) :
    settleTighter precedence (settled.map Token.unplaced) (waiting.map Token.unplaced) =
      (settleTighter precedence settled waiting).map unplaced := by
  induction waiting generalizing settled with
  | nil => rfl
  | cons top rest ih =>
    by_cases hbracket : top.kind = .rightBracket
    · have hbare : top.unplaced.kind = .rightBracket := hbracket
      simp only [List.map_cons, settleTighter, if_pos hbracket, if_pos hbare]
      rfl
    · have hbare : top.unplaced.kind ≠ .rightBracket := hbracket
      simp only [List.map_cons, settleTighter, if_neg hbracket, if_neg hbare,
        Token.operatorOrFault_unplaced]
      cases top.operatorOrFault with
      | error fault => rfl
      | ok op =>
        by_cases hlooser : op.precedence ≤ precedence
        · simp only [Bind.bind, Except.bind, if_pos hlooser]
          rfl
        · simp only [Bind.bind, Except.bind, if_neg hlooser]
          exact ih (top :: settled)

/-- A token finds its place in the order by its category and its text. -/
theorem place_unplaced (yard : Yard) (token : Token) :
    yard.unplaced.place token.unplaced = (yard.place token).map unplaced := by
  unfold place
  rw [Token.kind_unplaced]
  split
  · rfl
  · exact closeGroup_unplaced yard.settled yard.waiting
  · rfl
  · rw [Token.operatorOrFault_unplaced]
    cases token.operatorOrFault with
    | error fault => rfl
    | ok op =>
      have htighter := settleTighter_unplaced op.precedence yard.settled yard.waiting
      simp only [Bind.bind, Except.bind, unplaced] at htighter ⊢
      rw [htighter]
      cases settleTighter op.precedence yard.settled yard.waiting <;> rfl
  · rw [Token.isOperand_unplaced]
    split <;> rfl

/-- The yard holds the same tokens for a list without places. -/
theorem ofTokens_unplaced (tokens : List Token) :
    ofTokens (tokens.map Token.unplaced) = (ofTokens tokens).map unplaced := by
  induction tokens with
  | nil => rfl
  | cons token rest ih =>
    simp only [List.map_cons, ofTokens, ih]
    cases ofTokens rest with
    | error fault => rfl
    | ok yard => exact place_unplaced yard token

/-- What is left at the end is settled in the same order. -/
theorem settleAll_unplaced (settled waiting : List Token) :
    settleAll (settled.map Token.unplaced) (waiting.map Token.unplaced) =
      (settleAll settled waiting).map (List.map Token.unplaced) := by
  induction waiting generalizing settled with
  | nil => rfl
  | cons top rest ih =>
    by_cases hbracket : top.kind = .rightBracket
    · have hbare : top.unplaced.kind = .rightBracket := hbracket
      simp only [List.map_cons, settleAll, if_pos hbracket, if_pos hbare]
      rfl
    · have hbare : top.unplaced.kind ≠ .rightBracket := hbracket
      simp only [List.map_cons, settleAll, if_neg hbracket, if_neg hbare]
      exact ih (top :: settled)

/-- The Polish order of tokens without places. -/
theorem polish_unplaced (tokens : List Token) :
    polish (tokens.map Token.unplaced) = (polish tokens).map (List.map Token.unplaced) := by
  unfold polish
  rw [ofTokens_unplaced]
  cases ofTokens tokens with
  | error fault => rfl
  | ok yard => exact settleAll_unplaced yard.settled yard.waiting

end Yard

namespace Expr

/-! ## Trees -/

/-- Two computations, one after the other, without their faults. -/
theorem toOption_bind {α β : Type} (answer : Except Fault α) (next : α → Except Fault β) :
    (answer >>= next).toOption = answer.toOption.bind fun a => (next a).toOption := by
  cases answer <;> rfl

/-- Which tree is read off, if any, depends neither on places nor on the fault that
stands for a list that ends too early. -/
theorem toOption_ofPolish_unplaced (malformed other : Fault) (size : Nat) (order : List Token) :
    (ofPolish other size (order.map Token.unplaced)).toOption =
      (ofPolish malformed size order).toOption.map
        (Prod.map Expr.unplaced (List.map Token.unplaced)) := by
  induction size generalizing order with
  | zero => cases order <;> rfl
  | succ size ih =>
    cases order with
    | nil => rfl
    | cons token rest =>
      simp only [List.map_cons, ofPolish, Token.kind_unplaced, Token.operatorOrFault_unplaced]
      split
      · simp only [toOption_bind, ih, Option.map_bind, Option.bind_map, Function.comp_def]
        rfl
      · simp only [toOption_bind, ih, Option.map_bind, Option.bind_map, Function.comp_def,
          Prod.map_fst, Prod.map_snd]
        rfl
      · by_cases hoperand : token.isOperand = true
        · have hbare : token.unplaced.isOperand = true := hoperand
          simp only [if_pos hoperand, if_pos hbare]
          rfl
        · have hbare : ¬token.unplaced.isOperand = true := hoperand
          simp only [if_neg hoperand, if_neg hbare]
          rfl

/-- The tree of tokens without places is the tree of the tokens without its
places. -/
theorem toOption_ofTokens_unplaced (tokens : List Token) :
    (ofTokens (tokens.map Token.unplaced)).toOption =
      (ofTokens tokens).toOption.map Expr.unplaced := by
  unfold ofTokens
  rw [Yard.polish_unplaced]
  cases Yard.polish tokens with
  | error fault => rfl
  | ok order =>
    have hread := toOption_ofPolish_unplaced (malformedAt tokens)
      (malformedAt (tokens.map Token.unplaced)) order.length order
    rw [Except.map, toOption_bind, toOption_bind, Except.toOption, Option.bind_some,
      Except.toOption, Option.bind_some, toOption_bind, toOption_bind, List.length_map, hread,
      Option.bind_map, Option.map_bind]
    refine congrArg _ (funext fun (expr, rest) => ?_)
    cases rest <;> rfl

end Expr

end LoopLang
