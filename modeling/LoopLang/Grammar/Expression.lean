import LoopLang.Expr.Precedence
import LoopLang.Grammar.Cursor

/-!
# Reading expressions

Reading an expression collects its tokens and checks their order; the tree is
made from the collected tokens.

Main definitions:

- `expressionTokens`: the tokens of the expression that begins at the cursor.
- `expression`: its tree.
-/

namespace LoopLang

namespace Grammar

/-- Takes all unary operators that come next. -/
def unaryOperators : Parse (List Token) := fun cursor =>
  let isUnary := fun token : Token => token.kind == .unaryOperator
  .ok (cursor.pending.takeWhile isUnary) (cursor.takeWhile isUnary)

/-- Collects the tokens of an expression.  Every operand takes a token, so as
many operands as there are tokens to read are enough; at the end of the source
there is only the complaint about the missing operand. -/
def expressionTokensWithin : Nat → Parse (List Token)
  | 0 => do
    let operand ← expect operandFirst expressionFollow
    return [operand]
  | bound + 1 => do
    let operators ← unaryOperators
    let operand ← expect operandFirst expressionFollow
    let group ←
      if operand.kind = .leftBracket then do
        let inner ← expressionTokensWithin bound
        let close ← expect [.rightBracket] expressionFollow
        pure (inner ++ [close])
      else pure []
    let term := operators ++ operand :: group
    if ← accept [.binaryOperator] then
      let operator := (← get).accepted
      let terms ← expressionTokensWithin bound
      return term ++ operator :: terms
    else
      return term

/-- Collects the tokens of the expression that begins at the cursor. -/
def expressionTokens : Parse (List Token) := do
  expressionTokensWithin (← get).pending.length

/-- Reads the expression that begins at the cursor. -/
def expression : Parse Expr := do
  let tokens ← expressionTokens
  match Expr.ofTokens tokens with
  | .ok expr => return expr
  | .error fault => throw (.fatal fault)

end Grammar

end LoopLang
