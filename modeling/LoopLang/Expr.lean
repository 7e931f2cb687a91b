import LoopLang.Text.Quoted
import LoopLang.Token

/-!
# Expressions

Trees of operators over identifiers and literals.  Every node keeps the token it
came from, so that a message can point at it.

Main definitions:

- `Expr`: the trees.
- `Expr.head`: the token a message about the expression is anchored on.
- `Expr.text`: the expression as it is printed, every compound operand between
  brackets.
-/

namespace LoopLang

/-- An expression. -/
inductive Expr where
  /-- An identifier or a literal. -/
  | leaf (token : Token)
  /-- An operator in front of its operand. -/
  | unary (operator : Operator) (token : Token) (operand : Expr)
  /-- An operator between its operands. -/
  | binary (operator : Operator) (token : Token) (left right : Expr)
deriving DecidableEq, Repr

namespace Expr

/-- The token of the root. -/
def head : Expr → Token
  | leaf token => token
  | unary _ token _ => token
  | binary _ token _ _ => token

/-- Whether the expression is a single token. -/
def isLeaf : Expr → Bool
  | leaf _ => true
  | _ => false

/-- The text of an operand: brackets go around it unless it is a leaf. -/
def asOperand (operand : Expr) (text : String) : String :=
  if operand.isLeaf then text else "(" ++ text ++ ")"

/-- The expression as it is printed.  A string literal is quoted; every other
leaf is shown as it was written. -/
def text : Expr → String
  | leaf token => if token.kind = .stringLiteral then Quoted.string token.text else token.text
  | unary op _ operand => op.lexeme ++ operand.asOperand operand.text
  | binary op _ left right =>
    left.asOperand left.text ++ " " ++ op.lexeme ++ " " ++ right.asOperand right.text

end Expr

end LoopLang
