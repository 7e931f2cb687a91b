/-!
# Operators

The fixed set of operators: seven between two operands and one in front of its
operand.  All binary operators are left associative.

Main definitions:

- `Operator.lexeme`, `Operator.ofLexeme?`: the spelling of an operator, and
  the operator of a spelling.
- `Operator.precedence`: how tightly an operator binds.
-/

namespace LoopLang

/-- An operator of the language. -/
inductive Operator where
  | addition
  | subtraction
  | multiplication
  | division
  | and
  | equality
  | less
  | not
deriving DecidableEq, Repr

namespace Operator

/-- Every operator, in the order of the declaration. -/
def all : List Operator :=
  [addition, subtraction, multiplication, division, and, equality, less, not]

/-- The spelling of an operator. -/
def lexeme : Operator → String
  | addition => "+"
  | subtraction => "-"
  | multiplication => "*"
  | division => "/"
  | and => "&"
  | equality => "="
  | less => "<"
  | not => "!"

/-- The operator with the given spelling. -/
def ofLexeme? (text : String) : Option Operator :=
  all.find? fun op => op.lexeme == text

/-- A higher number binds tighter. -/
def precedence : Operator → Nat
  | not => 1
  | equality | less => 2
  | and => 3
  | addition | subtraction => 4
  | multiplication | division => 5

/-- Whether the operator stands in front of a single operand. -/
def isUnary : Operator → Bool
  | not => true
  | _ => false

/-- Only the spelling of an operator is read as that operator. -/
theorem lexeme_of_ofLexeme? {text : String} {op : Operator}
    (hfound : ofLexeme? text = some op) : op.lexeme = text := by
  have hspelled := List.find?_some hfound
  simpa using hspelled

end Operator

end LoopLang
