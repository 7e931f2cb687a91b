import LoopLang.Ty
import LoopLang.Text.Numeral
import LoopLang.Text.Quoted

/-!
# Faults

The conditions that end the work on a program outright.  A program that was
read and checked without a complaint can meet only those that depend on its
input, its output, its arithmetic, or a declaration that was never reached.

Main definitions:

- `Fault`: the cause.
- `Fault.message`: its wording.
-/

namespace LoopLang

/-- Why the work on a program ended. -/
inductive Fault where
  /-- A token was taken from an empty stream. -/
  | noMoreTokens
  /-- The brackets of an expression do not pair up. -/
  | unbalancedBrackets
  /-- An operator token has a spelling that no operator has. -/
  | unknownOperator (lexeme : String)
  /-- The operators of an expression do not have the operands they need. -/
  | malformedExpression (line column : Int)
  /-- A token that is no operand stands where an operand belongs. -/
  | invalidLeaf (text : String)
  /-- A declaration names no type. -/
  | unknownType (lexeme : String)
  /-- A variable was declared a second time outside of a loop. -/
  | redeclared (name : String)
  /-- A variable was used and had not been declared. -/
  | undeclared (name : String)
  /-- The variable of a running loop was assigned. -/
  | locked (name : String)
  /-- A value has another type than the one that is required. -/
  | typeAssertion (expected received : Ty)
  /-- An operator was applied to values of a type that does not support it. -/
  | missingOperation (operator : Operator) (ty : Ty)
  /-- A division by zero, at the place of its operator. -/
  | divisionByZero (line column : Int)
  /-- The input ended where a word was wanted. -/
  | inputExhausted
  /-- A word of the input does not denote a value of the wanted type. -/
  | invalidInput (word : String) (ty : Ty)
  /-- The input or the output failed. -/
  | stream (reason : String)
deriving DecidableEq, Repr

/-- The text shown for a fault. -/
def Fault.message : Fault → String
  | noMoreTokens => "scanner has no more tokens"
  | unbalancedBrackets => "parenthesis mismatch in expression"
  | unknownOperator lexeme => "unknown operator " ++ Quoted.string lexeme
  | malformedExpression line column =>
    "malformed expression near line " ++ Numeral.ofInt line ++ " column " ++ Numeral.ofInt column
  | invalidLeaf text => "unexpected token " ++ Quoted.string text ++ " in expression leaf"
  | unknownType lexeme => "unknown type " ++ Quoted.string lexeme
  | redeclared name => "variable " ++ Quoted.string name ++ " declared twice"
  | undeclared name => "variable " ++ Quoted.string name ++ " used before declaration"
  | locked name => "variable " ++ Quoted.string name ++ " assigned while locked by a for loop"
  | typeAssertion expected received =>
    "type assertion failed: expected " ++ expected.name ++ ", found " ++ received.name
  | missingOperation op ty =>
    "no implementation of operator " ++ op.lexeme ++ " for type " ++ ty.name
  | divisionByZero line column =>
    "division by zero on line " ++ Numeral.ofInt line ++ " column " ++ Numeral.ofInt column
  | inputExhausted => "the input closed unexpectedly"
  | invalidInput word ty => "cannot read " ++ Quoted.string word ++ " as " ++ ty.name
  | stream reason => "i/o failure: " ++ reason

end LoopLang
