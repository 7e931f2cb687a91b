import LoopLang.Expr
import LoopLang.Fault
import LoopLang.Scope
import LoopLang.Value

/-!
# Evaluation

The value of an expression.  Evaluation relies on no check that was made before:
every operand and every result is compared with the type it has to have.

Main definitions:

- `Value.expect`: the comparison of a value with a type.
- `Expr.eval`: the value of an expression, or the fault that it meets first.
-/

namespace LoopLang

/-- The values of the declared names. -/
abbrev Store := Scope Value

/-- Requires a value to be of the given type. -/
def Value.expect (expected : Ty) (value : Value) : Except Fault Unit :=
  if value.ty = expected then .ok () else .error (.typeAssertion expected value.ty)

/-- The result type of an operator on operands of the given type. -/
def Ty.resultOrFault (ty : Ty) (operator : Operator) : Except Fault Ty :=
  match ty.result? operator with
  | some result => .ok result
  | none => .error (.missingOperation operator ty)

namespace Expr

/-- The value of a leaf: the content of a name, or what a literal denotes. -/
def evalLeaf (store : Store) (token : Token) : Except Fault Value :=
  match token.kind with
  | .identifier =>
    match store.get? token.text with
    | some value => .ok value
    | none => .error (.undeclared token.text)
  | kind =>
    match kind.literalType?.bind (Value.ofText? token.text) with
    | some value => .ok value
    | none => .error (.invalidLeaf token.text)

/-- The result of a binary operator.  The only operation without a result on
values of its type is the division by zero, which is reported at the token. -/
def applyBinary (operator : Operator) (token : Token) (left right : Value) :
    Except Fault Value := do
  right.expect left.ty
  let result ← left.ty.resultOrFault operator
  match Value.binary? left.ty operator with
  | none => .error (.missingOperation operator left.ty)
  | some operation =>
    match operation left right with
    | none => .error (.divisionByZero token.line token.column)
    | some value =>
      value.expect result
      return value

/-- The result of a unary operator. -/
def applyUnary (operator : Operator) (operand : Value) : Except Fault Value := do
  let result ← operand.ty.resultOrFault operator
  match (Value.unary? operand.ty operator).bind fun operation => operation operand with
  | none => .error (.missingOperation operator operand.ty)
  | some value =>
    value.expect result
    return value

/-- The value of an expression; operands are evaluated from left to right. -/
def eval (store : Store) : Expr → Except Fault Value
  | leaf token => evalLeaf store token
  | unary op _ operand => do
    let value ← operand.eval store
    applyUnary op value
  | binary op token left right => do
    let leftValue ← left.eval store
    let rightValue ← right.eval store
    applyBinary op token leftValue rightValue

/-- The value of an expression that has to be an integer. -/
def evalInt (store : Store) (expr : Expr) : Except Fault Int64 := do
  match ← expr.eval store with
  | .int i => return i
  | value => .error (.typeAssertion .int value.ty)

end Expr

end LoopLang
