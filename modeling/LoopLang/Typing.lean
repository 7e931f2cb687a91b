import LoopLang.Diagnostic
import LoopLang.Scope
import LoopLang.Stmt

/-!
# Typing

The check of a program that has been read: every name is declared before it is
used and only once, the variable of a loop is not assigned in the loop, and
operators and assignments get operands of the right types.  Declarations are
entered as they are met, those of a loop's body included.

Main definitions:

- `Expr.infer`: the type of an expression and the mistakes in it.
- `Stmt.check`, `Program.check`: the mistakes in statements, and the scope after
  them.
- `Program.mistakes`: the mistakes in a whole program.
-/

namespace LoopLang

/-- The names a checker knows.  They have types and no content. -/
abbrev TypeScope := Scope Unit

/-- The result type of an operator, or the mistake that its operands do not
support it. -/
def Ty.applied (operator : Operator) (token : Token) (ty : Ty) : Option Ty × List Diagnostic :=
  match ty.result? operator with
  | some result => (some result, [])
  | none => (none, [.about token (.notApplicable operator ty)])

namespace Expr

/-- The type of an expression and the mistakes in it.  There is no type where
there is a mistake, and nothing is said about an operator whose operands have no
type. -/
def infer (scope : TypeScope) : Expr → Option Ty × List Diagnostic
  | leaf token =>
    match token.kind with
    | .identifier =>
      match scope.ty? token.text with
      | some ty => (some ty, [])
      | none => (none, [.about token (.undeclared token.text)])
    | kind => (kind.literalType?, [])
  | unary op token operand =>
    match operand.infer scope with
    | (some ty, mistakes) =>
      let (result, more) := ty.applied op token
      (result, mistakes ++ more)
    | (none, mistakes) => (none, mistakes)
  | binary op token left right =>
    match left.infer scope, right.infer scope with
    | (some leftTy, before), (some rightTy, after) =>
      if leftTy = rightTy then
        let (result, more) := leftTy.applied op token
        (result, before ++ after ++ more)
      else
        (none, before ++ after ++ [.about token (.operandMismatch leftTy rightTy)])
    | (_, before), (_, after) => (none, before ++ after)

/-- The mistakes in an expression that has to be of the given type. -/
def require (scope : TypeScope) (expected : Ty) (expr : Expr) : List Diagnostic :=
  match expr.infer scope with
  | (some received, mistakes) =>
    if received = expected then mistakes
    else mistakes ++ [.about expr.head (.typeMismatch expected received)]
  | (none, mistakes) => mistakes

end Expr

/-- The type of a name that is to be assigned, or the mistake that it cannot
be. -/
def Scope.assignable (scope : TypeScope) (name : Token) : Except Diagnostic Ty :=
  match scope.target name.text with
  | .ok ty => .ok ty
  | .error .locked => .error (.about name (.locked name.text))
  | .error _ => .error (.about name (.undeclared name.text))

mutual

/-- Checks a statement.  The body of a loop is not checked if its variable
cannot be used. -/
def Stmt.check : Stmt → TypeScope → TypeScope × List Diagnostic
  | .declare name _ ty initial, scope =>
    match scope.declare name.text ty () with
    | .error _ => (scope, [.about name (.alreadyDeclared name.text)])
    | .ok scope =>
      match initial with
      | none => (scope, [])
      | some value => (scope, value.require scope ty)
  | .assign name value, scope =>
    match scope.assignable name with
    | .error mistake => (scope, [mistake])
    | .ok ty => (scope, value.require scope ty)
  | .loop counter first last body, scope =>
    match scope.assignable counter with
    | .error mistake => (scope, [mistake])
    | .ok ty =>
      if ty = .int then
        let locked := scope.lock counter.text
        let bounds := first.require locked .int ++ last.require locked .int
        let (after, mistakes) := Program.check body locked
        (after.unlock, bounds ++ mistakes)
      else
        (scope, [.about counter (.typeMismatch .int ty)])
  | .print value, scope => (scope, (value.infer scope).2)
  | .read name, scope =>
    match scope.assignable name with
    | .error mistake => (scope, [mistake])
    | .ok _ => (scope, [])
  | .assert _ condition _, scope => (scope, condition.require scope .bool)

/-- Checks statements one after the other. -/
def Program.check : List Stmt → TypeScope → TypeScope × List Diagnostic
  | [], scope => (scope, [])
  | stmt :: rest, scope =>
    let (scope, mistakes) := stmt.check scope
    let (scope, more) := Program.check rest scope
    (scope, mistakes ++ more)

end

/-- The mistakes in a whole program, in source order. -/
def Program.mistakes (program : Program) : List Diagnostic :=
  (Program.check program .empty).2

end LoopLang
