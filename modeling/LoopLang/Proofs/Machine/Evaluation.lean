import LoopLang.Machine.Eval
import LoopLang.Proofs.Typing.Rules

/-!
# Evaluation of typed expressions

An expression that follows the typing rules has a value of its type, unless a
division by zero or a name without a value comes in between.

Main definitions:

- `Store.Holds`: the store has values of the known types, except for some names.
- `Expr.Yields`: what the evaluation of a typed expression can give.

Main results:

- Theorem `Value.exists_binary?`: an operation gives values of the result type.
- Theorem `Expr.HasType.eval`: the evaluation of a typed expression.
-/

namespace LoopLang

/-! ## Operations -/

namespace Value

/-- An operation on integers gives values of the type that it was made for. -/
theorem ty_onInts {f : Int64 → Int64 → Option Value} {result : Ty}
    (hf : ∀ a b value, f a b = some value → value.ty = result) {left right value : Value}
    (hvalue : onInts f left right = some value) : value.ty = result := by
  cases left <;> cases right <;> first | exact hf _ _ _ hvalue | cases hvalue

/-- What an operation on strings gives has the type of its results. -/
theorem ty_onStrings {f : String → String → Value} {result : Ty}
    (hf : ∀ a b, (f a b).ty = result) {left right value : Value}
    (hvalue : onStrings f left right = some value) : value.ty = result := by
  cases left <;> cases right <;> cases hvalue
  exact hf _ _

theorem ty_onBools {f : Bool → Bool → Value} {result : Ty} (hf : ∀ a b, (f a b).ty = result)
    {left right value : Value} (hvalue : onBools f left right = some value) :
    value.ty = result := by
  cases left <;> cases right <;> cases hvalue
  exact hf _ _

/-- A quotient is an integer. -/
theorem ty_quotient {a b : Int64} {value : Value} (hvalue : quotient a b = some value) :
    value.ty = .int := by
  unfold quotient at hvalue
  split at hvalue
  · cases hvalue
  · cases hvalue
    rfl

/-- Every operator that a type supports between two operands has an operation,
and this gives values of the result type. -/
theorem exists_binary? {ty result : Ty} {op : Operator} (hop : op ≠ .not)
    (hresult : ty.result? op = some result) :
    ∃ operation, binary? ty op = some operation ∧
      ∀ left right value, operation left right = some value → value.ty = result := by
  cases ty with
  | int =>
    cases op with
    | and | not => cases hresult
    | division =>
      cases hresult
      exact ⟨_, rfl, fun _ _ _ hvalue => ty_onInts (fun _ _ _ => ty_quotient) hvalue⟩
    | addition | subtraction | multiplication | equality | less =>
      cases hresult
      refine ⟨_, rfl, fun _ _ _ hvalue => ty_onInts ?_ hvalue⟩
      intro a b value hsome
      cases hsome
      rfl
  | string =>
    cases op with
    | subtraction | multiplication | division | and | less | not => cases hresult
    | addition | equality =>
      cases hresult
      refine ⟨_, rfl, fun _ _ _ hvalue => ty_onStrings ?_ hvalue⟩
      intro a b
      rfl
  | bool =>
    cases op with
    | addition | subtraction | multiplication | division | less => cases hresult
    | not => exact absurd rfl hop
    | and | equality =>
      cases hresult
      refine ⟨_, rfl, fun _ _ _ hvalue => ty_onBools ?_ hvalue⟩
      intro a b
      rfl

end Value

/-! ## Expressions -/

/-- The store has a value of its type for every known name, except for missing
ones. -/
def Store.Holds (missing : String → Prop) (scope : TypeScope) (store : Store) : Prop :=
  ∀ name ty, scope.ty? name = some ty →
    (∃ value, store.get? name = some value ∧ value.ty = ty) ∨
      (store.get? name = none ∧ missing name)

namespace Expr

/-- A value of the type, a division by zero, or a missing name. -/
def Yields (missing : String → Prop) (ty : Ty) : Except Fault Value → Prop
  | .ok value => value.ty = ty
  | .error (.divisionByZero _ _) => True
  | .error (.undeclared name) => missing name
  | .error _ => False

variable {missing : String → Prop}

/-- What a computation on the value of an operand yields. -/
theorem Yields.bind {ty result : Ty} {answer : Except Fault Value}
    {next : Value → Except Fault Value} (hanswer : Yields missing ty answer)
    (hnext : ∀ value, value.ty = ty → Yields missing result (next value)) :
    Yields missing result (answer >>= next) := by
  cases answer with
  | ok value => exact hnext value hanswer
  | error fault => cases fault <;> exact hanswer

/-- A binary operator that fits the type of both operands has a value of its result type,
unless it divides by zero. -/
theorem yields_applyBinary {op : Operator} {token : Token} {left right : Value} {result : Ty}
    (hop : op ≠ .not) (hsame : right.ty = left.ty) (hresult : left.ty.result? op = some result) :
    Yields missing result (applyBinary op token left right) := by
  rcases Value.exists_binary? hop hresult with ⟨operation, hoperation, hty⟩
  have hexpect : right.expect left.ty = .ok () := by rw [Value.expect, if_pos hsame]
  have hresultOrFault : left.ty.resultOrFault op = .ok result := by
    rw [Ty.resultOrFault, hresult]
  unfold applyBinary
  rw [hexpect, hresultOrFault, hoperation]
  cases hvalue : operation left right with
  | none =>
    simp only [hvalue, bind, Except.bind]
    trivial
  | some value =>
    have hvalueTy : value.ty = result := hty left right value hvalue
    simp only [hvalue, bind, Except.bind, Value.expect, if_pos hvalueTy]
    exact hvalueTy

/-- A Boolean has a negation. -/
theorem yields_applyUnary {operand : Value} (hty : operand.ty = .bool) :
    Yields missing .bool (applyUnary .not operand) := by
  cases operand with
  | bool b => exact rfl
  | int | string => cases hty

/-- A typed expression yields a value of its type. -/
theorem HasType.eval {scope : TypeScope} {store : Store} {expr : Expr} {ty : Ty}
    (htype : HasType scope expr ty) (hholds : store.Holds missing scope) :
    Yields missing ty (expr.eval store) := by
  induction htype with
  | @identifier token ty hkind hty =>
    unfold Expr.eval evalLeaf
    rw [hkind]
    rcases hholds token.text ty hty with ⟨value, hvalue, hvalueTy⟩ | ⟨hnone, hmissing⟩
    · simp only [hvalue]
      exact hvalueTy
    · simp only [hnone]
      exact hmissing
  | @literal token ty value hty hvalue =>
    unfold Expr.eval evalLeaf
    split
    · next hkind =>
      rw [hkind] at hty
      cases hty
    · rw [hty, Option.bind_some, hvalue]
      exact Value.ty_of_ofText? hvalue
  | unary _ ih =>
    unfold Expr.eval
    exact ih.bind fun _ hvalue => yields_applyUnary hvalue
  | @binary op token left right ty result hop hresult _ _ ihleft ihright =>
    unfold Expr.eval
    refine ihleft.bind fun leftValue hleft => ihright.bind fun rightValue hright => ?_
    rw [← hleft] at hresult hright
    exact yields_applyBinary hop hright hresult

/-- A typed bound of a loop yields an integer. -/
theorem HasType.evalInt {scope : TypeScope} {store : Store} {expr : Expr}
    (htype : HasType scope expr .int) (hholds : store.Holds missing scope) {fault : Fault}
    (hfault : expr.evalInt store = .error fault) : Yields missing .int (.error fault) := by
  have hyields := htype.eval hholds
  unfold Expr.evalInt at hfault
  cases hvalue : expr.eval store with
  | error other =>
    rw [hvalue] at hfault hyields
    cases hfault
    exact hyields
  | ok value =>
    rw [hvalue] at hfault hyields
    cases value with
    | int i => cases hfault
    | string | bool => cases hyields

end Expr

end LoopLang
