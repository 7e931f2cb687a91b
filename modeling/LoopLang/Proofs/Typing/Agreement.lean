import LoopLang.Proofs.Machine.Evaluation

/-!
# Agreement of inference and evaluation

Inference looks at the types of names, evaluation at their values.  Over a store
whose values are of the inferred types, the two agree in both directions: what
has a type evaluates to a value of that type or divides by zero, and what has no
type does not evaluate.  The typing rules stand between the two functions.

Main definitions:

- `Store.Agrees`: the store and the scope know the same names, with the same
  types, and the values are of these types.

Main results:

- Theorem `Expr.hasType_iff_infer`: inference finds the type that the rules give.
- Theorem `Expr.hasType_of_eval`: the value of an expression is of the type that
  the rules give.
- Theorem `Expr.infer_agrees_with_eval`: inference and evaluation agree.
-/

namespace LoopLang

namespace Expr

/-! ## Inference and the rules -/

/-- The type of a node with one operand. -/
theorem infer_unary_fst (scope : TypeScope) (op : Operator) (token : Token) (operand : Expr) :
    ((Expr.unary op token operand).infer scope).1 =
      (operand.infer scope).1.bind fun ty => ty.result? op := by
  rw [infer]
  unfold Ty.applied
  rcases operand.infer scope with ⟨found, mistakes⟩
  cases found with
  | none => rfl
  | some ty => cases hresult : ty.result? op <;> simp [hresult]

/-- The type of a node with two operands, which have to be of one type. -/
theorem infer_binary_fst (scope : TypeScope) (op : Operator) (token : Token) (left right : Expr) :
    ((Expr.binary op token left right).infer scope).1 =
      (left.infer scope).1.bind fun leftTy => (right.infer scope).1.bind fun rightTy =>
        if leftTy = rightTy then leftTy.result? op else none := by
  rw [infer]
  unfold Ty.applied
  rcases left.infer scope with ⟨leftFound, before⟩
  rcases right.infer scope with ⟨rightFound, after⟩
  cases leftFound with
  | none => rfl
  | some leftTy =>
    cases rightFound with
    | none => rfl
    | some rightTy =>
      by_cases hsame : leftTy = rightTy
      · subst hsame
        cases hresult : leftTy.result? op <;> simp [hresult]
      · simp [hsame]

/-- The type that the rules give is found. -/
theorem HasType.infer_fst {scope : TypeScope} {expr : Expr} {ty : Ty}
    (htype : HasType scope expr ty) : (expr.infer scope).1 = some ty := by
  induction htype with
  | @identifier token ty hkind hty =>
    unfold infer
    rw [hkind]
    simp only [hty]
  | @literal token ty value hty hvalue =>
    unfold infer
    split
    · next hkind =>
      rw [hkind] at hty
      cases hty
    · exact hty
  | unary _ ih =>
    rw [infer_unary_fst, ih]
    rfl
  | binary _ hresult _ _ ihleft ihright =>
    rw [infer_binary_fst, ihleft, ihright]
    simpa using hresult

/-- Inference finds the type that the rules give. -/
theorem hasType_iff_infer {scope : TypeScope} {expr : Expr} (hshaped : expr.Shaped) {ty : Ty} :
    HasType scope expr ty ↔ (expr.infer scope).1 = some ty := by
  refine ⟨HasType.infer_fst, ?_⟩
  induction hshaped generalizing ty with
  | @identifier token hkind =>
    intro hinfer
    unfold infer at hinfer
    rw [hkind] at hinfer
    cases hty : scope.ty? token.text with
    | none => simp [hty] at hinfer
    | some found =>
      have hsame : found = ty := by simpa [hty] using hinfer
      rw [← hsame]
      exact .identifier hkind hty
  | @literal token found value hty hvalue =>
    intro hinfer
    have hrule : HasType scope (.leaf token) found := .literal hty hvalue
    cases hrule.infer_fst.symm.trans hinfer
    exact hrule
  | unary _ ih =>
    intro hinfer
    rw [infer_unary_fst, Option.bind_eq_some_iff] at hinfer
    rcases hinfer with ⟨operandTy, hoperand, hresult⟩
    rcases result?_not hresult with ⟨rfl, rfl⟩
    exact .unary (ih hoperand)
  | binary hop _ _ ihleft ihright =>
    intro hinfer
    rw [infer_binary_fst, Option.bind_eq_some_iff] at hinfer
    rcases hinfer with ⟨leftTy, hleft, hrest⟩
    rcases Option.bind_eq_some_iff.1 hrest with ⟨rightTy, hright, hresult⟩
    by_cases hsame : leftTy = rightTy
    · subst hsame
      rw [if_pos rfl] at hresult
      exact .binary hop hresult (ihleft hleft) (ihright hright)
    · rw [if_neg hsame] at hresult
      cases hresult

end Expr

/-! ## Evaluation and the rules -/

/-- The store and the scope declare the same names with the same types, and the
store has values of these types. -/
structure Store.Agrees (scope : TypeScope) (store : Store) : Prop where
  ty?_eq : ∀ name, store.ty? name = scope.ty? name
  typed : ∀ name entry, store.find? name = some entry → entry.content.ty = entry.ty

/-- A name has a value of its type exactly if it has the type. -/
theorem Store.Agrees.ty?_eq_map {scope : TypeScope} {store : Store} (hagrees : store.Agrees scope)
    (name : String) : scope.ty? name = (store.get? name).map Value.ty := by
  rw [← hagrees.ty?_eq name, Scope.ty?, Scope.get?]
  cases hentry : store.find? name with
  | none => rfl
  | some entry => simp [hagrees.typed name entry hentry]

/-- No known name is missing in a store that agrees with the scope. -/
theorem Store.Agrees.holds {scope : TypeScope} {store : Store} (hagrees : store.Agrees scope) :
    store.Holds (fun _ => False) scope := by
  intro name ty hty
  rw [hagrees.ty?_eq_map, Option.map_eq_some_iff] at hty
  exact .inl hty

namespace Expr

/-- A computation on a value that succeeds has got the value. -/
theorem exists_of_bind_eq_ok {α β : Type} {answer : Except Fault α} {next : α → Except Fault β}
    {b : β} (hbind : (answer >>= next) = .ok b) : ∃ a, answer = .ok a ∧ next a = .ok b := by
  cases answer with
  | error fault => cases hbind
  | ok a => exact ⟨a, rfl, hbind⟩

theorem ty_of_expect {value : Value} {ty : Ty} (hexpect : value.expect ty = .ok ()) :
    value.ty = ty := by
  unfold Value.expect at hexpect
  split at hexpect
  · next hty => exact hty
  · cases hexpect

/-- An operator that is applied in a run is supported by the type. -/
theorem result?_of_resultOrFault {ty result : Ty} {op : Operator}
    (hresult : ty.resultOrFault op = .ok result) : ty.result? op = some result := by
  unfold Ty.resultOrFault at hresult
  split at hresult
  · next hfound =>
    cases hresult
    exact hfound
  · cases hresult

/-- An operator that has a result between two values is applied to values of one
type that supports it. -/
theorem ty_of_applyBinary {op : Operator} {token : Token} {left right value : Value}
    (hvalue : applyBinary op token left right = .ok value) :
    right.ty = left.ty ∧ left.ty.result? op = some value.ty := by
  rcases exists_of_bind_eq_ok hvalue with ⟨_, hexpect, hvalue⟩
  rcases exists_of_bind_eq_ok hvalue with ⟨result, hresult, hvalue⟩
  split at hvalue
  · cases hvalue
  split at hvalue
  · cases hvalue
  rcases exists_of_bind_eq_ok hvalue with ⟨_, hty, hsame⟩
  cases hsame
  refine ⟨ty_of_expect hexpect, ?_⟩
  rw [ty_of_expect hty]
  exact result?_of_resultOrFault hresult

/-- The value of a prefix operator has the type that the table gives. -/
theorem ty_of_applyUnary {op : Operator} {operand value : Value}
    (hvalue : applyUnary op operand = .ok value) :
    operand.ty.result? op = some value.ty := by
  rcases exists_of_bind_eq_ok hvalue with ⟨result, hresult, hvalue⟩
  split at hvalue
  · cases hvalue
  rcases exists_of_bind_eq_ok hvalue with ⟨_, hty, hsame⟩
  cases hsame
  rw [ty_of_expect hty]
  exact result?_of_resultOrFault hresult

/-- The value of an expression is of the type that the rules give. -/
theorem hasType_of_eval {scope : TypeScope} {store : Store} (hagrees : store.Agrees scope)
    {expr : Expr} (hshaped : expr.Shaped) {value : Value} (hvalue : expr.eval store = .ok value) :
    HasType scope expr value.ty := by
  induction hshaped generalizing value with
  | @identifier token hkind =>
    unfold Expr.eval evalLeaf at hvalue
    rw [hkind] at hvalue
    refine .identifier hkind ?_
    rw [hagrees.ty?_eq_map]
    cases hfound : store.get? token.text with
    | none => simp [hfound] at hvalue
    | some found =>
      have hsame : found = value := by simpa [hfound] using hvalue
      rw [hsame]
      rfl
  | @literal token ty known hty hknown =>
    have hrule : HasType scope (.leaf token) ty := .literal hty hknown
    have hyields := hrule.eval hagrees.holds
    rw [hvalue] at hyields
    have hsame : value.ty = ty := hyields
    rw [hsame]
    exact hrule
  | unary _ ih =>
    unfold Expr.eval at hvalue
    rcases exists_of_bind_eq_ok hvalue with ⟨operand, hoperand, happly⟩
    have hresult := ty_of_applyUnary happly
    rcases result?_not hresult with ⟨hoperandTy, hty⟩
    have hrule := ih hoperand
    rw [hoperandTy] at hrule
    rw [hty]
    exact .unary hrule
  | binary hop _ _ ihleft ihright =>
    unfold Expr.eval at hvalue
    rcases exists_of_bind_eq_ok hvalue with ⟨left, hleft, hrest⟩
    rcases exists_of_bind_eq_ok hrest with ⟨right, hright, happly⟩
    rcases ty_of_applyBinary happly with ⟨hsame, hresult⟩
    have hrightRule := ihright hright
    rw [hsame] at hrightRule
    exact .binary hop hresult (ihleft hleft) hrightRule

/-! ## Both directions -/

/-- An expression for which inference finds a type evaluates to a value of this
type or divides by zero, and an expression for which it finds none does not
evaluate. -/
theorem infer_agrees_with_eval {expr : Expr} (hshaped : expr.Shaped) {scope : TypeScope}
    {store : Store} (hagrees : store.Agrees scope) :
    (∀ ty, (expr.infer scope).1 = some ty →
      (∃ value, expr.eval store = .ok value ∧ value.ty = ty) ∨
        ∃ line column, expr.eval store = .error (.divisionByZero line column)) ∧
    ((expr.infer scope).1 = none → ∃ fault, expr.eval store = .error fault) := by
  constructor
  · intro ty hty
    have hyields := ((hasType_iff_infer hshaped).2 hty).eval hagrees.holds
    cases heval : expr.eval store with
    | ok value =>
      rw [heval] at hyields
      exact .inl ⟨value, rfl, hyields⟩
    | error fault =>
      rw [heval] at hyields
      cases fault with
      | divisionByZero line column => exact .inr ⟨line, column, rfl⟩
      | _ => exact hyields.elim
  · intro hnone
    cases heval : expr.eval store with
    | error fault => exact ⟨fault, rfl⟩
    | ok value =>
      have hfound := (hasType_of_eval hagrees hshaped heval).infer_fst
      rw [hnone] at hfound
      cases hfound

/-- A quotient by the variable `n`. -/
def quotientByName : Expr :=
  .binary .division ⟨.binaryOperator, "/", 1, 4, 3, 4⟩ (.leaf ⟨.integerLiteral, "10", 1, 1, 0, 2⟩)
    (.leaf ⟨.identifier, "n", 1, 6, 5, 6⟩)

/-- A sum of that quotient and a string, which has no type. -/
def untypedSum : Expr :=
  .binary .addition ⟨.binaryOperator, "+", 1, 8, 7, 8⟩ quotientByName
    (.leaf ⟨.stringLiteral, "a", 1, 10, 9, 12⟩)

/-- Where `n` is zero, the quotient has a type and divides by zero, and this fault
comes before the one of the untyped sum. -/
theorem infer_agrees_with_eval_zero_divisor :
    let scope : TypeScope := ⟨[("n", ⟨.int, ()⟩)], []⟩
    let store : Store := ⟨[("n", ⟨.int, .int 0⟩)], []⟩
    untypedSum.Shaped ∧ store.Agrees scope ∧
      ((quotientByName.infer scope).1 = some .int ∧
        ((∃ value, quotientByName.eval store = .ok value ∧ value.ty = .int) ∨
          ∃ line column, quotientByName.eval store = .error (.divisionByZero line column))) ∧
      (untypedSum.infer scope).1 = none ∧ ∃ fault, untypedSum.eval store = .error fault := by
  intro scope store
  have hten : (Expr.leaf ⟨.integerLiteral, "10", 1, 1, 0, 2⟩).Shaped :=
    .literal rfl (by decide : Value.ofText? "10" .int = some (.int 10))
  have hquotient : quotientByName.Shaped := .binary (by decide) hten (.identifier rfl)
  have hword : Value.ofText? "a" .string = some (.string "a") := rfl
  have hsum : untypedSum.Shaped := .binary (by decide) hquotient (.literal rfl hword)
  have hagrees : store.Agrees scope := by
    constructor
    · intro name
      cases hname : name == "n" <;>
        simp [store, scope, Scope.ty?, Scope.find?, List.lookup_cons, hname]
    · intro name entry hentry
      cases hname : name == "n" <;>
        simp only [store, Scope.find?, List.lookup_cons, hname] at hentry <;> cases hentry
      rfl
  have htyped : (quotientByName.infer scope).1 = some .int := by decide
  have huntyped : (untypedSum.infer scope).1 = none := by decide
  exact ⟨hsum, hagrees, ⟨htyped, (infer_agrees_with_eval hquotient hagrees).1 .int htyped⟩,
    huntyped, (infer_agrees_with_eval hsum hagrees).2 huntyped⟩

end Expr

end LoopLang
