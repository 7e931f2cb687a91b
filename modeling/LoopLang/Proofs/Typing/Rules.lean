import LoopLang.Proofs.Expr.Shape
import LoopLang.Proofs.Scope.Growth
import LoopLang.Typing

/-!
# Typing rules

The programs without mistakes, said by rules: one for each form of expression
and statement.  A rule for statements relates the names that are known before
and after the statement.

Main definitions:

- `Expr.HasType`: the typing rules of expressions.
- `Stmt.Typed`, `Program.Typed`: the typing rules of statements.

Main results:

- Theorem `Expr.hasType_of_require`: an expression without mistakes has the type
  that is required.
- Theorem `Program.typed_of_check`: a program without mistakes follows the rules.
- Theorem `Program.check_grows`: checking keeps the names, their types and the locks.
- Theorem `Program.Typed.grows`, `Program.Typed.isDeclared`: the names after a
  program are those before it and those that it declares.
-/

namespace LoopLang

namespace Expr

/-! ## Expressions -/

/-- The typing rules of expressions. -/
inductive HasType (scope : TypeScope) : Expr → Ty → Prop where
  | identifier {token : Token} {ty : Ty} (hkind : token.kind = .identifier)
      (hty : scope.ty? token.text = some ty) : HasType scope (.leaf token) ty
  | literal {token : Token} {ty : Ty} {value : Value} (hty : token.kind.literalType? = some ty)
      (hvalue : Value.ofText? token.text ty = some value) : HasType scope (.leaf token) ty
  | unary {token : Token} {operand : Expr} (hoperand : HasType scope operand .bool) :
      HasType scope (.unary .not token operand) .bool
  | binary {op : Operator} {token : Token} {left right : Expr} {ty result : Ty} (hop : op ≠ .not)
      (hresult : ty.result? op = some result) (hleft : HasType scope left ty)
      (hright : HasType scope right ty) : HasType scope (.binary op token left right) result

/-- Negation is an operator of the Booleans only. -/
theorem result?_not {ty result : Ty} (hresult : ty.result? .not = some result) :
    ty = .bool ∧ result = .bool := by
  cases ty <;> cases hresult
  exact ⟨rfl, rfl⟩

/-- A typed expression stays typed if more names are known. -/
theorem HasType.mono {scope other : TypeScope} {expr : Expr} {ty : Ty}
    (htype : HasType scope expr ty)
    (hsub : ∀ name ty, scope.ty? name = some ty → other.ty? name = some ty) :
    HasType other expr ty := by
  induction htype with
  | identifier hkind hty => exact .identifier hkind (hsub _ _ hty)
  | literal hty hvalue => exact .literal hty hvalue
  | unary _ ih => exact .unary ih
  | binary hop hresult _ _ ihleft ihright => exact .binary hop hresult ihleft ihright

/-- An operator that is applied without a mistake has a result. -/
theorem applied_eq_nil {op : Operator} {token : Token} {ty : Ty}
    (hquiet : (ty.applied op token).2 = []) :
    ∃ result, ty.result? op = some result ∧ ty.applied op token = (some result, []) := by
  unfold Ty.applied at hquiet ⊢
  cases hresult : ty.result? op with
  | none =>
    rw [hresult] at hquiet
    cases hquiet
  | some result => exact ⟨result, rfl, rfl⟩

/-- The mistakes in an operand are mistakes in the whole. -/
theorem infer_operand_eq_nil {scope : TypeScope} {op : Operator} {token : Token} {operand : Expr}
    (hquiet : ((Expr.unary op token operand).infer scope).2 = []) :
    (operand.infer scope).2 = [] := by
  unfold infer at hquiet
  rcases hfound : operand.infer scope with ⟨found, mistakes⟩
  rw [hfound] at hquiet
  cases found with
  | none => exact hquiet
  | some ty => exact (List.append_eq_nil_iff.1 hquiet).1

/-- A binary node without mistakes has operands without mistakes. -/
theorem infer_operands_eq_nil {scope : TypeScope} {op : Operator} {token : Token}
    {left right : Expr} (hquiet : ((Expr.binary op token left right).infer scope).2 = []) :
    (left.infer scope).2 = [] ∧ (right.infer scope).2 = [] := by
  unfold infer at hquiet
  rcases hleft : left.infer scope with ⟨leftFound, before⟩
  rcases hright : right.infer scope with ⟨rightFound, after⟩
  rw [hleft, hright] at hquiet
  cases leftFound with
  | none => exact List.append_eq_nil_iff.1 hquiet
  | some leftTy =>
    cases rightFound with
    | none => exact List.append_eq_nil_iff.1 hquiet
    | some rightTy =>
      by_cases hsame : leftTy = rightTy
      · simp only [hsame, if_true] at hquiet
        exact List.append_eq_nil_iff.1 (List.append_eq_nil_iff.1 hquiet).1
      · simp only [hsame, if_false] at hquiet
        exact List.append_eq_nil_iff.1 (List.append_eq_nil_iff.1 hquiet).1

/-- An expression without mistakes has the type that is found for it. -/
theorem exists_hasType_of_infer {scope : TypeScope} {expr : Expr} (hshaped : expr.Shaped)
    (hquiet : (expr.infer scope).2 = []) :
    ∃ ty, expr.infer scope = (some ty, []) ∧ HasType scope expr ty := by
  induction hshaped with
  | @identifier token hkind =>
    unfold infer at hquiet ⊢
    rw [hkind] at hquiet ⊢
    cases hty : scope.ty? token.text with
    | none =>
      simp only [hty] at hquiet
      cases hquiet
    | some ty => exact ⟨ty, rfl, .identifier hkind hty⟩
  | @literal token ty value hty hvalue =>
    refine ⟨ty, ?_, .literal hty hvalue⟩
    unfold infer
    split
    · next hkind =>
      rw [hkind] at hty
      cases hty
    · rw [hty]
  | @unary token operand _ ih =>
    rcases ih (infer_operand_eq_nil hquiet) with ⟨ty, hinfer, htype⟩
    unfold infer at hquiet ⊢
    rw [hinfer] at hquiet ⊢
    rcases applied_eq_nil hquiet with ⟨result, hresult, happlied⟩
    rcases result?_not hresult with ⟨rfl, rfl⟩
    refine ⟨.bool, ?_, .unary htype⟩
    simp only [happlied, List.nil_append]
  | @binary op token left right hop _ _ ihleft ihright =>
    rcases infer_operands_eq_nil hquiet with ⟨hleftQuiet, hrightQuiet⟩
    rcases ihleft hleftQuiet with ⟨leftTy, hleft, hleftType⟩
    rcases ihright hrightQuiet with ⟨rightTy, hright, hrightType⟩
    unfold infer at hquiet ⊢
    rw [hleft, hright] at hquiet ⊢
    by_cases hsame : leftTy = rightTy
    · subst hsame
      simp only [if_true, List.nil_append] at hquiet ⊢
      rcases applied_eq_nil hquiet with ⟨result, hresult, happlied⟩
      rw [happlied]
      exact ⟨result, rfl, .binary hop hresult hleftType hrightType⟩
    · simp only [hsame, if_false] at hquiet
      cases hquiet

/-- An expression without mistakes has the type that is required. -/
theorem hasType_of_require {scope : TypeScope} {expected : Ty} {expr : Expr}
    (hshaped : expr.Shaped) (hquiet : expr.require scope expected = []) :
    HasType scope expr expected := by
  have hinfer : (expr.infer scope).2 = [] := by
    unfold require at hquiet
    rcases hfound : expr.infer scope with ⟨found, mistakes⟩
    rw [hfound] at hquiet
    cases found with
    | none => exact hquiet
    | some received =>
      by_cases hsame : received = expected
      · simp only [hsame, if_true] at hquiet
        exact hquiet
      · simp only [hsame, if_false] at hquiet
        exact (List.append_eq_nil_iff.1 hquiet).1
  rcases exists_hasType_of_infer hshaped hinfer with ⟨received, hreceived, htype⟩
  unfold require at hquiet
  rw [hreceived] at hquiet
  by_cases hsame : received = expected
  · rw [← hsame]
    exact htype
  · simp only [hsame, if_false] at hquiet
    cases hquiet

end Expr

/-! ## Statements -/

mutual

/-- The typing rules of statements, with the names known before and after. -/
inductive Stmt.Typed : TypeScope → Stmt → TypeScope → Prop where
  | declare {scope after : TypeScope} {name typeToken : Token} {ty : Ty} {initial : Option Expr}
      (hdeclare : scope.declare name.text ty () = .ok after)
      (hinitial : ∀ value, initial = some value → value.HasType after ty) :
      Stmt.Typed scope (.declare name typeToken ty initial) after
  | assign {scope : TypeScope} {name : Token} {value : Expr} {ty : Ty}
      (htarget : scope.target name.text = .ok ty) (hvalue : value.HasType scope ty) :
      Stmt.Typed scope (.assign name value) scope
  | loop {scope after : TypeScope} {counter : Token} {first last : Expr} {body : List Stmt}
      (htarget : scope.target counter.text = .ok .int)
      (hfirst : first.HasType scope .int) (hlast : last.HasType scope .int)
      (hbody : Program.Typed (scope.lock counter.text) body after) :
      Stmt.Typed scope (.loop counter first last body) after.unlock
  | print {scope : TypeScope} {value : Expr} {ty : Ty} (hvalue : value.HasType scope ty) :
      Stmt.Typed scope (.print value) scope
  | read {scope : TypeScope} {name : Token} {ty : Ty}
      (htarget : scope.target name.text = .ok ty) : Stmt.Typed scope (.read name) scope
  | assert {scope : TypeScope} {keyword : Token} {condition : Expr} {quotation : String}
      (hcondition : condition.HasType scope .bool) :
      Stmt.Typed scope (.assert keyword condition quotation) scope

/-- Statements that follow the rules one after the other. -/
inductive Program.Typed : TypeScope → List Stmt → TypeScope → Prop where
  | nil {scope : TypeScope} : Program.Typed scope [] scope
  | cons {scope middle after : TypeScope} {stmt : Stmt} {rest : List Stmt}
      (hstmt : Stmt.Typed scope stmt middle) (hrest : Program.Typed middle rest after) :
      Program.Typed scope (stmt :: rest) after

end

/-- A name that is assigned without a mistake is a target. -/
theorem Scope.target_of_assignable {scope : TypeScope} {name : Token} {ty : Ty}
    (hassignable : scope.assignable name = .ok ty) : scope.target name.text = .ok ty := by
  unfold Scope.assignable at hassignable
  split at hassignable
  · next other htarget =>
    cases hassignable
    exact htarget
  · cases hassignable
  · cases hassignable

mutual

/-- A statement without mistakes follows the rules. -/
theorem Stmt.typed_of_check : ∀ (stmt : Stmt) (scope : TypeScope), stmt.All Expr.Shaped →
    (stmt.check scope).2 = [] → Stmt.Typed scope stmt (stmt.check scope).1
  | .declare name typeToken ty initial, scope, hshaped, hquiet => by
    unfold Stmt.All at hshaped
    unfold Stmt.check at hquiet ⊢
    cases hdeclare : scope.declare name.text ty () with
    | error refusal =>
      simp only [hdeclare] at hquiet
      cases hquiet
    | ok after =>
      simp only [hdeclare] at hquiet ⊢
      cases initial with
      | none =>
        apply Stmt.Typed.declare hdeclare
        intro value hvalue
        cases hvalue
      | some value =>
        apply Stmt.Typed.declare hdeclare
        intro other hother
        cases hother
        exact Expr.hasType_of_require (hshaped value rfl) hquiet
  | .assign name value, scope, hshaped, hquiet => by
    unfold Stmt.All at hshaped
    unfold Stmt.check at hquiet ⊢
    cases hassignable : scope.assignable name with
    | error mistake =>
      simp only [hassignable] at hquiet
      cases hquiet
    | ok ty =>
      simp only [hassignable] at hquiet ⊢
      exact .assign (Scope.target_of_assignable hassignable)
        (Expr.hasType_of_require hshaped hquiet)
  | .loop counter first last body, scope, hshaped, hquiet => by
    unfold Stmt.All at hshaped
    unfold Stmt.check at hquiet ⊢
    cases hassignable : scope.assignable counter with
    | error mistake =>
      simp only [hassignable] at hquiet
      cases hquiet
    | ok ty =>
      simp only [hassignable] at hquiet ⊢
      by_cases hint : ty = .int
      · subst hint
        simp only [if_true] at hquiet ⊢
        rcases List.append_eq_nil_iff.1 hquiet with ⟨hbounds, hbody⟩
        rcases List.append_eq_nil_iff.1 hbounds with ⟨hfirst, hlast⟩
        have hunlocked : ∀ name ty, (scope.lock counter.text).ty? name = some ty →
            scope.ty? name = some ty := fun _ _ hty => hty
        refine .loop (Scope.target_of_assignable hassignable) ?_ ?_ ?_
        · exact (Expr.hasType_of_require hshaped.1 hfirst).mono hunlocked
        · exact (Expr.hasType_of_require hshaped.2.1 hlast).mono hunlocked
        · exact Program.typed_of_check body _ hshaped.2.2 hbody
      · simp only [hint, if_false] at hquiet
        cases hquiet
  | .print value, scope, hshaped, hquiet => by
    unfold Stmt.All at hshaped
    unfold Stmt.check at hquiet ⊢
    rcases Expr.exists_hasType_of_infer hshaped hquiet with ⟨ty, -, hvalue⟩
    exact .print hvalue
  | .read name, scope, _, hquiet => by
    unfold Stmt.check at hquiet ⊢
    cases hassignable : scope.assignable name with
    | error mistake =>
      simp only [hassignable] at hquiet
      cases hquiet
    | ok ty => exact .read (Scope.target_of_assignable hassignable)
  | .assert keyword condition quotation, scope, hshaped, hquiet => by
    unfold Stmt.All at hshaped
    unfold Stmt.check at hquiet ⊢
    exact .assert (Expr.hasType_of_require hshaped hquiet)

/-- A program without mistakes follows the rules. -/
theorem Program.typed_of_check : ∀ (program : List Stmt) (scope : TypeScope),
    Program.All Expr.Shaped program → (Program.check program scope).2 = [] →
      Program.Typed scope program (Program.check program scope).1
  | [], scope, _, _ => by
    unfold Program.check
    exact .nil
  | stmt :: rest, scope, hshaped, hquiet => by
    unfold Program.All at hshaped
    unfold Program.check at hquiet ⊢
    rcases List.append_eq_nil_iff.1 hquiet with ⟨hstmt, hrest⟩
    exact .cons (Stmt.typed_of_check stmt scope hshaped.1 hstmt)
      (Program.typed_of_check rest _ hshaped.2 hrest)

end

/-! ## Names -/

mutual

/-- Checking a statement adds names that it declares, whatever mistakes are found. -/
theorem Stmt.check_grows : ∀ (stmt : Stmt) (scope : TypeScope),
    scope.Grows stmt.declared (stmt.check scope).1
  | .declare name _ ty initial, scope => by
    unfold Stmt.check Stmt.declared
    cases hdeclare : scope.declare name.text ty () with
    | error refusal => exact .refl _ scope
    | ok after => cases initial <;> exact Scope.grows_declare hdeclare
  | .assign name value, scope => by
    unfold Stmt.check
    cases scope.assignable name <;> exact .refl _ scope
  | .loop counter first last body, scope => by
    unfold Stmt.check Stmt.declared
    cases scope.assignable counter with
    | error mistake => exact .refl _ scope
    | ok ty =>
      by_cases hint : ty = .int
      · simp only [hint, if_true]
        exact (Program.check_grows body (scope.lock counter.text)).unlock
      · simp only [hint, if_false]
        exact .refl _ scope
  | .print value, scope => by
    unfold Stmt.check
    exact .refl _ scope
  | .read name, scope => by
    unfold Stmt.check
    cases scope.assignable name <;> exact .refl _ scope
  | .assert keyword condition quotation, scope => by
    unfold Stmt.check
    exact .refl _ scope

/-- Checking statements adds names that they declare. -/
theorem Program.check_grows : ∀ (program : List Stmt) (scope : TypeScope),
    scope.Grows (Program.declared program) (Program.check program scope).1
  | [], scope => by
    unfold Program.check
    exact .refl _ scope
  | stmt :: rest, scope => by
    unfold Program.check Program.declared
    have hstmt := Stmt.check_grows stmt scope
    have hrest := Program.check_grows rest (stmt.check scope).1
    exact (hstmt.mono (List.subset_append_left _ _)).trans
      (hrest.mono (List.subset_append_right _ _))

end

mutual

/-- A statement adds the names that it declares. -/
theorem Stmt.Typed.grows {scope after : TypeScope} {stmt : Stmt} :
    Stmt.Typed scope stmt after → scope.Grows stmt.declared after
  | .declare hdeclare _ => by
    unfold Stmt.declared
    exact Scope.grows_declare hdeclare
  | .loop _ _ _ hbody => by
    unfold Stmt.declared
    exact hbody.grows.unlock
  | .assign _ _ => .refl _ scope
  | .print _ => .refl _ scope
  | .read _ => .refl _ scope
  | .assert _ => .refl _ scope

theorem Program.Typed.grows {scope after : TypeScope} {program : List Stmt} :
    Program.Typed scope program after → scope.Grows (Program.declared program) after
  | .nil => .refl _ scope
  | .cons hstmt hrest => by
    unfold Program.declared
    exact (hstmt.grows.mono (List.subset_append_left _ _)).trans
      (hrest.grows.mono (List.subset_append_right _ _))

end

mutual

/-- After a statement, the names that it declares are known. -/
theorem Stmt.Typed.isDeclared {scope after : TypeScope} {stmt : Stmt} :
    Stmt.Typed scope stmt after → ∀ name ∈ stmt.declared, after.isDeclared name = true
  | .declare hdeclare _ => by
    intro name hname
    unfold Stmt.declared at hname
    exact (Scope.isDeclared_of_declare hdeclare name).2 (.inr (List.mem_singleton.1 hname))
  | .loop _ _ _ hbody => by
    intro name hname
    unfold Stmt.declared at hname
    exact hbody.isDeclared name hname
  | .assign _ _ => by simp [Stmt.declared]
  | .print _ => by simp [Stmt.declared]
  | .read _ => by simp [Stmt.declared]
  | .assert _ => by simp [Stmt.declared]

/-- After a typed program all of its names are declared. -/
theorem Program.Typed.isDeclared {scope after : TypeScope} {program : List Stmt} :
    Program.Typed scope program after →
      ∀ name ∈ Program.declared program, after.isDeclared name = true
  | .nil => by simp [Program.declared]
  | .cons hstmt hrest => by
    intro name hname
    unfold Program.declared at hname
    rcases List.mem_append.1 hname with hname | hname
    · exact hrest.grows.isDeclared (hstmt.isDeclared name hname)
    · exact hrest.isDeclared name hname

end

end LoopLang
