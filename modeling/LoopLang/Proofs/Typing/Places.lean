import LoopLang.Proofs.Grammar.Places
import LoopLang.Typing

/-!
# Checking heeds no places

The check of a program without places finds what the check of the program finds,
without the places of the anchors.  The scope that is left is the same.

Main results:

- Theorem `Expr.infer_unplaced`: the type of an expression without places.
- Theorem `Program.check_unplaced`: the check of a program without places.
- Theorem `Program.mistakes_of_unplaced`: two programs that differ only in places
  have the same mistakes.
-/

namespace LoopLang

/-! ## Expressions -/

/-- The result of an operator does not depend on its place, and only its mistake tells the
place. -/
theorem Ty.applied_unplaced (op : Operator) (token : Token) (ty : Ty) :
    ty.applied op token.unplaced =
      Prod.map id (List.map Diagnostic.unplaced) (ty.applied op token) := by
  unfold applied
  cases ty.result? op <;> rfl

namespace Expr

theorem head_unplaced (expr : Expr) : expr.unplaced.head = expr.head.unplaced := by
  cases expr <;> rfl

/-- The type of an expression does not depend on places, and the mistakes are the
same. -/
theorem infer_unplaced (scope : TypeScope) (expr : Expr) :
    expr.unplaced.infer scope = Prod.map id (List.map Diagnostic.unplaced) (expr.infer scope) := by
  induction expr with
  | leaf token =>
    simp only [unplaced, infer, Token.kind_unplaced, Token.text_unplaced]
    split
    · cases scope.ty? token.text <;> rfl
    · rfl
  | unary op token operand ih =>
    simp only [unplaced, infer, ih, Ty.applied_unplaced]
    rcases operand.infer scope with ⟨ty | ty, mistakes⟩
    · rfl
    · simp [Prod.map]
  | binary op token left right ihleft ihright =>
    simp only [unplaced, infer, ihleft, ihright, Ty.applied_unplaced]
    rcases left.infer scope with ⟨leftTy | leftTy, before⟩ <;>
      rcases right.infer scope with ⟨rightTy | rightTy, after⟩
    · simp [Prod.map]
    · simp [Prod.map]
    · simp [Prod.map]
    · by_cases hsame : leftTy = rightTy
      · simp [Prod.map, hsame]
      · simp [Prod.map, hsame, Diagnostic.unplaced, Diagnostic.about]

/-- The mistakes about a required type are the same up to places. -/
theorem require_unplaced (scope : TypeScope) (expected : Ty) (expr : Expr) :
    expr.unplaced.require scope expected =
      (expr.require scope expected).map Diagnostic.unplaced := by
  unfold require
  rw [infer_unplaced, head_unplaced]
  rcases expr.infer scope with ⟨received | received, mistakes⟩
  · rfl
  · by_cases hsame : received = expected
    · simp [Prod.map, hsame]
    · simp [Prod.map, hsame, Diagnostic.unplaced, Diagnostic.about]

end Expr

/-! ## Statements -/

/-- A name that cannot be assigned is reported in the same way wherever it stands. -/
theorem Scope.assignable_unplaced (scope : TypeScope) (name : Token) :
    scope.assignable name.unplaced =
      match scope.assignable name with
      | .error mistake => .error mistake.unplaced
      | .ok ty => .ok ty := by
  unfold assignable
  rw [Token.text_unplaced]
  rcases scope.target name.text with (_ | _ | _) | ty <;> rfl

mutual

/-- The check of a statement without places. -/
theorem Stmt.check_unplaced : ∀ (stmt : Stmt) (scope : TypeScope),
    stmt.unplaced.check scope =
      Prod.map id (List.map Diagnostic.unplaced) (stmt.check scope)
  | .declare name typeToken ty initial, scope => by
    simp only [Stmt.unplaced, Stmt.check, Token.text_unplaced]
    cases scope.declare name.text ty () with
    | error refusal => rfl
    | ok declared =>
      cases initial with
      | none => rfl
      | some value => simp [Prod.map, Expr.require_unplaced]
  | .assign name value, scope => by
    simp only [Stmt.unplaced, Stmt.check, Scope.assignable_unplaced]
    cases scope.assignable name with
    | error mistake => rfl
    | ok ty => simp [Prod.map, Expr.require_unplaced]
  | .loop counter first last body, scope => by
    simp only [Stmt.unplaced, Stmt.check, Scope.assignable_unplaced, Token.text_unplaced]
    cases scope.assignable counter with
    | error mistake => rfl
    | ok ty =>
      by_cases hint : ty = .int
      · simp [hint, Prod.map, Expr.require_unplaced, Program.check_unplaced body]
      · simp [hint, Prod.map, Diagnostic.unplaced, Diagnostic.about]
  | .print value, scope => by
    simp [Stmt.unplaced, Stmt.check, Prod.map, Expr.infer_unplaced]
  | .read name, scope => by
    simp only [Stmt.unplaced, Stmt.check, Scope.assignable_unplaced]
    cases scope.assignable name <;> rfl
  | .assert keyword condition quotation, scope => by
    simp [Stmt.unplaced, Stmt.check, Prod.map, Expr.require_unplaced]

/-- The check of a program without places. -/
theorem Program.check_unplaced : ∀ (program : List Stmt) (scope : TypeScope),
    Program.check (Program.unplaced program) scope =
      Prod.map id (List.map Diagnostic.unplaced) (Program.check program scope)
  | [], scope => by simp [Program.unplaced, Program.check]
  | stmt :: rest, scope => by
    simp [Program.unplaced, Program.check, Prod.map, stmt.check_unplaced,
      Program.check_unplaced rest]

end

/-- Programs that differ only in places and quotations have the same mistakes. -/
theorem Program.mistakes_of_unplaced {program other : Program}
    (hsame : Program.unplaced program = Program.unplaced other) :
    (Program.mistakes program).map Diagnostic.unplaced =
      (Program.mistakes other).map Diagnostic.unplaced := by
  have hmistakes (program : Program) : (Program.mistakes program).map Diagnostic.unplaced =
      Program.mistakes (Program.unplaced program) := by
    rw [Program.mistakes, Program.mistakes, Program.check_unplaced]
    rfl
  rw [hmistakes, hsame, ← hmistakes]

end LoopLang
