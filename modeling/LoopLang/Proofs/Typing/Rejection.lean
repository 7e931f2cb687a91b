import LoopLang.Proofs.Machine.Store
import LoopLang.Proofs.Typing.Agreement

/-!
# Rejection of straight-line programs

A program without loops is run statement by statement, in the order in which it is
checked, and the machine makes every check again.  So a run without a fault is a
proof that there are no mistakes: each statement that succeeds had none, and leaves
the names behind that the checker knows after it.  No shape is required of the
expressions, as evaluation refuses what is out of shape.

Main definitions:

- `Stmt.isLoop`: the statements that are left out.
- `Machine.Mirrors`: outside of loops, a machine and a checker know the same names.
- `Exec.Justifies`: an action succeeds only where a check finds no mistakes.

Main results:

- Theorem `Expr.infer_of_eval`: an expression with a value has no mistakes.
- Theorem `Program.exec_justifies`: nor have statements that are run without a
  fault.
- Theorem `run_fails_of_mistakes`: a program with mistakes does not run to its end.
-/

namespace LoopLang

namespace Expr

variable {scope : TypeScope} {store : Store}

/-! ## Expressions -/

/-- An operator that has a result is applied without a mistake. -/
theorem applied_of_result? {op : Operator} {ty result : Ty} (hresult : ty.result? op = some result)
    (token : Token) : ty.applied op token = (some result, []) := by
  simp [Ty.applied, hresult]

/-- A leaf that is no name is taken for a literal, of the type that its kind says. -/
theorem infer_leaf {token : Token} (hkind : token.kind ≠ .identifier) :
    (Expr.leaf token).infer scope = (token.kind.literalType?, []) := by
  unfold infer
  cases hother : token.kind with
  | identifier => exact absurd hother hkind
  | _ => rfl

/-- Such a leaf has a value only if it denotes one of this type. -/
theorem literalType?_of_evalLeaf {token : Token} {value : Value}
    (hkind : token.kind ≠ .identifier) (hvalue : evalLeaf store token = .ok value) :
    token.kind.literalType? = some value.ty := by
  unfold evalLeaf at hvalue
  split at hvalue
  · next hname => exact absurd hname hkind
  · split at hvalue
    · next found hfound =>
      cases hvalue
      rcases Option.bind_eq_some_iff.1 hfound with ⟨ty, hty, hread⟩
      rw [hty, Value.ty_of_ofText? hread]
    · cases hvalue

/-- An expression with a value has no mistakes, and its type is that of the value. -/
theorem infer_of_eval (hagrees : store.Agrees scope) {expr : Expr} {value : Value}
    (hvalue : expr.eval store = .ok value) : expr.infer scope = (some value.ty, []) := by
  induction expr generalizing value with
  | leaf token =>
    unfold eval at hvalue
    by_cases hkind : token.kind = .identifier
    · unfold evalLeaf at hvalue
      unfold infer
      rw [hkind] at hvalue ⊢
      cases hfound : store.get? token.text with
      | none => simp [hfound] at hvalue
      | some found =>
        have hsame : found = value := by simpa [hfound] using hvalue
        simp [hagrees.ty?_eq_map, hfound, hsame]
    · rw [infer_leaf hkind, literalType?_of_evalLeaf hkind hvalue]
  | unary op token operand ih =>
    unfold eval at hvalue
    rcases exists_of_bind_eq_ok hvalue with ⟨operandValue, hoperand, happly⟩
    have hresult := ty_of_applyUnary happly
    simp [infer, ih hoperand, applied_of_result? hresult]
  | binary op token left right ihleft ihright =>
    unfold eval at hvalue
    rcases exists_of_bind_eq_ok hvalue with ⟨leftValue, hleft, hrest⟩
    rcases exists_of_bind_eq_ok hrest with ⟨rightValue, hright, happly⟩
    rcases ty_of_applyBinary happly with ⟨hsame, hresult⟩
    simp [infer, ihleft hleft, ihright hright, hsame, applied_of_result? hresult]

/-- An expression with a value of the required type passes the check. -/
theorem require_of_eval (hagrees : store.Agrees scope) {expr : Expr} {value : Value}
    (hvalue : expr.eval store = .ok value) : expr.require scope value.ty = [] := by
  simp [require, infer_of_eval hagrees hvalue]

end Expr

/-! ## Names outside of loops -/

/-- The only statements with a body of their own. -/
def Stmt.isLoop : Stmt → Bool
  | .loop .. => true
  | .declare .. | .assign .. | .print .. | .read .. | .assert .. => false

/-- Nothing is locked, and the machine has values for the names that are known. -/
structure Machine.Mirrors (scope : TypeScope) (machine : Machine) : Prop where
  agrees : machine.store.Agrees scope
  locks_eq : machine.store.locks = []
  known_locks_eq : scope.locks = []

namespace Machine.Mirrors

variable {scope : TypeScope} {machine : Machine}

/-- Before the first statement neither the checker nor the machine knows a name. -/
theorem start (input : Input) (output : Output) : Mirrors .empty (.start input output) :=
  ⟨⟨fun _ => rfl, Store.typed_empty⟩, rfl, rfl⟩

/-- Input and output do not matter. -/
theorem of_store_eq (hmirrors : machine.Mirrors scope) {other : Machine}
    (hstore : other.store = machine.store) : other.Mirrors scope := by
  constructor
  · rw [hstore]
    exact hmirrors.agrees
  · rw [hstore, hmirrors.locks_eq]
  · exact hmirrors.known_locks_eq

/-- A name with a type in the store can be assigned by the rules of the checker. -/
theorem assignable (hmirrors : machine.Mirrors scope) {name : Token} {ty : Ty}
    (hty : machine.store.ty? name.text = some ty) : scope.assignable name = .ok ty := by
  have hknown : scope.ty? name.text = some ty := by
    rw [← hmirrors.agrees.ty?_eq, hty]
  have hunlocked : scope.isLocked name.text = false := by
    simp [Scope.isLocked, hmirrors.known_locks_eq]
  simp [Scope.assignable, Scope.target_eq_ok.2 ⟨hknown, hunlocked⟩]

/-- A name gets a value of its type. -/
theorem set (hmirrors : machine.Mirrors scope) {name : String} {value : Value}
    (hty : machine.store.ty? name = some value.ty) :
    Mirrors scope { machine with store := machine.store.set name value } := by
  refine ⟨⟨?_, Store.Typed.set hmirrors.agrees.typed hty⟩, hmirrors.locks_eq,
    hmirrors.known_locks_eq⟩
  intro other
  rw [Scope.ty?_set, hmirrors.agrees.ty?_eq]

/-- A name that the machine declares is new to the checker too. -/
theorem declare (hmirrors : machine.Mirrors scope) {name : String} {ty : Ty} {value : Value}
    {store : Store} (hvalue : value.ty = ty)
    (hstore : machine.store.declare name ty value = .ok store) :
    ∃ after, scope.declare name ty () = .ok after ∧
      Mirrors after { machine with store := store } := by
  have hnew : scope.isDeclared name = false := by
    rw [Bool.eq_false_iff, Ne, Scope.isDeclared_iff]
    simp only [← hmirrors.agrees.ty?_eq]
    rw [← Scope.isDeclared_iff, Scope.not_declared_of_declare hstore]
    simp
  have hexists : ∃ after, scope.declare name ty () = .ok after := by
    simp [Scope.declare, hnew]
  rcases hexists with ⟨after, hafter⟩
  refine ⟨after, hafter, ⟨?_, Store.Typed.declare hmirrors.agrees.typed hvalue hstore⟩, ?_, ?_⟩
  · intro other
    rw [Scope.ty?, Scope.ty?, Scope.find?_of_declare hstore, Scope.find?_of_declare hafter]
    by_cases hsame : other = name
    · simp [hsame]
    · rw [if_neg hsame, if_neg hsame]
      exact hmirrors.agrees.ty?_eq other
  · rw [Scope.locks_of_declare hstore, hmirrors.locks_eq]
  · rw [Scope.locks_of_declare hafter, hmirrors.known_locks_eq]

end Machine.Mirrors

/-! ## Statements -/

namespace Exec

/-- The action succeeds only if the check has found no mistakes, and then the
machine knows the names that the checker knows. -/
def Justifies (action : Exec Unit) (machine : Machine)
    (checked : TypeScope × List Diagnostic) : Prop :=
  Ends action machine (fun _ after => checked.2 = [] ∧ after.Mirrors checked.1) fun _ _ => True

/-- A value that is computed and assigned was of the required type. -/
theorem justifies_store {scope : TypeScope} {machine : Machine} (hmirrors : machine.Mirrors scope)
    {name : String} {ty : Ty} (hty : machine.store.ty? name = some ty) (expr : Expr) :
    Justifies (do
      let value ← compute fun store => expr.eval store
      compute fun _ => value.expect ty
      assign name value) machine (scope, expr.require scope ty) := by
  apply Ends.bind
  refine Ends.compute ?_ fun _ _ => trivial
  intro value hvalue
  apply Ends.bind
  refine Ends.expect ?_ fun _ => trivial
  rintro rfl
  refine Ends.assign ?_ (fun _ => trivial) fun _ _ => trivial
  intro _ _
  exact ⟨Expr.require_of_eval hmirrors.agrees hvalue, hmirrors.set hty⟩

end Exec

open Exec

/-- A statement that is no loop succeeds only if it has no mistakes. -/
theorem Stmt.exec_justifies {scope : TypeScope} {machine : Machine}
    (hmirrors : machine.Mirrors scope) {stmt : Stmt} (hstraight : stmt.isLoop = false) :
    Justifies stmt.exec machine (stmt.check scope) := by
  cases stmt with
  | loop counter first last body => simp [Stmt.isLoop] at hstraight
  | declare name typeToken ty initial =>
    unfold Stmt.exec Stmt.check
    apply Ends.bind
    refine Ends.declare ?_ ?_ (fun _ _ => trivial) (fun _ _ => trivial) fun _ _ _ => trivial
    · intro store hstore
      rcases hmirrors.declare (Value.ty_zero ty) hstore with ⟨after, hafter, hlater⟩
      simp only [hafter]
      cases initial with
      | none => exact ⟨rfl, hlater⟩
      | some expr =>
        have hty : store.ty? name.text = some ty := by
          simp [Scope.ty?, Scope.find?_of_declare hstore]
        exact justifies_store hlater hty expr
    · intro _ hloop _
      simp [Scope.inLoop, hmirrors.locks_eq] at hloop
  | assign name expr =>
    unfold Stmt.exec Stmt.check
    apply Ends.bind
    refine Ends.target ?_ (fun _ => trivial) fun _ _ => trivial
    intro ty hty _
    rw [hmirrors.assignable hty]
    exact justifies_store hmirrors hty expr
  | print expr =>
    unfold Stmt.exec Stmt.check
    apply Ends.bind
    refine Ends.compute ?_ fun _ _ => trivial
    intro value hvalue
    have hquiet : (expr.infer scope).2 = [] := by
      rw [Expr.infer_of_eval hmirrors.agrees hvalue]
    exact Ends.write ⟨hquiet, hmirrors.of_store_eq rfl⟩ trivial
  | read name =>
    unfold Stmt.exec Stmt.check
    apply Ends.bind
    refine Ends.target ?_ (fun _ => trivial) fun _ _ => trivial
    intro ty hty _
    rw [hmirrors.assignable hty]
    apply Ends.bind
    refine Ends.readWord ?_ fun _ _ _ => trivial
    intro word input _
    have hlater : Machine.Mirrors scope { machine with input := input } :=
      hmirrors.of_store_eq rfl
    cases hvalue : Value.ofText? word ty with
    | none => exact Ends.throw trivial
    | some value =>
      refine Ends.assign ?_ (fun _ => trivial) fun _ _ => trivial
      intro _ _
      refine ⟨rfl, hlater.set ?_⟩
      rw [Value.ty_of_ofText? hvalue]
      exact hty
  | assert keyword condition quotation =>
    unfold Stmt.exec Stmt.check
    apply Ends.bind
    refine Ends.compute ?_ fun _ _ => trivial
    intro value hvalue
    apply Ends.bind
    refine Ends.expect ?_ fun _ => trivial
    intro hbool
    have hquiet : condition.require scope .bool = [] := by
      rw [← hbool]
      exact Expr.require_of_eval hmirrors.agrees hvalue
    by_cases hfalse : value = .bool false
    · rw [if_pos hfalse]
      exact Ends.write ⟨hquiet, hmirrors.of_store_eq rfl⟩ trivial
    · rw [if_neg hfalse]
      exact Ends.pure ⟨hquiet, hmirrors⟩

/-- Statements without loops are run to the end only if they have no mistakes. -/
theorem Program.exec_justifies {scope : TypeScope} {machine : Machine}
    (hmirrors : machine.Mirrors scope) {program : List Stmt}
    (hstraight : ∀ stmt ∈ program, stmt.isLoop = false) :
    Justifies (Program.exec program) machine (Program.check program scope) := by
  induction program generalizing scope machine with
  | nil =>
    unfold Program.exec Program.check
    exact Ends.pure ⟨rfl, hmirrors⟩
  | cons stmt rest ih =>
    unfold Program.exec Program.check
    have hstmt := Stmt.exec_justifies hmirrors (hstraight stmt List.mem_cons_self)
    apply Ends.bind
    refine Ends.mono hstmt ?_ fun _ _ _ => trivial
    rintro _ middle ⟨hquiet, hmiddle⟩
    have hrest := ih hmiddle fun other hother => hstraight other (List.mem_cons_of_mem stmt hother)
    refine Ends.mono hrest ?_ fun _ _ _ => trivial
    rintro _ after ⟨hmore, hafter⟩
    exact ⟨List.append_eq_nil_iff.2 ⟨hquiet, hmore⟩, hafter⟩

/-- A program without loops in which the checker finds a mistake ends with a fault
if it is run all the same, whatever its input and its output. -/
theorem run_fails_of_mistakes {program : Program}
    (hstraight : ∀ stmt ∈ program, stmt.isLoop = false)
    (hmistakes : Program.mistakes program ≠ []) (input : Input) (output : Output) :
    ∃ fault, ((Machine.start input output).run program).1 = .error fault := by
  have hjustifies := Program.exec_justifies (Machine.Mirrors.start input output) hstraight
  unfold Machine.run
  cases hexec : Program.exec program (.start input output) with
  | ok _ after =>
    have hquiet := ((Ends.of_ok hexec).1 hjustifies).1
    exact absurd hquiet hmistakes
  | error fault after => cases hflush : after.output.flushFailure <;> simp [hflush]

/-- Two statements without a mistake, and an assertion that compares a sum with a
string. -/
def lateMismatch : Program :=
  let sum : Expr := .binary .addition ⟨.binaryOperator, "+", 3, 12, 30, 31⟩
    (.leaf ⟨.identifier, "n", 3, 10, 28, 29⟩) (.leaf ⟨.integerLiteral, "1", 3, 14, 32, 33⟩)
  [.declare ⟨.identifier, "n", 1, 5, 4, 5⟩ ⟨.intType, "int", 1, 7, 6, 9⟩ .int none,
    .read ⟨.identifier, "n", 2, 6, 16, 17⟩,
    .assert ⟨.assertKeyword, "assert", 3, 1, 19, 25⟩
      (.binary .equality ⟨.binaryOperator, "=", 3, 17, 35, 36⟩ sum
        (.leaf ⟨.stringLiteral, "a", 3, 19, 37, 40⟩)) "(n + 1) = \"a\""]

/-- The input has a number for the second statement, and the run gets to the third
one. -/
theorem run_lateMismatch_fails :
    let input := Input.ofBytes (Utf8.encode "7 ".toList)
    (∀ stmt ∈ lateMismatch, stmt.isLoop = false) ∧ Program.mistakes lateMismatch ≠ [] ∧
      ∃ fault, ((Machine.start input .unlimited).run lateMismatch).1 = .error fault := by
  intro input
  have hstraight : ∀ stmt ∈ lateMismatch, stmt.isLoop = false := by decide
  have hmistakes : Program.mistakes lateMismatch ≠ [] := by decide
  exact ⟨hstraight, hmistakes, run_fails_of_mistakes hstraight hmistakes input .unlimited⟩

end LoopLang
