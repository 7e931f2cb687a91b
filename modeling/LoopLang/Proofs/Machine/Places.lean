import LoopLang.Machine.Exec
import LoopLang.Proofs.Grammar.Printing

/-!
# Running heeds no places

A program without assertions runs in the same way without its places: on the same
input it reads and writes the same, and leaves the same store.  Places show in the
fault of a division by zero, and in the message of a false assertion, which is why
assertions are left out here.

Main definitions:

- `Fault.unplaced`: a fault without its place.
- `Exec.unplaced`: an action whose faults have no places.
- `Program.hasAssertion`: whether an assertion occurs in a program.

Main results:

- Theorem `Expr.eval_unplaced`: the value of an expression without places.
- Theorem `Exec.unplaced_bind`: two actions, one after the other.
- Theorem `Program.exec_unplaced`: the run of a program without places.
- Theorem `Machine.run_of_unplaced`: two programs that differ only in places run in
  the same way.
-/

namespace LoopLang

/-! ## Values -/

/-- A fault without its place. -/
def Fault.unplaced : Fault → Fault
  | malformedExpression _ _ => malformedExpression 0 0
  | divisionByZero _ _ => divisionByZero 0 0
  | fault => fault

/-- The places of a fault may be left out after either of two computations. -/
theorem Fault.mapError_bind {α β : Type} (answer : Except Fault α)
    (next : α → Except Fault β) :
    (answer >>= next).mapError unplaced =
      answer.mapError unplaced >>= fun a => (next a).mapError unplaced := by
  cases answer <;> rfl

/-- The fault of a wrong type has no place. -/
@[simp]
theorem Value.mapError_expect (expected : Ty) (value : Value) :
    (value.expect expected).mapError Fault.unplaced = value.expect expected := by
  unfold expect
  split <;> rfl

theorem Ty.mapError_resultOrFault (ty : Ty) (op : Operator) :
    (ty.resultOrFault op).mapError Fault.unplaced = ty.resultOrFault op := by
  unfold resultOrFault
  cases ty.result? op <;> rfl

namespace Expr

/-- The value of a leaf does not depend on its place, and only its fault tells the place. -/
theorem evalLeaf_unplaced (store : Store) (token : Token) :
    evalLeaf store token.unplaced = (evalLeaf store token).mapError Fault.unplaced := by
  unfold evalLeaf
  rw [Token.kind_unplaced, Token.text_unplaced]
  split
  · cases store.get? token.text <;> rfl
  · split <;> rfl

/-- Only the division by zero shows the place of its operator. -/
theorem applyBinary_unplaced (op : Operator) (token : Token) (left right : Value) :
    applyBinary op token.unplaced left right =
      (applyBinary op token left right).mapError Fault.unplaced := by
  unfold applyBinary
  simp only [Fault.mapError_bind, Value.mapError_expect, Ty.mapError_resultOrFault]
  refine congrArg _ (funext fun _ => congrArg _ (funext fun result => ?_))
  cases Value.binary? left.ty op with
  | none => rfl
  | some operation =>
    dsimp only
    cases operation left right with
    | none => rfl
    | some value =>
      simp only [Fault.mapError_bind, Value.mapError_expect]
      rfl

theorem mapError_applyUnary (op : Operator) (operand : Value) :
    (applyUnary op operand).mapError Fault.unplaced = applyUnary op operand := by
  unfold applyUnary
  simp only [Fault.mapError_bind, Ty.mapError_resultOrFault]
  refine congrArg _ (funext fun result => ?_)
  split
  · rfl
  · simp only [Fault.mapError_bind, Value.mapError_expect]
    rfl

/-- The value of an expression does not depend on places, and the fault is the same
up to its place. -/
theorem eval_unplaced (store : Store) (expr : Expr) :
    expr.unplaced.eval store = (expr.eval store).mapError Fault.unplaced := by
  induction expr with
  | leaf token => exact evalLeaf_unplaced store token
  | unary op token operand ih =>
    simp only [unplaced, eval, ih, Fault.mapError_bind, mapError_applyUnary]
  | binary op token left right ihleft ihright =>
    simp only [unplaced, eval, ihleft, ihright, Fault.mapError_bind, applyBinary_unplaced]

/-- The bound of a loop does not depend on places. -/
theorem evalInt_unplaced (store : Store) (expr : Expr) :
    expr.unplaced.evalInt store = (expr.evalInt store).mapError Fault.unplaced := by
  simp only [evalInt, eval_unplaced, Fault.mapError_bind]
  refine congrArg _ (funext fun value => ?_)
  cases value <;> rfl

end Expr

/-! ## Actions -/

namespace Input

/-- The faults of an input have no place. -/
theorem mapError_scanChunks (failure : Option String) (word : List UInt8)
    (chunks : List (List UInt8)) :
    (scanChunks failure word chunks).1.mapError Fault.unplaced =
      (scanChunks failure word chunks).1 := by
  fun_induction scanChunks failure word chunks with
  | case1 => rfl
  | case2 => rfl
  | case3 => rfl
  | case4 => rfl
  | case5 word chunk rest scanned hended ih => exact ih

/-- An input that ends or fails has no place in the program. -/
theorem mapError_readWord (input : Input) :
    input.readWord.1.mapError Fault.unplaced = input.readWord.1 := by
  have hfault := mapError_scanChunks input.failure [] input.chunks
  unfold readWord
  generalize scanChunks input.failure [] input.chunks = scanned at hfault ⊢
  rcases scanned with ⟨fault | word, chunks⟩
  · exact congrArg Except.error (Except.error.inj hfault)
  · rfl

end Input

namespace Exec

variable {α β : Type}

/-- The action with the places left out of its faults. -/
def unplaced (action : Exec α) : Exec α := fun machine =>
  match action machine with
  | .ok a after => .ok a after
  | .error fault after => .error fault.unplaced after

/-- Two actions, one after the other. -/
@[simp]
theorem unplaced_bind (action : Exec α) (next : α → Exec β) :
    unplaced (action >>= next) = unplaced action >>= fun a => unplaced (next a) := by
  funext machine
  simp only [unplaced, Bind.bind, EStateM.bind]
  cases action machine <;> rfl

/-- A computation without the places of its faults. -/
theorem unplaced_compute (f : Store → Except Fault α) :
    unplaced (compute f) = compute fun store => (f store).mapError Fault.unplaced := by
  funext machine
  simp only [unplaced, compute]
  cases f machine.store <;> rfl

/-- A refused change has no place. -/
@[simp]
theorem unplaced_change (name : String) (f : Store → Except Refusal Store) :
    unplaced (change name f) = change name f := by
  funext machine
  simp only [unplaced, change]
  rcases f machine.store with (_ | _ | _) | store <;> rfl

@[simp]
theorem unplaced_target (name : String) : unplaced (target name) = target name := by
  rw [target, unplaced_compute]
  refine congrArg compute (funext fun store => ?_)
  rcases store.target name with (_ | _ | _) | ty <;> rfl

@[simp]
theorem unplaced_expect (expected : Ty) (value : Value) :
    unplaced (compute fun _ => value.expect expected) = compute fun _ => value.expect expected := by
  simp only [unplaced_compute, Value.mapError_expect]

@[simp]
theorem unplaced_assign (name : String) (value : Value) :
    unplaced (assign name value) = assign name value :=
  unplaced_change name _

@[simp]
theorem unplaced_declare (name : String) (ty : Ty) :
    unplaced (declare name ty) = declare name ty := by
  unfold declare
  rw [unplaced_bind]
  refine congrArg _ (funext fun machine => ?_)
  dsimp only
  split
  · simp only [unplaced_bind, unplaced_target, unplaced_expect, unplaced_assign]
  · exact unplaced_change name _

/-- A full output is no place in the source. -/
@[simp]
theorem unplaced_write (text : String) : unplaced (write text) = write text := by
  funext machine
  by_cases hfits : machine.output.fits (Utf8.encode text.toList) = true
  · simp only [unplaced, write, if_pos hfits]
  · simp only [unplaced, write, if_neg hfits]
    rfl

@[simp]
theorem unplaced_readWord : unplaced readWord = readWord := by
  funext machine
  have hfault := machine.input.mapError_readWord
  simp only [unplaced, readWord]
  generalize machine.input.readWord = taken at hfault ⊢
  rcases taken with ⟨fault | word, input⟩
  · exact congrArg (EStateM.Result.error · _) (Except.error.inj hfault)
  · rfl

/-- A lock around an action changes nothing about its faults. -/
theorem unplaced_locking (name : String) (action : Exec Unit) :
    unplaced (locking name action) = locking name (unplaced action) := by
  funext machine
  simp only [unplaced, locking]
  cases action { machine with store := machine.store.lock name } <;> rfl

/-- The rounds of a loop fail as its body does. -/
theorem unplaced_countUp (name : String) (action : Exec Unit) (rounds : Nat) (i : Int64) :
    unplaced (countUp name action rounds i) = countUp name (unplaced action) rounds i := by
  induction rounds generalizing i with
  | zero => rfl
  | succ rounds ih => simp only [countUp, unplaced_bind, unplaced_change, ih]

end Exec

/-! ## Statements -/

mutual

/-- Whether the statement is an assertion or has one in its body. -/
def Stmt.hasAssertion : Stmt → Bool
  | .declare .. | .assign .. | .print .. | .read .. => false
  | .loop _ _ _ body => Program.hasAssertion body
  | .assert .. => true

/-- Whether an assertion occurs in a list of statements. -/
def Program.hasAssertion : List Stmt → Bool
  | [] => false
  | stmt :: rest => stmt.hasAssertion || Program.hasAssertion rest

end

mutual

theorem Stmt.hasAssertion_unplaced : ∀ stmt : Stmt, stmt.unplaced.hasAssertion = stmt.hasAssertion
  | .declare .. | .assign .. | .print .. | .read .. | .assert .. => by
    simp [Stmt.unplaced, Stmt.hasAssertion]
  | .loop counter first last body => by
    simp [Stmt.unplaced, Stmt.hasAssertion, Program.hasAssertion_unplaced body]

/-- Assertions stay assertions without their places. -/
theorem Program.hasAssertion_unplaced : ∀ program : List Stmt,
    Program.hasAssertion (Program.unplaced program) = Program.hasAssertion program
  | [] => by simp [Program.unplaced]
  | stmt :: rest => by
    simp [Program.unplaced, Program.hasAssertion, stmt.hasAssertion_unplaced,
      Program.hasAssertion_unplaced rest]

end

open Exec

mutual

/-- The run of a statement without places. -/
theorem Stmt.exec_unplaced : ∀ {stmt : Stmt}, stmt.hasAssertion = false →
    stmt.unplaced.exec = stmt.exec.unplaced
  | .declare name typeToken ty none, _ => by
    simp [Stmt.unplaced, Stmt.exec]
  | .declare name typeToken ty (some value), _ => by
    simp [Stmt.unplaced, Stmt.exec, unplaced_compute, Expr.eval_unplaced]
  | .assign name value, _ => by
    simp [Stmt.unplaced, Stmt.exec, unplaced_compute, Expr.eval_unplaced]
  | .loop counter first last body, hnone => by
    have hbody := Program.exec_unplaced hnone
    simp only [Stmt.unplaced, Stmt.exec, unplaced_bind, unplaced_target, Token.text_unplaced]
    refine congrArg _ (funext fun ty => ?_)
    split
    · simp only [unplaced_bind, unplaced_compute, Expr.evalInt_unplaced, unplaced_locking,
        unplaced_countUp, hbody]
    · rfl
  | .print value, _ => by
    simp [Stmt.unplaced, Stmt.exec, unplaced_compute, Expr.eval_unplaced]
  | .read name, _ => by
    simp only [Stmt.unplaced, Stmt.exec, unplaced_bind, unplaced_target, unplaced_readWord,
      Token.text_unplaced]
    refine congrArg _ (funext fun ty => congrArg _ (funext fun word => ?_))
    split
    · rfl
    · rw [unplaced_assign]
  | .assert .., hnone => by cases hnone

/-- The run of a program without places. -/
theorem Program.exec_unplaced : ∀ {program : List Stmt}, Program.hasAssertion program = false →
    Program.exec (Program.unplaced program) = (Program.exec program).unplaced
  | [], _ => by
    rw [Program.unplaced, Program.exec]
    rfl
  | stmt :: rest, hnone => by
    rcases Bool.or_eq_false_iff.1 hnone with ⟨hstmt, hrest⟩
    simp [Program.unplaced, Program.exec, Stmt.exec_unplaced hstmt, Program.exec_unplaced hrest]

end

/-- Programs without assertions that differ only in places run in the same way, up to
the place of a fault. -/
theorem Machine.run_of_unplaced {program other : Program}
    (hsame : Program.unplaced program = Program.unplaced other)
    (hnone : Program.hasAssertion program = false) (machine : Machine) :
    (machine.run program).1.mapError Fault.unplaced =
        (machine.run other).1.mapError Fault.unplaced ∧
      (machine.run program).2 = (machine.run other).2 := by
  have hother : Program.hasAssertion other = false := by
    rw [← Program.hasAssertion_unplaced, ← hsame, Program.hasAssertion_unplaced, hnone]
  have hexec : (Program.exec program).unplaced machine = (Program.exec other).unplaced machine := by
    rw [← Program.exec_unplaced hnone, hsame, Program.exec_unplaced hother]
  unfold Exec.unplaced at hexec
  unfold Machine.run
  generalize Program.exec program machine = result, Program.exec other machine = result'
    at hexec ⊢
  rcases result with ⟨_, after⟩ | ⟨fault, after⟩ <;>
    rcases result' with ⟨_, after'⟩ | ⟨fault', after'⟩
  · cases hexec
    exact ⟨rfl, rfl⟩
  · cases hexec
  · cases hexec
  · rcases EStateM.Result.error.inj hexec with ⟨hfault, rfl⟩
    dsimp only
    cases after.output.flushFailure with
    | none => exact ⟨congrArg Except.error hfault, rfl⟩
    | some reason => exact ⟨rfl, rfl⟩

end LoopLang
