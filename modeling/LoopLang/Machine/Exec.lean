import LoopLang.Machine.Eval
import LoopLang.Machine.Input
import LoopLang.Machine.Output
import LoopLang.Stmt

/-!
# Execution

A machine holds the values of the names, the input and the output, and runs
statements.  It can run a program that was never checked: everything that would
go wrong ends the run with a fault, and the machine stays as it was at that
moment.

Main definitions:

- `Machine`: the state of a run.
- `Stmt.exec`, `Program.exec`: running statements.
- `Machine.run`: running a whole program, after which the output is flushed.
-/

namespace LoopLang

/-- The state of a run. -/
structure Machine where
  store : Store
  input : Input
  output : Output
deriving DecidableEq, Repr

/-- A machine before its first program. -/
def Machine.start (input : Input) (output : Output) : Machine :=
  ⟨.empty, input, output⟩

/-- An action of a machine.  A fault leaves the machine as it is. -/
abbrev Exec := EStateM Fault Machine

/-- The fault of a refused change of a name. -/
def Refusal.toFault (name : String) : Refusal → Fault
  | alreadyDeclared => .redeclared name
  | undeclared => .undeclared name
  | locked => .locked name

namespace Exec

/-- A computation on the store that changes nothing. -/
def compute {α : Type} (f : Store → Except Fault α) : Exec α := fun machine =>
  match f machine.store with
  | .ok a => .ok a machine
  | .error fault => .error fault machine

/-- A change of the store, which the store may refuse for the given name. -/
def change (name : String) (f : Store → Except Refusal Store) : Exec Unit := fun machine =>
  match f machine.store with
  | .ok store => .ok () { machine with store := store }
  | .error refusal => .error (refusal.toFault name) machine

/-- The type of a name that is to be assigned. -/
def target (name : String) : Exec Ty :=
  compute fun store =>
    match store.target name with
    | .ok ty => .ok ty
    | .error refusal => .error (refusal.toFault name)

/-- Assigns a name. -/
def assign (name : String) (value : Value) : Exec Unit :=
  change name fun store => store.assign name value

/-- Writes a text to the output, as much of it as there is room for. -/
def write (text : String) : Exec Unit := fun machine =>
  let bytes := Utf8.encode text.toList
  if machine.output.fits bytes then
    .ok () { machine with output := machine.output.store bytes }
  else
    .error (.stream Output.full) { machine with output := machine.output.store bytes }

/-- Takes a word from the input. -/
def readWord : Exec String := fun machine =>
  let (result, input) := machine.input.readWord
  let machine := { machine with input := input }
  match result with
  | .ok word => .ok word machine
  | .error fault => .error fault machine

/-- Declares a name with the initial value of its type.  In a loop the name may
have been declared by an earlier round; then it gets that value again. -/
def declare (name : String) (ty : Ty) : Exec Unit := do
  let store := (← get).store
  if store.isDeclared name && store.inLoop then
    let declared ← target name
    compute fun _ => (Value.zero ty).expect declared
    assign name (.zero ty)
  else
    change name fun store => store.declare name ty (.zero ty)

/-- Runs an action while a name is locked.  The lock is taken back whether the
action succeeds or not. -/
def locking (name : String) (action : Exec Unit) : Exec Unit := fun machine =>
  match action { machine with store := machine.store.lock name } with
  | .ok () machine => .ok () { machine with store := machine.store.unlock }
  | .error fault machine => .error fault { machine with store := machine.store.unlock }

/-- Runs an action for the given number of integers from `i` on, each of them as
the content of the name. -/
def countUp (name : String) (action : Exec Unit) : Nat → Int64 → Exec Unit
  | 0, _ => return ()
  | rounds + 1, i => do
    change name fun store => store.overwrite name (.int i)
    action
    countUp name action rounds (i + 1)

/-- The number of integers from `first` to `last`, both included. -/
def rounds (first last : Int64) : Nat :=
  (last.toInt - first.toInt + 1).toNat

end Exec

/-- What a false assertion writes. -/
def assertionMessage (keyword : Token) (quotation : String) : String :=
  "Assertion near line " ++ Numeral.ofInt keyword.line ++ " column " ++
    Numeral.ofInt keyword.column ++ " failed: " ++ quotation ++ "\n"

open Exec

mutual

/-- Runs a statement. -/
def Stmt.exec : Stmt → Exec Unit
  | .declare name _ ty initial => do
    declare name.text ty
    match initial with
    | none => return ()
    | some expr =>
      let value ← compute fun store => expr.eval store
      compute fun _ => value.expect ty
      assign name.text value
  | .assign name expr => do
    let ty ← target name.text
    let value ← compute fun store => expr.eval store
    compute fun _ => value.expect ty
    assign name.text value
  | .loop counter first last body => do
    let ty ← target counter.text
    if ty = .int then
      let i ← compute fun store => first.evalInt store
      let j ← compute fun store => last.evalInt store
      locking counter.text (countUp counter.text (Program.exec body) (rounds i j) i)
    else
      throw (.typeAssertion .int ty)
  | .print expr => do
    let value ← compute fun store => expr.eval store
    write value.text
  | .read name => do
    let ty ← target name.text
    let word ← readWord
    match Value.ofText? word ty with
    | none => throw (.invalidInput word ty)
    | some value => assign name.text value
  | .assert keyword condition quotation => do
    let value ← compute fun store => condition.eval store
    compute fun _ => value.expect .bool
    if value = .bool false then
      write (assertionMessage keyword quotation)
    else
      return ()

/-- Runs statements one after the other, up to the first fault. -/
def Program.exec : List Stmt → Exec Unit
  | [] => return ()
  | stmt :: rest => do
    stmt.exec
    Program.exec rest

end

/-- Runs a program and flushes the output.  If that fails, it is what the run
ends with. -/
def Machine.run (program : Program) (machine : Machine) : Except Fault Unit × Machine :=
  let (result, after) : Except Fault Unit × Machine :=
    match Program.exec program machine with
    | .ok () after => (.ok (), after)
    | .error fault after => (.error fault, after)
  match after.output.flushFailure with
  | some reason => (.error (.stream reason), after)
  | none => (result, after)

end LoopLang
