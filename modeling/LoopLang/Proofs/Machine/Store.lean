import LoopLang.Proofs.Machine.Frame
import LoopLang.Proofs.Typing.Rules

/-!
# The store of a run

Any program may be run, whether it was checked or not, and a run may be broken off
anywhere.  The machine looks at the types while it runs, so that a name never gets
a value of another type, and at the locks, so that no statement gets at a name
that a loop around it counts up.

Main definitions:

- `Store.Typed`: every declared name has a value of its type.
- `Store.Keeps`: the entries of the given names are kept, and so are the types.
- `Exec.Leaves`: what holds however an action ends.
- `Machine.stages`: the machines between tasks, each of which finds its own streams.

Main results:

- Theorem `Program.exec_keeps`: statements keep the entries of the locked names.
- Theorem `Program.locks_are_framed`: the locks frame what statements do, when they
  are run and when they are checked.
- Theorem `store_typed_after_runs`: the store between the programs that are run on
  one machine.
-/

namespace LoopLang

namespace Store

/-! ## Typed stores -/

/-- Every declared name has a value of its type. -/
def Typed (store : Store) : Prop :=
  ∀ name entry, store.find? name = some entry → entry.content.ty = entry.ty

/-- A store without names is typed. -/
theorem typed_empty : Typed .empty := by
  intro name entry hentry
  cases hentry

/-- A value of the type that a name has may be set. -/
theorem Typed.set {store : Store} (htyped : store.Typed) {name : String} {value : Value}
    (hty : store.ty? name = some value.ty) : Typed (Scope.set store name value) := by
  intro other entry hentry
  rw [Scope.find?_set] at hentry
  by_cases hsame : other = name
  · rw [if_pos hsame] at hentry
    rcases Option.map_eq_some_iff.1 hentry with ⟨old, hold, rfl⟩
    rw [← hsame, Scope.ty?, hold] at hty
    exact (Option.some.inj hty).symm
  · rw [if_neg hsame] at hentry
    exact htyped other entry hentry

/-- A name may be declared with a value of its type. -/
theorem Typed.declare {store after : Store} (htyped : store.Typed) {name : String} {ty : Ty}
    {value : Value} (hvalue : value.ty = ty) (hdeclare : store.declare name ty value = .ok after) :
    after.Typed := by
  intro other entry hentry
  rw [Scope.find?_of_declare hdeclare] at hentry
  by_cases hsame : other = name
  · rw [if_pos hsame] at hentry
    cases hentry
    exact hvalue
  · rw [if_neg hsame] at hentry
    exact htyped other entry hentry

/-! ## What is kept -/

/-- The entries of the held names are kept, and a typed store stays typed. -/
structure Keeps (held : List String) (before after : Store) : Prop where
  find?_eq : ∀ name ∈ held, ∀ entry, before.find? name = some entry →
    after.find? name = some entry
  typed : before.Typed → after.Typed

namespace Keeps

variable {held more : List String} {first second third : Store}

theorem refl (held : List String) (store : Store) : Keeps held store store :=
  ⟨fun _ _ _ hentry => hentry, fun htyped => htyped⟩

theorem trans (hfirst : Keeps held first second) (hsecond : Keeps held second third) :
    Keeps held first third := by
  constructor
  · intro name hname entry hentry
    exact hsecond.find?_eq name hname entry (hfirst.find?_eq name hname entry hentry)
  · intro htyped
    exact hsecond.typed (hfirst.typed htyped)

/-- Fewer names may be held than are. -/
theorem mono (hkeeps : Keeps more first second) (hsub : held ⊆ more) : Keeps held first second :=
  ⟨fun name hname => hkeeps.find?_eq name (hsub hname), hkeeps.typed⟩

/-- Locks are no entries. -/
theorem lock (held : List String) (store : Store) (name : String) :
    Keeps held store (Scope.lock store name) :=
  ⟨fun _ _ _ hentry => hentry, fun htyped => htyped⟩

theorem unlock (hkeeps : Keeps held first second) : Keeps held first (Scope.unlock second) :=
  ⟨hkeeps.find?_eq, hkeeps.typed⟩

/-- A name that is not held gets a value of its type. -/
theorem set {store : Store} {name : String} {value : Value} (hname : name ∉ held)
    (hty : store.ty? name = some value.ty) : Keeps held store (Scope.set store name value) := by
  constructor
  · intro other hother entry hentry
    have hdiffers : other ≠ name := by
      rintro rfl
      exact hname hother
    rw [Scope.find?_set, if_neg hdiffers]
    exact hentry
  · intro htyped
    exact htyped.set hty

/-- A new name has no entry yet that could be changed. -/
theorem declare {store after : Store} {name : String} {ty : Ty} {value : Value}
    (hvalue : value.ty = ty) (hdeclare : store.declare name ty value = .ok after) :
    Keeps held store after := by
  constructor
  · intro other _ entry hentry
    have hdiffers : other ≠ name := by
      rintro rfl
      have hnew := Scope.not_declared_of_declare hdeclare
      simp [Scope.isDeclared, hentry] at hnew
    rw [Scope.find?_of_declare hdeclare, if_neg hdiffers]
    exact hentry
  · intro htyped
    exact htyped.declare hvalue hdeclare

end Keeps

end Store

/-! ## Actions -/

namespace Exec

variable {α : Type} {machine : Machine} {name : String}

/-- However the action ends, the machine that it leaves is as stated. -/
def Leaves (action : Exec α) (machine : Machine) (stated : Machine → Prop) : Prop :=
  Ends action machine (fun _ => stated) (fun _ => stated)

/-- The action keeps the entries of the names that are locked when it begins. -/
def Keeps (action : Exec α) (machine : Machine) : Prop :=
  Leaves action machine fun after => machine.store.Keeps machine.store.locks after.store

/-- A name that is not locked is not held. -/
theorem not_mem_locks (hunlocked : machine.store.isLocked name = false) :
    name ∉ machine.store.locks := by
  simpa [Scope.isLocked] using hunlocked

/-- An action goes on with what was kept before it. -/
theorem leaves_of_keeps {action : Exec α} {middle : Machine}
    (hkeeps : machine.store.Keeps machine.store.locks middle.store)
    (hlocks : middle.store.locks = machine.store.locks) (haction : Keeps action middle) :
    Leaves action middle fun after => machine.store.Keeps machine.store.locks after.store := by
  rw [Keeps, hlocks] at haction
  exact Ends.mono haction (fun _ _ hafter => hkeeps.trans hafter)
    (fun _ _ hafter => hkeeps.trans hafter)

/-- Computations change nothing. -/
theorem keeps_compute {β : Type} {f : Store → Except Fault α} {next : α → Exec β}
    (hnext : ∀ a, f machine.store = .ok a → Keeps (next a) machine) :
    Keeps (compute f >>= next) machine := by
  apply Ends.bind
  apply Ends.compute
  · exact hnext
  · intro _ _
    exact .refl _ machine.store

/-- Nor does the search for a name that is to be assigned. -/
theorem keeps_target {next : Ty → Exec α}
    (hnext : ∀ ty, machine.store.ty? name = some ty → machine.store.isLocked name = false →
      Keeps (next ty) machine) : Keeps (target name >>= next) machine := by
  apply Ends.bind
  apply Ends.target
  · exact hnext
  · intro _
    exact .refl _ machine.store
  · intro _ _
    exact .refl _ machine.store

/-- Writing does not touch the store. -/
theorem keeps_write (text : String) : Keeps (write text) machine :=
  Ends.write (.refl _ machine.store) (.refl _ machine.store)

/-- A value of the type that the name has is assigned. -/
theorem keeps_assign {value : Value} (hty : machine.store.ty? name = some value.ty) :
    Keeps (assign name value) machine := by
  apply Ends.assign
  · intro _ hunlocked
    exact .set (not_mem_locks hunlocked) hty
  · intro _
    exact .refl _ machine.store
  · intro _ _
    exact .refl _ machine.store

/-- A value is computed and assigned if it is of the type that the name has. -/
theorem keeps_store {ty : Ty} (hty : machine.store.ty? name = some ty) (expr : Expr) :
    Keeps (do
      let value ← compute fun store => expr.eval store
      compute fun _ => value.expect ty
      assign name value) machine := by
  apply keeps_compute
  intro value _
  apply Ends.bind
  apply Ends.expect
  · intro hvalue
    exact keeps_assign (hvalue ▸ hty)
  · intro _
    exact .refl _ machine.store

/-- After its declaration, also after one that is met again in a loop, a name has
the type of the declaration. -/
theorem ends_declare_keeps (name : String) (ty : Ty) (machine : Machine) :
    Ends (declare name ty) machine
      (fun _ after => machine.store.Keeps machine.store.locks after.store ∧
        after.store.locks = machine.store.locks ∧ after.store.ty? name = some ty)
      (fun _ after => machine.store.Keeps machine.store.locks after.store) := by
  apply Ends.declare
  · intro store hstore
    refine ⟨.declare (Value.ty_zero ty) hstore, Scope.locks_of_declare hstore, ?_⟩
    simp [Scope.ty?, Scope.find?_of_declare hstore]
  · intro hty _ hunlocked
    have hzero : machine.store.ty? name = some (Value.zero ty).ty := by
      rw [Value.ty_zero, hty]
    exact ⟨.set (not_mem_locks hunlocked) hzero, rfl, by simp [hty]⟩
  · intro _ _
    exact .refl _ machine.store
  · intro _ _
    exact .refl _ machine.store
  · intro _ _ _
    exact .refl _ machine.store

/-- A machine between two rounds of a loop.  The names that were locked when the loop
began are held by the loop, and its own counter is held by the body. -/
structure Counting (start : Machine) (name : String) (machine : Machine) : Prop where
  keeps : start.store.Keeps start.store.locks machine.store
  locks_eq : machine.store.locks = name :: start.store.locks
  ty?_eq : machine.store.ty? name = some .int

/-- A round counts up the name, which was not locked, and keeps what the body
keeps. -/
theorem ends_round_keeps {start : Machine} (hcounting : Counting start name machine)
    (hunlocked : start.store.isLocked name = false) {names : List String} {body : Exec Unit}
    (hgrows : Grows names body) (hbody : ∀ machine, Keeps body machine) (i : Int64) :
    Ends (change name fun store => store.overwrite name (.int i)) machine
      (fun _ stepped => Ends body stepped (fun _ after => Counting start name after)
        (fun _ after => start.store.Keeps start.store.locks after.store))
      (fun _ after => start.store.Keeps start.store.locks after.store) := by
  apply Ends.change
  · intro store hstore
    unfold Scope.overwrite at hstore
    split at hstore
    · cases hstore
      let stepped : Machine := { machine with store := machine.store.set name (.int i) }
      have hset : start.store.Keeps start.store.locks stepped.store :=
        hcounting.keeps.trans (.set (not_mem_locks hunlocked) hcounting.ty?_eq)
      have hlocks : stepped.store.locks = name :: start.store.locks := hcounting.locks_eq
      have hty : stepped.store.ty? name = some .int := by simp [stepped, hcounting.ty?_eq]
      have hsub : start.store.locks ⊆ stepped.store.locks := by simp [hlocks]
      refine Ends.mono (Ends.and (hgrows stepped) (hbody stepped)) ?_ ?_
      · rintro _ after ⟨hafter, hkeeps⟩
        refine ⟨hset.trans (hkeeps.mono hsub), ?_, hafter.store.keeps name .int hty⟩
        rw [hafter.store.locks_eq, hlocks]
      · rintro _ after ⟨_, hkeeps⟩
        exact hset.trans (hkeeps.mono hsub)
    · cases hstore
  · intro _ _
    exact hcounting.keeps

/-- A loop keeps the entries of the names that were locked before it. -/
theorem keeps_loop {names : List String} {body : Exec Unit} (hgrows : Grows names body)
    (hbody : ∀ machine, Keeps body machine) (hunlocked : machine.store.isLocked name = false)
    (hty : machine.store.ty? name = some .int) (rounds : Nat) (first : Int64) :
    Keeps (locking name (countUp name body rounds first)) machine := by
  have hstart : Counting machine name { machine with store := machine.store.lock name } :=
    ⟨.lock _ machine.store name, rfl, hty⟩
  have hrounds := Ends.countUp (Counting machine name)
    (fun i _ hcounting => ends_round_keeps hcounting hunlocked hgrows hbody i) rounds first hstart
  apply Ends.locking
  exact Ends.mono hrounds (fun _ after hafter => hafter.keeps.unlock)
    (fun _ after hafter => hafter.unlock)

end Exec

open Exec

/-! ## Statements -/

mutual

/-- A statement keeps the entries of the locked names. -/
theorem Stmt.exec_keeps : ∀ (stmt : Stmt) (machine : Machine), Keeps stmt.exec machine
  | .declare name _ ty initial, machine => by
    unfold Stmt.exec
    apply Ends.bind
    refine Ends.mono (ends_declare_keeps name.text ty machine) ?_ fun _ _ hfailed => hfailed
    rintro _ middle ⟨hkeeps, hlocks, hty⟩
    cases initial with
    | none => exact hkeeps
    | some expr => exact leaves_of_keeps hkeeps hlocks (keeps_store hty expr)
  | .assign name expr, machine => by
    unfold Stmt.exec
    apply keeps_target
    intro ty hty _
    exact keeps_store hty expr
  | .loop counter first last body, machine => by
    unfold Stmt.exec
    apply keeps_target
    intro ty hty hunlocked
    by_cases hint : ty = .int
    · rw [if_pos hint]
      subst hint
      apply keeps_compute
      intro i _
      apply keeps_compute
      intro j _
      exact keeps_loop (Program.exec_grows body) (Program.exec_keeps body) hunlocked hty
        (rounds i j) i
    · rw [if_neg hint]
      exact .refl _ machine.store
  | .print expr, machine => by
    unfold Stmt.exec
    apply keeps_compute
    intro value _
    exact keeps_write value.text
  | .read name, machine => by
    unfold Stmt.exec
    apply keeps_target
    intro ty hty _
    apply Ends.bind
    refine Ends.readWord (fun word input _ => ?_) fun _ _ _ => .refl _ machine.store
    cases hvalue : Value.ofText? word ty with
    | none => exact .refl _ machine.store
    | some value =>
      have hsame : machine.store.ty? name.text = some value.ty := by
        rw [hty, Value.ty_of_ofText? hvalue]
      exact keeps_assign hsame
  | .assert keyword condition quotation, machine => by
    unfold Stmt.exec
    apply keeps_compute
    intro value _
    apply keeps_compute
    intro _ _
    by_cases hfalse : value = .bool false
    · rw [if_pos hfalse]
      exact keeps_write _
    · rw [if_neg hfalse]
      exact .refl _ machine.store

/-- Statements keep the entries of the locked names, however their run ends. -/
theorem Program.exec_keeps : ∀ (program : List Stmt) (machine : Machine),
    Keeps (Program.exec program) machine
  | [], machine => by
    unfold Program.exec
    exact .refl _ machine.store
  | stmt :: rest, machine => by
    unfold Program.exec
    apply Ends.bind
    refine Ends.mono (Ends.and (Stmt.exec_grows stmt machine) (Stmt.exec_keeps stmt machine))
      ?_ fun _ _ hfailed => hfailed.2
    rintro _ middle ⟨hgrows, hkeeps⟩
    exact leaves_of_keeps hkeeps hgrows.store.locks_eq (Program.exec_keeps rest middle)

end

/-- The locks frame what statements do.  However their run ends, the locks are the
same as before and the entry of every locked name is untouched; and whatever
mistakes are found in them, checking them leaves the locks and the types of the
declared names as they were. -/
theorem Program.locks_are_framed (program : List Stmt) :
    (∀ machine : Machine, Leaves (Program.exec program) machine fun after =>
      after.store.locks = machine.store.locks ∧
        ∀ name ∈ machine.store.locks, ∀ entry, machine.store.find? name = some entry →
          after.store.find? name = some entry) ∧
    ∀ scope : TypeScope, (Program.check program scope).1.locks = scope.locks ∧
      ∀ name ty, scope.ty? name = some ty →
        (Program.check program scope).1.ty? name = some ty := by
  constructor
  · intro machine
    have hgrows := Program.exec_grows program machine
    have hkeeps := Program.exec_keeps program machine
    refine Ends.mono (Ends.and hgrows hkeeps) ?_ ?_
    · rintro _ after ⟨hafter, hkept⟩
      exact ⟨hafter.store.locks_eq, hkept.find?_eq⟩
    · rintro _ after ⟨hafter, hkept⟩
      exact ⟨hafter.store.locks_eq, hkept.find?_eq⟩
  · intro scope
    have hgrows := Program.check_grows program scope
    exact ⟨hgrows.locks_eq, hgrows.keeps⟩

/-! ## One program after the other -/

namespace Machine

/-- A run leaves the machine that its statements leave, whatever the output does
when it is flushed. -/
theorem run_snd {program : Program} {machine : Machine} {stated : Machine → Prop}
    (hleaves : Leaves (Program.exec program) machine stated) :
    stated (machine.run program).2 := by
  unfold Machine.run
  cases hexec : Program.exec program machine with
  | ok _ after =>
    have hstated : stated after := (Ends.of_ok hexec).1 hleaves
    cases hflush : after.output.flushFailure <;> simpa [hflush] using hstated
  | error fault after =>
    have hstated : stated after := (Ends.of_error hexec).1 hleaves
    cases hflush : after.output.flushFailure <;> simpa [hflush] using hstated

/-- Between two programs there are no locks, and every name has a value of its
type. -/
structure Settled (machine : Machine) : Prop where
  typed : machine.store.Typed
  locks_eq : machine.store.locks = []

/-- The declared names are still declared, with the same types. -/
def Extends (earlier later : Machine) : Prop :=
  ∀ name ty, earlier.store.ty? name = some ty → later.store.ty? name = some ty

/-- A machine is settled before its first program. -/
theorem settled_start (input : Input) (output : Output) : (start input output).Settled :=
  ⟨Store.typed_empty, rfl⟩

/-- A run leaves a settled machine with the names that it had, with a fault or
without. -/
theorem Settled.run {machine : Machine} (hsettled : machine.Settled) (program : Program) :
    (machine.run program).2.Settled ∧ machine.Extends (machine.run program).2 := by
  have hgrows := run_snd (Program.exec_grows program machine)
  have hkeeps := run_snd (Program.exec_keeps program machine)
  refine ⟨⟨hkeeps.typed hsettled.typed, ?_⟩, hgrows.store.keeps⟩
  rw [hgrows.store.locks_eq, hsettled.locks_eq]

/-- A program and the state that the streams are in when it is run.  They may be as the
run before it has left them; a sink or a source that has failed may also work again. -/
structure Task where
  program : Program
  input : Input
  output : Output
deriving DecidableEq, Repr

/-- The machine that a task leaves. -/
def perform (machine : Machine) (task : Task) : Machine :=
  ({ machine with input := task.input, output := task.output }.run task.program).2

/-- The streams do not matter for what a task keeps. -/
theorem Settled.perform {machine : Machine} (hsettled : machine.Settled) (task : Task) :
    (machine.perform task).Settled ∧ machine.Extends (machine.perform task) := by
  have hready : Settled { machine with input := task.input, output := task.output } :=
    ⟨hsettled.typed, hsettled.locks_eq⟩
  exact hready.run task.program

/-- The machines before, between and after the tasks that are performed one after the
other, each of them whether or not the one before it has failed. -/
def stages (machine : Machine) (tasks : List Task) : List Machine :=
  tasks.scanl perform machine

/-- The machines that follow a settled machine are settled, and they have its
names. -/
theorem Settled.stages {machine : Machine} (hsettled : machine.Settled) (tasks : List Task) :
    ∀ later ∈ machine.stages tasks, later.Settled ∧ machine.Extends later := by
  induction tasks generalizing machine with
  | nil =>
    intro later hlater
    have hsame : later = machine := by simpa [Machine.stages] using hlater
    rw [hsame]
    exact ⟨hsettled, fun _ _ hty => hty⟩
  | cons task rest ih =>
    intro later hlater
    have hperform := hsettled.perform task
    rw [Machine.stages, List.scanl_cons, List.mem_cons] at hlater
    rcases hlater with rfl | hlater
    · exact ⟨hsettled, fun _ _ hty => hty⟩
    · rcases ih hperform.1 later hlater with ⟨hlaterSettled, hextends⟩
      refine ⟨hlaterSettled, ?_⟩
      intro name ty hty
      exact hextends name ty (hperform.2 name ty hty)

/-- No machine loses a name that an earlier one has. -/
theorem Settled.pairwise_stages {machine : Machine} (hsettled : machine.Settled)
    (tasks : List Task) : (machine.stages tasks).Pairwise Extends := by
  induction tasks generalizing machine with
  | nil => simp [Machine.stages]
  | cons task rest ih =>
    have hperform := hsettled.perform task
    rw [Machine.stages, List.scanl_cons, List.pairwise_cons]
    refine ⟨?_, ih hperform.1⟩
    intro later hlater name ty hty
    exact (hperform.1.stages rest later hlater).2 name ty (hperform.2 name ty hty)

end Machine

/-- Between any programs that are run one after the other on one machine, every
declared name has a value of its type, no declared name gets lost or another type,
and nothing is locked.  The streams may be in any state when a program is run. -/
theorem store_typed_after_runs (input : Input) (output : Output) (tasks : List Machine.Task) :
    let machines := (Machine.start input output).stages tasks
    (∀ machine ∈ machines,
      (∀ name entry, machine.store.find? name = some entry → entry.content.ty = entry.ty) ∧
        machine.store.locks = []) ∧
    machines.Pairwise fun earlier later =>
      ∀ name ty, earlier.store.ty? name = some ty → later.store.ty? name = some ty := by
  intro machines
  have hstart := Machine.settled_start input output
  constructor
  · intro machine hmachine
    rcases hstart.stages tasks machine hmachine with ⟨hsettled, -⟩
    exact ⟨hsettled.typed, hsettled.locks_eq⟩
  · exact hstart.pairwise_stages tasks

/-- A sink without room ends the first run; the second one finds a sink that has room, and
the name that the first one has declared. -/
example :
    let name : Token := ⟨.identifier, "i", 1, 5, 4, 5⟩
    let first : Program :=
      [.declare name ⟨.intType, "int", 1, 7, 6, 9⟩ .int none, .print (.leaf name)]
    let tasks : List Machine.Task :=
      [⟨first, .empty, { Output.unlimited with capacity := some 0 }⟩,
        ⟨[.print (.leaf name)], .empty, .unlimited⟩]
    ((Machine.start .empty .unlimited).stages tasks).map
      (fun machine => (machine.store.get? "i", machine.output.written.toList)) =
        [(none, []), (some (.int 0), []), (some (.int 0), [0x30])] := by
  decide +kernel

end LoopLang
