import LoopLang.Proofs.Machine.Rounds

/-!
# Outputs that become full

A run is followed twice, once with an output that takes everything and once with
room for a limited number of bytes.  The second run does what the first one does
until a text does not fit.  There it stops: the enclosing loops give back their
locks, and no further statement is begun.

Main definitions:

- `Output.cut`: the output with room for so many bytes.
- `Program.steps`: the statements that a run executes, each with the machine that
  it begins on.
- `Truncates`: how the two runs of an action are related.

Main results:

- Theorem `Program.tracing`: statements are truncated, whatever loops they are in.
- Theorem `run_truncated`: a run whose output has room for `n` bytes.
-/

namespace LoopLang

/-! ## Outputs -/

namespace Output

variable {output : Output} {n : Nat}

/-- The output with room for `n` bytes in all, and with as many of its bytes. -/
def cut (n : Nat) (output : Output) : Output :=
  { output with written := (output.written.toList.take n).toArray, capacity := some n }

/-- Nothing is taken away where there is room. -/
theorem written_cut (hroom : output.written.size ≤ n) :
    (output.cut n).written = output.written := by
  show (output.written.toList.take n).toArray = output.written
  rw [List.take_of_length_le hroom, Array.toArray_toList]

/-- Without a limit everything is written. -/
theorem toList_store_of_free (hfree : output.capacity = none) (bytes : List UInt8) :
    (output.store bytes).written.toList = output.written.toList ++ bytes := by
  rw [toList_store, fitting, hfree]

/-- A text fits if it ends within the room. -/
theorem fits_cut (hfree : output.capacity = none) (hroom : output.written.size ≤ n)
    (bytes : List UInt8) :
    (output.cut n).fits bytes = decide ((output.store bytes).written.size ≤ n) := by
  have hsize : (output.store bytes).written.size = output.written.size + bytes.length := by
    rw [← Array.length_toList, toList_store_of_free hfree, List.length_append,
      Array.length_toList]
  show decide (bytes.length ≤ n - (output.cut n).written.size) = _
  rw [written_cut hroom, hsize, decide_eq_decide]
  omega

/-- It is stored as far as it fits. -/
theorem store_cut (hfree : output.capacity = none) (hroom : output.written.size ≤ n)
    (bytes : List UInt8) : (output.cut n).store bytes = (output.store bytes).cut n := by
  have hfitting : (output.cut n).fitting bytes = bytes.take (n - output.written.size) := by
    show bytes.take (n - (output.cut n).written.size) = _
    rw [written_cut hroom]
  have hwritten : ((output.cut n).store bytes).written = ((output.store bytes).cut n).written := by
    apply Array.toList_inj.1
    show _ = (output.store bytes).written.toList.take n
    rw [toList_store, written_cut hroom, hfitting, toList_store_of_free hfree, List.take_append,
      Array.length_toList, List.take_of_length_le hroom]
  show (⟨((output.cut n).store bytes).written, some n, output.flushFailure⟩ : Output) = _
  rw [hwritten]
  rfl

/-- What was written stays, and more may have been written after it. -/
structure Extends (before after : Output) : Prop where
  written : before.written.toList <+: after.written.toList
  capacity : after.capacity = before.capacity
  flushFailure : after.flushFailure = before.flushFailure

namespace Extends

variable {first second third : Output}

theorem refl (output : Output) : Extends output output :=
  ⟨List.prefix_rfl, rfl, rfl⟩

theorem trans (hfirst : Extends first second) (hsecond : Extends second third) :
    Extends first third :=
  ⟨hfirst.written.trans hsecond.written, hsecond.capacity.trans hfirst.capacity,
    hsecond.flushFailure.trans hfirst.flushFailure⟩

/-- Writing only adds bytes at the end. -/
theorem store (output : Output) (bytes : List UInt8) : Extends output (output.store bytes) := by
  refine ⟨?_, rfl, rfl⟩
  rw [toList_store]
  exact List.prefix_append _ _

theorem size_le (hextends : Extends first second) : first.written.size ≤ second.written.size :=
  hextends.written.length_le

/-- What comes when there is no more room makes no difference. -/
theorem cut_eq (hextends : Extends first second) (hfull : n ≤ first.written.size) :
    second.cut n = first.cut n := by
  obtain ⟨more, hmore⟩ := hextends.written
  have hwritten : second.written.toList.take n = first.written.toList.take n := by
    rw [← hmore, List.take_append_of_le_length hfull]
  simp only [cut, hwritten, hextends.flushFailure]

end Extends

end Output

/-- The machine whose output has room for `n` bytes. -/
def Machine.cut (n : Nat) (machine : Machine) : Machine :=
  { machine with output := machine.output.cut n }

/-- The machine after a text has been written, as far as there is room for it. -/
def Machine.wrote (text : String) (machine : Machine) : Machine :=
  { machine with output := machine.output.store (Utf8.encode text.toList) }

namespace Exec

variable {α β : Type}

/-! ## Outcomes -/

/-- What an action ends with. -/
abbrev Outcome (α : Type) := EStateM.Result Fault Machine α

/-- The machine that an action leaves. -/
def left : Outcome α → Machine
  | .ok _ after => after
  | .error _ after => after

/-- The same outcome, with another machine left. -/
def onLeft (f : Machine → Machine) : Outcome α → Outcome α
  | .ok a after => .ok a (f after)
  | .error fault after => .error fault (f after)

@[simp]
theorem left_onLeft (f : Machine → Machine) (outcome : Outcome α) :
    left (onLeft f outcome) = f (left outcome) := by
  cases outcome <;> rfl

/-- After an action that succeeds the next one goes on. -/
theorem bind_of_ok {action : Exec α} {next : α → Exec β} {machine after : Machine} {a : α}
    (haction : action machine = .ok a after) : (action >>= next) machine = next a after := by
  simp only [bind, EStateM.bind, haction]

theorem bind_of_error {action : Exec α} {next : α → Exec β} {machine after : Machine}
    {fault : Fault} (haction : action machine = .error fault after) :
    (action >>= next) machine = .error fault after := by
  simp only [bind, EStateM.bind, haction]

/-! ## Actions that write nothing -/

/-- Begun on the machine, the action does not look at the output and leaves it as
it is. -/
def SilentAt (action : Exec α) (machine : Machine) : Prop :=
  ∀ output, action { machine with output := output } =
    onLeft (fun after => { after with output := output }) (action machine)

/-- The action writes nothing. -/
def Silent (action : Exec α) : Prop := ∀ machine, SilentAt action machine

namespace SilentAt

variable {action : Exec α} {machine : Machine}

/-- An action that writes nothing leaves the output as it is. -/
theorem output_left (hsilent : SilentAt action machine) :
    (left (action machine)).output = machine.output := by
  have hsame := congrArg (fun outcome => (left outcome).output) (hsilent machine.output)
  rwa [left_onLeft] at hsame

/-- The room of the output makes no difference. -/
theorem cut (hsilent : SilentAt action machine) (n : Nat) :
    action (machine.cut n) = onLeft (Machine.cut n) (action machine) := by
  have houtput := hsilent.output_left
  rw [Machine.cut, hsilent]
  cases hrun : action machine with
  | ok a after =>
    rw [hrun] at houtput
    simp only [onLeft, Machine.cut, ← houtput, left]
  | error fault after =>
    rw [hrun] at houtput
    simp only [onLeft, Machine.cut, ← houtput, left]

end SilentAt

namespace Silent

theorem pure (a : α) : Silent (Pure.pure a : Exec α) := fun _ _ => rfl

theorem throw (fault : Fault) : Silent (MonadExcept.throw fault : Exec α) := fun _ _ => rfl

theorem bind {action : Exec α} {next : α → Exec β} (haction : Silent action)
    (hnext : ∀ a, Silent (next a)) : Silent (action >>= next) := by
  intro machine output
  have hother := haction machine output
  cases hrun : action machine with
  | ok a after =>
    rw [hrun] at hother
    rw [bind_of_ok hrun, bind_of_ok hother]
    exact hnext a after output
  | error fault after =>
    rw [hrun] at hother
    rw [bind_of_error hrun, bind_of_error hother]
    rfl

/-- A computation writes nothing. -/
theorem compute (f : Store → Except Fault α) : Silent (Exec.compute f) := by
  intro machine output
  unfold Exec.compute
  cases f machine.store <;> rfl

theorem change (name : String) (f : Store → Except Refusal Store) :
    Silent (Exec.change name f) := by
  intro machine output
  unfold Exec.change
  cases f machine.store <;> rfl

theorem target (name : String) : Silent (Exec.target name) := compute _

theorem assign (name : String) (value : Value) : Silent (Exec.assign name value) := change name _

theorem readWord : Silent Exec.readWord := by
  intro machine output
  unfold Exec.readWord
  rcases machine.input.readWord with ⟨result, input⟩
  cases result <;> rfl

theorem declare (name : String) (ty : Ty) : Silent (Exec.declare name ty) := by
  have hbranch : ∀ met : Bool, Silent (if met = true then do
        let declared ← Exec.target name
        Exec.compute fun _ => (Value.zero ty).expect declared
        Exec.assign name (.zero ty)
      else Exec.change name fun store => store.declare name ty (.zero ty)) := by
    intro met
    cases met with
    | false =>
      rw [if_neg Bool.false_ne_true]
      exact change name _
    | true =>
      rw [if_pos rfl]
      refine (target name).bind fun declared => ?_
      exact (compute _).bind fun _ => assign name _
  intro machine output
  exact hbranch (machine.store.isDeclared name && machine.store.inLoop) machine output

end Silent

/-! ## Actions that write one text -/

/-- What there is room for is written whether or not the text fits. -/
theorem left_write (text : String) (machine : Machine) :
    left (write text machine) = machine.wrote text := by
  simp only [write]
  split <;> rfl

/-- Without a limit writing succeeds. -/
theorem write_of_free {machine : Machine} (hfree : machine.output.capacity = none)
    (text : String) : write text machine = .ok () (machine.wrote text) := by
  have hfits : machine.output.fits (Utf8.encode text.toList) = true := by
    rw [Output.fits, hfree]
  unfold write
  rw [if_pos hfits]
  rfl

/-- With less room the write may fail, and what it leaves is cut. -/
theorem write_cut {machine : Machine} {n : Nat} (hfree : machine.output.capacity = none)
    (hroom : machine.output.written.size ≤ n) (text : String) :
    write text (machine.cut n) =
      if (machine.wrote text).output.written.size ≤ n then .ok () ((machine.wrote text).cut n)
      else .error (.stream Output.full) ((machine.wrote text).cut n) := by
  have hleft : (machine.cut n).wrote text = (machine.wrote text).cut n := by
    have hstore := Output.store_cut hfree hroom (Utf8.encode text.toList)
    simp only [Machine.wrote, Machine.cut, hstore]
  have hfits := Output.fits_cut hfree hroom (Utf8.encode text.toList)
  rw [← hleft]
  unfold write
  simp only [Machine.cut, hfits, decide_eq_true_eq]
  rfl

/-- Begun on the machine with whatever output, the action writes the text and does
nothing else. -/
def WritesAt (text : String) (action : Exec Unit) (machine : Machine) : Prop :=
  ∀ output, action { machine with output := output } =
    write text { machine with output := output }

/-- The action, wherever it is begun, writes one text or none. -/
def Reports (action : Exec Unit) : Prop :=
  ∀ machine, SilentAt action machine ∨ ∃ text, WritesAt text action machine

namespace Reports

theorem write (text : String) : Reports (Exec.write text) :=
  fun _ => .inr ⟨text, fun _ => rfl⟩

theorem pure : Reports (Pure.pure ()) :=
  fun machine => .inl (Silent.pure () machine)

/-- A computation before a report leaves the machine as it is. -/
theorem compute_bind {f : Store → Except Fault α} {next : α → Exec Unit}
    (hnext : ∀ a, Reports (next a)) : Reports (Exec.compute f >>= next) := by
  intro machine
  cases hvalue : f machine.store with
  | error fault =>
    have hfails : ∀ output, (Exec.compute f >>= next) { machine with output := output } =
        .error fault { machine with output := output } := by
      intro output
      apply bind_of_error
      simp only [Exec.compute, hvalue]
    left
    intro output
    rw [hfails output, hfails machine.output]
    rfl
  | ok a =>
    have hgoes : ∀ output, (Exec.compute f >>= next) { machine with output := output } =
        next a { machine with output := output } := by
      intro output
      apply bind_of_ok
      simp only [Exec.compute, hvalue]
    rcases hnext a machine with hsilent | ⟨text, hwrites⟩
    · left
      intro output
      rw [hgoes output, hsilent output, hgoes machine.output]
    · right
      refine ⟨text, fun output => ?_⟩
      rw [hgoes output, hwrites output]

end Reports

end Exec

/-! ## The statements of a run -/

open Exec

/-- A statement that is executed, with the machine that it begins on. -/
structure Step where
  stmt : Stmt
  before : Machine

/-- The step on a machine whose output has room for `n` bytes. -/
def Step.cut (n : Nat) (step : Step) : Step :=
  { step with before := step.before.cut n }

namespace Exec

/-- The steps after an action, none if it fails. -/
def stepsAfter {α : Type} (action : Exec α) (machine : Machine)
    (steps : α → Machine → List Step) : List Step :=
  match action machine with
  | .ok a after => steps a after
  | .error _ _ => []

/-- The steps of the rounds of a loop, given those of its body. -/
def roundSteps (name : String) (action : Exec Unit) (steps : Machine → List Step) :
    Nat → Int64 → Machine → List Step
  | 0, _, _ => []
  | rounds + 1, i, machine =>
    stepsAfter (change name fun store => store.overwrite name (.int i)) machine fun _ middle =>
      steps middle ++ stepsAfter action middle fun _ after =>
        roundSteps name action steps rounds (i + 1) after

end Exec

mutual

/-- The statements that a run of a statement executes: the statement itself and,
if it is a loop, those of its body, round by round. -/
def Stmt.steps : Stmt → Machine → List Step
  | .loop counter first last body => fun machine =>
    ⟨.loop counter first last body, machine⟩ ::
      stepsAfter (target counter.text) machine fun ty later =>
        if ty = .int then
          stepsAfter (compute fun store => first.evalInt store) later fun i later =>
            stepsAfter (compute fun store => last.evalInt store) later fun j later =>
              roundSteps counter.text (Program.exec body)
                (fun middle => Program.steps body middle) (rounds i j) i
                { later with store := later.store.lock counter.text }
        else []
  | stmt => fun machine => [⟨stmt, machine⟩]

/-- The statements that a run executes, in order and up to the first fault. -/
def Program.steps : List Stmt → Machine → List Step
  | [] => fun _ => []
  | stmt :: rest => fun machine =>
    stmt.steps machine ++ stepsAfter stmt.exec machine fun _ later => Program.steps rest later

end

/-! ## Two runs side by side -/

/-- The text of the step is the first one that goes beyond `n` bytes.  With no more
room than that the step fails, and it has changed nothing but the output. -/
structure Step.Overflows (n : Nat) (step : Step) : Prop where
  room : step.before.output.written.size ≤ n
  exceeds : n < (left (step.stmt.exec step.before)).output.written.size
  fails : ∃ output, step.stmt.exec (step.before.cut n) =
    .error (.stream Output.full) { step.before with output := output }

/-- A run has stopped in the step: the names have the values and the input is what
the step began with, and the output holds the first `n` bytes of the whole run. -/
structure Step.Stops (n : Nat) (step : Step) (whole stopped : Machine) : Prop where
  entries : stopped.store.entries = step.before.store.entries
  input : stopped.input = step.before.input
  output : stopped.output = whole.output.cut n

/-- How a run with room for `n` bytes compares with the whole run, both given by
their steps and their outcome.  Either everything fits, or the run stops in the
step whose text does not. -/
inductive Truncates (n : Nat) (steps : List Step) (outcome : Outcome Unit) :
    List Step → Outcome Unit → Prop where
  | fits (hroom : (left outcome).output.written.size ≤ n) :
      Truncates n steps outcome (steps.map (Step.cut n)) (onLeft (Machine.cut n) outcome)
  | full (front later : List Step) (last : Step) (stopped : Machine)
      (hmore : n < (left outcome).output.written.size) (hsteps : steps = front ++ last :: later)
      (hlast : last.Overflows n) (hstops : last.Stops n (left outcome) stopped) :
      Truncates n steps outcome ((front ++ [last]).map (Step.cut n))
        (.error (.stream Output.full) stopped)

/-- In any case the first `n` bytes are written. -/
theorem Truncates.output_left {n : Nat} {steps fewer : List Step} {outcome other : Outcome Unit}
    (htruncates : Truncates n steps outcome fewer other) :
    (left other).output = (left outcome).output.cut n := by
  cases htruncates with
  | fits hroom =>
    rw [left_onLeft]
    rfl
  | full front later last stopped hmore hsteps hlast hstops => exact hstops.output

/-- Steps that both runs have gone through come before. -/
theorem Truncates.prepend {n : Nat} {steps fewer : List Step} {outcome other : Outcome Unit}
    (htruncates : Truncates n steps outcome fewer other) (earlier : List Step) :
    Truncates n (earlier ++ steps) outcome (earlier.map (Step.cut n) ++ fewer) other := by
  cases htruncates with
  | fits hroom =>
    rw [← List.map_append]
    exact .fits hroom
  | full front later last stopped hmore hsteps hlast hstops =>
    rw [← List.map_append, ← List.append_assoc]
    refine .full (earlier ++ front) later last stopped hmore ?_ hlast hstops
    rw [hsteps, List.append_assoc]

/-- Taking back a lock changes no value of a name. -/
theorem Truncates.release {n : Nat} {steps fewer : List Step} {outcome other : Outcome Unit}
    (htruncates : Truncates n steps outcome fewer other) :
    Truncates n steps (Exec.release outcome) fewer (Exec.release other) := by
  cases htruncates with
  | fits hroom => cases outcome <;> exact .fits hroom
  | full front later last stopped hmore hsteps hlast hstops =>
    cases outcome <;> exact .full front later last _ hmore hsteps hlast
      ⟨hstops.entries, hstops.input, hstops.output⟩

/-- The action goes through the given steps, and room for fewer bytes truncates
it. -/
structure Exec.Tracing (steps : Machine → List Step) (action : Exec Unit) : Prop where
  grows : ∀ machine : Machine, machine.output.Extends (left (action machine)).output
  truncates : ∀ (n : Nat) (machine : Machine), machine.output.capacity = none →
    machine.output.written.size ≤ n →
    Truncates n (steps machine) (action machine) (steps (machine.cut n)) (action (machine.cut n))

namespace Exec.Tracing

variable {α : Type} {steps later : Machine → List Step} {action next : Exec Unit}

/-- An action that writes nothing and executes no statement. -/
theorem of_silent (hsilent : Silent action) : Tracing (fun _ => []) action where
  grows machine := by
    rw [(hsilent machine).output_left]
    exact .refl _
  truncates n machine _ hroom := by
    rw [(hsilent machine).cut n]
    apply Truncates.fits
    rwa [(hsilent machine).output_left]

/-- The statement whose execution the action is comes before its steps. -/
theorem begun (stmt : Stmt) (haction : Tracing steps action) :
    Tracing (fun machine => ⟨stmt, machine⟩ :: steps machine) action where
  grows := haction.grows
  truncates n machine hfree hroom :=
    (haction.truncates n machine hfree hroom).prepend [⟨stmt, machine⟩]

/-- A statement that writes at most one text. -/
theorem of_reports {stmt : Stmt} (hreports : Reports stmt.exec) :
    Tracing (fun machine => [⟨stmt, machine⟩]) stmt.exec where
  grows machine := by
    rcases hreports machine with hsilent | ⟨text, hwrites⟩
    · rw [hsilent.output_left]
      exact .refl _
    · have hrun := hwrites machine.output
      rw [show stmt.exec machine = write text machine from hrun, left_write]
      exact .store _ _
  truncates n machine hfree hroom := by
    rcases hreports machine with hsilent | ⟨text, hwrites⟩
    · rw [hsilent.cut n]
      apply Truncates.fits
      rwa [hsilent.output_left]
    · have hrun : stmt.exec machine = write text machine := hwrites machine.output
      have hcut : stmt.exec (machine.cut n) = write text (machine.cut n) :=
        hwrites (machine.output.cut n)
      rw [write_cut hfree hroom] at hcut
      rw [hrun, write_of_free hfree]
      by_cases hfits : (machine.wrote text).output.written.size ≤ n
      · rw [if_pos hfits] at hcut
        rw [hcut]
        exact .fits hfits
      · rw [if_neg hfits] at hcut
        have hexceeds : n < (left (stmt.exec machine)).output.written.size := by
          rw [hrun, left_write]
          exact Nat.lt_of_not_le hfits
        have hlast : Step.Overflows n ⟨stmt, machine⟩ := ⟨hroom, hexceeds, _, hcut⟩
        have hstops : Step.Stops n ⟨stmt, machine⟩ (machine.wrote text)
            ((machine.wrote text).cut n) := ⟨rfl, rfl, rfl⟩
        rw [hcut]
        exact .full [] [] ⟨stmt, machine⟩ _ (Nat.lt_of_not_le hfits) rfl hlast hstops

/-- Something that writes nothing comes first. -/
theorem after {head : Exec α} {next : α → Exec Unit} {steps : α → Machine → List Step}
    (hhead : Silent head) (hnext : ∀ a, Tracing (steps a) (next a)) :
    Tracing (fun machine => stepsAfter head machine steps) (head >>= next) where
  grows machine := by
    have houtput := (hhead machine).output_left
    cases hrun : head machine with
    | error fault after =>
      rw [hrun] at houtput
      rw [bind_of_error hrun, left, ← houtput]
      exact .refl _
    | ok a middle =>
      rw [hrun] at houtput
      rw [bind_of_ok hrun, ← houtput]
      exact (hnext a).grows middle
  truncates n machine hfree hroom := by
    have houtput := (hhead machine).output_left
    have hcut := (hhead machine).cut n
    cases hrun : head machine with
    | error fault after =>
      rw [hrun] at houtput hcut
      rw [bind_of_error hrun, bind_of_error hcut]
      simp only [stepsAfter, hrun, hcut]
      rw [← houtput] at hroom
      exact .fits hroom
    | ok a middle =>
      rw [hrun] at houtput hcut
      rw [bind_of_ok hrun, bind_of_ok hcut]
      simp only [stepsAfter, hrun, hcut]
      rw [← houtput] at hfree hroom
      exact (hnext a).truncates n middle hfree hroom

/-- One action after the other. -/
theorem seq (haction : Tracing steps action) (hnext : Tracing later next) :
    Tracing (fun machine => steps machine ++ stepsAfter action machine fun _ => later)
      (action >>= fun _ => next) where
  grows machine := by
    have hgrows := haction.grows machine
    cases hrun : action machine with
    | error fault after =>
      rw [hrun] at hgrows
      rw [bind_of_error hrun]
      exact hgrows
    | ok a middle =>
      rw [hrun] at hgrows
      rw [bind_of_ok hrun]
      exact hgrows.trans (hnext.grows middle)
  truncates n machine hfree hroom := by
    have hcut := haction.truncates n machine hfree hroom
    have hgrows := haction.grows machine
    generalize steps (machine.cut n) = fewer at hcut ⊢
    generalize hother : action (machine.cut n) = other at hcut
    cases hrun : action machine with
    | error fault after =>
      rw [hrun] at hcut
      obtain ⟨fault', after', rfl⟩ : ∃ fault' after', other = .error fault' after' := by
        cases hcut <;> exact ⟨_, _, rfl⟩
      rw [bind_of_error hrun, bind_of_error hother]
      simpa only [stepsAfter, hrun, hother, List.append_nil] using hcut
    | ok a middle =>
      rw [hrun] at hcut hgrows
      rw [bind_of_ok hrun]
      simp only [stepsAfter, hrun, hother]
      cases hcut with
      | fits hmiddle =>
        rw [bind_of_ok hother]
        exact (hnext.truncates n middle (hgrows.capacity.trans hfree) hmiddle).prepend _
      | full front rest last stopped hmore hsteps hlast hstops =>
        have hlater := hnext.grows middle
        have hsame := hlater.cut_eq (Nat.le_of_lt hmore)
        have hstops' : last.Stops n (left (next middle)) stopped :=
          ⟨hstops.entries, hstops.input, hstops.output.trans hsame.symm⟩
        rw [bind_of_error hother, List.append_nil]
        refine .full front (rest ++ later middle) last stopped
          (Nat.lt_of_lt_of_le hmore hlater.size_le) ?_ hlast hstops'
        rw [hsteps, List.append_assoc, List.cons_append]

/-- An action under a lock. -/
theorem locking (name : String) (haction : Tracing steps action) :
    Tracing (fun machine => steps { machine with store := machine.store.lock name })
      (Exec.locking name action) where
  grows machine := by
    have hgrows := haction.grows { machine with store := machine.store.lock name }
    rw [locking_eq_release]
    generalize action { machine with store := machine.store.lock name } = outcome at hgrows ⊢
    cases outcome <;> exact hgrows
  truncates n machine hfree hroom := by
    have hcut := haction.truncates n { machine with store := machine.store.lock name } hfree hroom
    rw [locking_eq_release, locking_eq_release]
    exact hcut.release

/-- The rounds of a loop. -/
theorem countUp (name : String) (haction : Tracing steps action) (rounds : Nat) (i : Int64) :
    Tracing (roundSteps name action steps rounds i) (Exec.countUp name action rounds i) := by
  induction rounds generalizing i with
  | zero => exact of_silent (Silent.pure ())
  | succ rounds ih =>
    exact after (Silent.change name _) fun _ => haction.seq (ih (i + 1))

end Exec.Tracing

mutual

/-- Statements are truncated. -/
theorem Stmt.tracing : ∀ stmt : Stmt, Tracing stmt.steps stmt.exec
  | .declare name keyword ty initial => by
    have hsilent : Silent (Stmt.exec (.declare name keyword ty initial)) := by
      unfold Stmt.exec
      refine .bind (.declare name.text ty) fun _ => ?_
      cases initial with
      | none => exact .pure ()
      | some expr =>
        exact .bind (.compute _) fun value => .bind (.compute _) fun _ => .assign name.text value
    unfold Stmt.steps
    exact (Tracing.of_silent hsilent).begun _
  | .assign name expr => by
    have hsilent : Silent (Stmt.exec (.assign name expr)) := by
      unfold Stmt.exec
      refine .bind (.target name.text) fun ty => .bind (.compute _) fun value => ?_
      exact .bind (.compute _) fun _ => .assign name.text value
    unfold Stmt.steps
    exact (Tracing.of_silent hsilent).begun _
  | .loop counter first last body => by
    unfold Stmt.exec Stmt.steps
    refine .begun _ (.after (.target counter.text) fun ty => ?_)
    by_cases hty : ty = .int
    · simp only [if_pos hty]
      refine .after (.compute _) fun i => .after (.compute _) fun j => ?_
      exact .locking counter.text (.countUp counter.text (Program.tracing body) (rounds i j) i)
    · simp only [if_neg hty]
      exact .of_silent (.throw _)
  | .print expr => by
    have hreports : Reports (Stmt.exec (.print expr)) := by
      unfold Stmt.exec
      exact .compute_bind fun value => .write value.text
    unfold Stmt.steps
    exact .of_reports hreports
  | .read name => by
    have hsilent : Silent (Stmt.exec (.read name)) := by
      unfold Stmt.exec
      refine .bind (.target name.text) fun ty => .bind .readWord fun word => ?_
      cases Value.ofText? word ty with
      | none => exact .throw _
      | some value => exact .assign name.text value
    unfold Stmt.steps
    exact (Tracing.of_silent hsilent).begun _
  | .assert keyword condition quotation => by
    have hreports : Reports (Stmt.exec (.assert keyword condition quotation)) := by
      unfold Stmt.exec
      refine .compute_bind fun value => .compute_bind fun _ => ?_
      by_cases hfalse : value = .bool false
      · rw [if_pos hfalse]
        exact .write _
      · rw [if_neg hfalse]
        exact .pure
    unfold Stmt.steps
    exact .of_reports hreports

/-- Statements one after the other are truncated. -/
theorem Program.tracing : ∀ program : List Stmt,
    Tracing (Program.steps program) (Program.exec program)
  | [] => by
    unfold Program.steps Program.exec
    exact .of_silent (.pure ())
  | stmt :: rest => by
    unfold Program.steps Program.exec
    exact (Stmt.tracing stmt).seq (Program.tracing rest)

end

/-! ## Whole runs -/

namespace Exec

/-- The result without the machine. -/
def answer : Outcome Unit → Except Fault Unit
  | .ok () _ => .ok ()
  | .error fault _ => .error fault

/-- An answer says nothing about the machine. -/
@[simp]
theorem answer_onLeft (f : Machine → Machine) (outcome : Outcome Unit) :
    answer (onLeft f outcome) = answer outcome := by
  cases outcome <;> rfl

end Exec

/-- If the output can be flushed, a run ends as its statements do. -/
theorem Machine.run_of_flushes {program : Program} {machine : Machine}
    (hflushes : (left (Program.exec program machine)).output.flushFailure = none) :
    machine.run program =
      (answer (Program.exec program machine), left (Program.exec program machine)) := by
  unfold Machine.run
  cases hrun : Program.exec program machine with
  | ok _ after =>
    rw [hrun] at hflushes
    simp only [left] at hflushes
    simp only [hflushes]
    rfl
  | error fault after =>
    rw [hrun] at hflushes
    simp only [left] at hflushes
    simp only [hflushes]
    rfl

/-- Statements give back the locks that they take. -/
theorem Program.locks_left (program : Program) (machine : Machine) :
    (left (Program.exec program machine)).store.locks = machine.store.locks := by
  have hgrows := Program.exec_grows program machine
  cases hrun : Program.exec program machine with
  | ok _ after => exact ((Ends.of_ok hrun).1 hgrows).store.locks_eq
  | error fault after => exact ((Ends.of_error hrun).1 hgrows).store.locks_eq

/-- A run whose output has room for `n` bytes, beside the same run with room for
everything.  It writes the first `n` bytes.  If these are all, the two runs are the
same, statement for statement.  Otherwise it ends in the statement whose text does
not fit: no other statement is begun, and the names and the input stay as they were
when that statement began. -/
theorem run_truncated (program : Program) (store : Store) (input : Input) (n : Nat) :
    let free : Machine := ⟨store, input, ⟨#[], none, none⟩⟩
    let limited : Machine := ⟨store, input, ⟨#[], some n, none⟩⟩
    let (result, whole) := free.run program
    let (answer, after) := limited.run program
    let bytes := whole.output.written.toList
    after.output.written.toList = bytes.take (min n bytes.length) ∧
      (bytes.length ≤ n →
        answer = result ∧ after.store = whole.store ∧ after.input = whole.input ∧
          Program.steps program limited = (Program.steps program free).map (Step.cut n)) ∧
      (n < bytes.length →
        answer = .error (.stream Output.full) ∧
          ∃ front last later,
            Program.steps program free = front ++ last :: later ∧
              Program.steps program limited = (front ++ [last]).map (Step.cut n) ∧
              last.Overflows n ∧ after.store = ⟨last.before.store.entries, store.locks⟩ ∧
              after.input = last.before.input) := by
  intro free limited
  have htracing := Program.tracing program
  have hflushes := (htracing.grows free).flushFailure
  have hflushes' := (htracing.grows limited).flushFailure
  have hlocks := Program.locks_left program limited
  have hlimited : free.cut n = limited := by
    simp [free, limited, Machine.cut, Output.cut]
  have hcut := htracing.truncates n free rfl (Nat.zero_le n)
  rw [hlimited] at hcut
  rw [Machine.run_of_flushes hflushes, Machine.run_of_flushes hflushes']
  generalize Program.steps program limited = fewer at hcut ⊢
  generalize Program.exec program limited = other at hcut hlocks ⊢
  refine ⟨?_, ?_, ?_⟩
  · show (left other).output.written.toList = _
    rw [hcut.output_left, ← List.take_eq_take_min]
    rfl
  · intro hroom
    cases hcut with
    | fits _ =>
      rw [answer_onLeft, left_onLeft]
      exact ⟨rfl, rfl, rfl, rfl⟩
    | full front later last stopped hmore => exact absurd hmore (Nat.not_lt.2 hroom)
  · intro hmore
    cases hcut with
    | fits hroom => exact absurd hmore (Nat.not_lt.2 hroom)
    | full front later last stopped _ hsteps hlast hstops =>
      have hstore : stopped.store = ⟨last.before.store.entries, store.locks⟩ := by
        rw [← hstops.entries]
        exact congrArg (Scope.mk stopped.store.entries) hlocks
      exact ⟨rfl, front, last, later, hsteps, rfl, hlast, hstore, hstops.input⟩

end LoopLang
