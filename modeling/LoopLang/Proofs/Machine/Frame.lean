import LoopLang.Proofs.Machine.Logic

/-!
# What a run keeps

Running statements adds the names that they declare and no others.  A declared
name keeps its type, and the locks are the same when the run has ended, with a
fault or without.  What the output does when it is flushed is not up to the run.

Main definitions:

- `Machine.Grows`: what a run can do to a machine.
- `Exec.Grows`: the action does no more than this.

Main results:

- Theorem `Program.exec_grows`: a list of statements adds some of the names that it
  declares.
-/

namespace LoopLang

/-- The store has got some of the given names, and the output is still the same
one. -/
structure Machine.Grows (names : List String) (before after : Machine) : Prop where
  store : before.store.Grows names after.store
  flushFailure_eq : after.output.flushFailure = before.output.flushFailure

namespace Machine.Grows

variable {names more : List String} {first second third : Machine}

theorem refl (names : List String) (machine : Machine) : Grows names machine machine :=
  ⟨.refl names machine.store, rfl⟩

theorem trans (hfirst : Grows names first second) (hsecond : Grows names second third) :
    Grows names first third := by
  refine ⟨hfirst.store.trans hsecond.store, ?_⟩
  rw [hsecond.flushFailure_eq, hfirst.flushFailure_eq]

theorem mono (hgrows : Grows names first second) (hsub : names ⊆ more) :
    Grows more first second :=
  ⟨hgrows.store.mono hsub, hgrows.flushFailure_eq⟩

end Machine.Grows

namespace Exec

variable {α β : Type}

/-- However the action ends, the machine has grown by some of the given names. -/
def Grows (names : List String) (action : Exec α) : Prop :=
  ∀ machine, Ends action machine (fun _ after => machine.Grows names after)
    (fun _ after => machine.Grows names after)

namespace Grows

variable {names : List String}

theorem pure (a : α) : Grows names (Pure.pure a : Exec α) := by
  intro machine
  exact Ends.pure (.refl names machine)

theorem throw (fault : Fault) : Grows names (MonadExcept.throw fault : Exec α) := by
  intro machine
  exact Ends.throw (.refl names machine)

/-- Two actions, one after the other. -/
theorem bind {action : Exec α} {next : α → Exec β} (haction : Grows names action)
    (hnext : ∀ a, Grows names (next a)) : Grows names (action >>= next) := by
  intro machine
  refine Ends.bind (Ends.mono (haction machine) ?_ fun _ _ hgrows => hgrows)
  intro a middle hfirst
  refine Ends.mono (hnext a middle) ?_ ?_
  · intro _ after hsecond
    exact hfirst.trans hsecond
  · intro _ after hsecond
    exact hfirst.trans hsecond

theorem mono {action : Exec α} {more : List String} (haction : Grows names action)
    (hsub : names ⊆ more) : Grows more action := by
  intro machine
  exact Ends.mono (haction machine) (fun _ _ hgrows => hgrows.mono hsub)
    (fun _ _ hgrows => hgrows.mono hsub)

theorem compute (f : Store → Except Fault α) : Grows names (Exec.compute f) := by
  intro machine
  exact Ends.compute (fun _ _ => .refl names machine) (fun _ _ => .refl names machine)

/-- A change of the store adds the names that it adds there. -/
theorem change {name : String} {f : Store → Except Refusal Store}
    (hf : ∀ store after, f store = .ok after → store.Grows names after) :
    Grows names (Exec.change name f) := by
  intro machine
  apply Ends.change
  · intro store hstore
    exact ⟨hf machine.store store hstore, rfl⟩
  · intro _ _
    exact .refl names machine

/-- An assignment adds no name. -/
theorem assign (name : String) (value : Value) : Grows names (Exec.assign name value) := by
  apply change
  intro store after hafter
  rcases Scope.assign_eq_ok.1 hafter with ⟨-, rfl⟩
  exact Scope.grows_set names store name value

theorem overwrite (name : String) (value : Value) :
    Grows names (Exec.change name fun store => store.overwrite name value) := by
  apply change
  intro store after hafter
  unfold Scope.overwrite at hafter
  split at hafter
  · cases hafter
    exact Scope.grows_set names store name value
  · cases hafter

/-- Declaring a name adds this name, if any. -/
theorem declare (name : String) (ty : Ty) : Grows [name] (Exec.declare name ty) := by
  intro machine
  apply Ends.declare
  · intro store hstore
    exact ⟨Scope.grows_declare hstore, rfl⟩
  · intro _ _ _
    exact ⟨Scope.grows_set [name] machine.store name (.zero ty), rfl⟩
  · intro _ _
    exact .refl [name] machine
  · intro _ _
    exact .refl [name] machine
  · intro _ _ _
    exact .refl [name] machine

/-- Writing adds no name, and the output keeps its room. -/
theorem write (text : String) : Grows names (Exec.write text) := by
  intro machine
  exact Ends.write ⟨.refl names machine.store, rfl⟩ ⟨.refl names machine.store, rfl⟩

theorem readWord : Grows names Exec.readWord := by
  intro machine
  exact Ends.readWord (fun _ _ _ => ⟨.refl names machine.store, rfl⟩)
    (fun _ _ _ => ⟨.refl names machine.store, rfl⟩)

/-- The lock is gone when the action has ended. -/
theorem locking {name : String} {action : Exec Unit} (haction : Grows names action) :
    Grows names (Exec.locking name action) := by
  intro machine
  apply Ends.locking
  refine Ends.mono (haction _) ?_ ?_
  · intro _ after hgrows
    exact ⟨hgrows.store.unlock, hgrows.flushFailure_eq⟩
  · intro _ after hgrows
    exact ⟨hgrows.store.unlock, hgrows.flushFailure_eq⟩

/-- The rounds of a loop add what its body adds. -/
theorem countUp {name : String} {action : Exec Unit} (haction : Grows names action) (rounds : Nat)
    (i : Int64) : Grows names (Exec.countUp name action rounds i) := by
  induction rounds generalizing i with
  | zero => exact pure ()
  | succ rounds ih =>
    unfold Exec.countUp
    exact bind (overwrite name (.int i)) fun _ => bind haction fun _ => ih (i + 1)

end Grows

end Exec

open Exec

mutual

/-- Running a statement adds the names that it declares. -/
theorem Stmt.exec_grows : ∀ stmt : Stmt, Grows stmt.declared stmt.exec
  | .declare name _ ty initial => by
    unfold Stmt.exec Stmt.declared
    refine .bind (.declare name.text ty) fun _ => ?_
    cases initial with
    | none => exact .pure ()
    | some expr =>
      exact .bind (.compute _) fun value => .bind (.compute _) fun _ => .assign name.text value
  | .assign name expr => by
    unfold Stmt.exec
    refine .bind (.compute _) fun ty => .bind (.compute _) fun value => ?_
    exact .bind (.compute _) fun _ => .assign name.text value
  | .loop counter first last body => by
    unfold Stmt.exec Stmt.declared
    refine .bind (.compute _) fun ty => ?_
    by_cases hty : ty = .int
    · rw [if_pos hty]
      refine .bind (.compute _) fun i => .bind (.compute _) fun j => ?_
      exact .locking (.countUp (Program.exec_grows body) (rounds i j) i)
    · rw [if_neg hty]
      exact .throw _
  | .print expr => by
    unfold Stmt.exec
    exact .bind (.compute _) fun value => .write value.text
  | .read name => by
    unfold Stmt.exec
    refine .bind (.compute _) fun ty => .bind .readWord fun word => ?_
    cases Value.ofText? word ty with
    | none => exact .throw _
    | some value => exact .assign name.text value
  | .assert keyword condition quotation => by
    unfold Stmt.exec
    refine .bind (.compute _) fun value => .bind (.compute _) fun _ => ?_
    by_cases hfalse : value = .bool false
    · rw [if_pos hfalse]
      exact .write _
    · rw [if_neg hfalse]
      exact .pure ()

/-- Running statements adds the names that they declare. -/
theorem Program.exec_grows : ∀ program : List Stmt, Grows (Program.declared program)
    (Program.exec program)
  | [] => by
    unfold Program.exec
    exact .pure ()
  | stmt :: rest => by
    unfold Program.exec Program.declared
    refine .bind ((Stmt.exec_grows stmt).mono (List.subset_append_left _ _)) fun _ => ?_
    exact (Program.exec_grows rest).mono (List.subset_append_right _ _)

end

end LoopLang
