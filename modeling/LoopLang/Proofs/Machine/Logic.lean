import LoopLang.Machine.Exec
import LoopLang.Proofs.Scope.Growth

/-!
# A logic of actions

How an action of a machine ends: with a result, or with a fault.  There is one
rule for each operation of the machine, so that statements are followed without
looking at what the operations do.

Main definitions:

- `Ends`: what holds when an action has ended.

Main results:

- Theorem `Ends.bind`: two actions, one after the other.
- Theorem `Ends.declare`: the declaration of a name, in a loop and outside.
- Theorem `Ends.countUp`: the rounds of a loop, by an invariant.
-/

namespace LoopLang

namespace Exec

variable {α β : Type}

/-- The action, begun on the machine, ends with a result and a machine as stated
first, or with a fault and a machine as stated second. -/
def Ends (action : Exec α) (machine : Machine) (done : α → Machine → Prop)
    (failed : Fault → Machine → Prop) : Prop :=
  match action machine with
  | .ok a after => done a after
  | .error fault after => failed fault after

namespace Ends

variable {action : Exec α} {machine : Machine} {done : α → Machine → Prop}
  {failed : Fault → Machine → Prop}

theorem of_ok {a : α} {after : Machine} (hrun : action machine = .ok a after) :
    Ends action machine done failed ↔ done a after := by
  rw [Ends, hrun]

theorem of_error {fault : Fault} {after : Machine} (hrun : action machine = .error fault after) :
    Ends action machine done failed ↔ failed fault after := by
  rw [Ends, hrun]

theorem pure {a : α} (hdone : done a machine) : Ends (Pure.pure a) machine done failed :=
  hdone

theorem throw {fault : Fault} (hfailed : failed fault machine) :
    Ends (MonadExcept.throw fault : Exec α) machine done failed :=
  hfailed

/-- Two actions, one after the other: the second one begins where the first one
has ended. -/
theorem bind {next : α → Exec β} {result : β → Machine → Prop}
    (haction : Ends action machine (fun a after => Ends (next a) after result failed) failed) :
    Ends (action >>= next) machine result failed := by
  cases hrun : action machine with
  | ok a after =>
    have hwhole : (action >>= next) machine = next a after := by
      simp only [Bind.bind, EStateM.bind, hrun]
    rw [of_ok hrun] at haction
    unfold Ends at haction ⊢
    rw [hwhole]
    exact haction
  | error fault after =>
    have hwhole : (action >>= next) machine = .error fault after := by
      simp only [Bind.bind, EStateM.bind, hrun]
    rw [of_error hrun] at haction
    exact (of_error hwhole).2 haction

/-- Looking at the machine changes nothing. -/
theorem get_bind {next : Machine → Exec β} {result : β → Machine → Prop}
    (hnext : Ends (next machine) machine result failed) :
    Ends (get >>= next) machine result failed :=
  hnext

/-- What is stated may be replaced by what follows from it. -/
theorem mono {weaker : α → Machine → Prop} {weakerFailed : Fault → Machine → Prop}
    (haction : Ends action machine done failed)
    (hdone : ∀ a after, done a after → weaker a after)
    (hfailed : ∀ fault after, failed fault after → weakerFailed fault after) :
    Ends action machine weaker weakerFailed := by
  cases hrun : action machine with
  | ok a after =>
    rw [of_ok hrun] at haction ⊢
    exact hdone a after haction
  | error fault after =>
    rw [of_error hrun] at haction ⊢
    exact hfailed fault after haction

/-- What holds in any case holds beside what else is stated. -/
theorem and {done' : α → Machine → Prop} {failed' : Fault → Machine → Prop}
    (hfirst : Ends action machine done failed) (hsecond : Ends action machine done' failed') :
    Ends action machine (fun a after => done a after ∧ done' a after)
      (fun fault after => failed fault after ∧ failed' fault after) := by
  cases hrun : action machine with
  | ok a after =>
    rw [of_ok hrun] at hfirst hsecond ⊢
    exact ⟨hfirst, hsecond⟩
  | error fault after =>
    rw [of_error hrun] at hfirst hsecond ⊢
    exact ⟨hfirst, hsecond⟩

/-! ## The operations of a machine -/

/-- A computation leaves the machine as it is, with a result or with a fault. -/
theorem compute {f : Store → Except Fault α}
    (hdone : ∀ a, f machine.store = .ok a → done a machine)
    (hfailed : ∀ fault, f machine.store = .error fault → failed fault machine) :
    Ends (Exec.compute f) machine done failed := by
  unfold Ends Exec.compute
  cases hvalue : f machine.store with
  | ok a => exact hdone a hvalue
  | error fault => exact hfailed fault hvalue

/-- A value is of a type or it is not. -/
theorem expect {value : Value} {ty : Ty} {done : Unit → Machine → Prop}
    (hdone : value.ty = ty → done () machine)
    (hmismatch : value.ty ≠ ty → failed (.typeAssertion ty value.ty) machine) :
    Ends (Exec.compute fun _ => value.expect ty) machine done failed := by
  unfold Value.expect
  by_cases hty : value.ty = ty
  · simp only [hty, if_true]
    exact hdone hty
  · simp only [hty, if_false]
    exact hmismatch hty

/-- The type of a name that is declared and not locked. -/
theorem target {name : String} {done : Ty → Machine → Prop}
    (hdone : ∀ ty, machine.store.ty? name = some ty → machine.store.isLocked name = false →
      done ty machine)
    (hundeclared : machine.store.isDeclared name = false → failed (.undeclared name) machine)
    (hlocked : machine.store.isDeclared name = true → machine.store.isLocked name = true →
      failed (.locked name) machine) :
    Ends (Exec.target name) machine done failed := by
  refine compute ?_ ?_
  · intro ty hty
    cases htarget : machine.store.target name with
    | error refusal =>
      rw [htarget] at hty
      cases hty
    | ok other =>
      rw [htarget] at hty
      cases hty
      rcases Scope.target_eq_ok.1 htarget with ⟨hty, hunlocked⟩
      exact hdone ty hty hunlocked
  · intro fault hfault
    cases htarget : machine.store.target name with
    | ok ty =>
      rw [htarget] at hfault
      cases hfault
    | error refusal =>
      rw [htarget] at hfault
      cases hfault
      rcases Scope.target_eq_error htarget with ⟨rfl, hname⟩ | ⟨rfl, hname⟩
      · exact hundeclared hname
      · exact hlocked hname.1 hname.2

section Changes

variable {name : String} {done : Unit → Machine → Prop}

/-- A change puts the new store in place of the old one, or it is refused. -/
theorem change {f : Store → Except Refusal Store}
    (hdone : ∀ store, f machine.store = .ok store → done () { machine with store := store })
    (hfailed : ∀ refusal, f machine.store = .error refusal →
      failed (refusal.toFault name) machine) :
    Ends (Exec.change name f) machine done failed := by
  unfold Ends Exec.change
  cases hstore : f machine.store with
  | ok store => exact hdone store hstore
  | error refusal => exact hfailed refusal hstore

/-- A name is assigned unless it is locked or not declared. -/
theorem assign {value : Value}
    (hdone : machine.store.isDeclared name = true → machine.store.isLocked name = false →
      done () { machine with store := machine.store.set name value })
    (hundeclared : machine.store.isDeclared name = false → failed (.undeclared name) machine)
    (hlocked : machine.store.isDeclared name = true → machine.store.isLocked name = true →
      failed (.locked name) machine) :
    Ends (Exec.assign name value) machine done failed := by
  refine change ?_ ?_
  · intro store hstore
    rcases Scope.assign_eq_ok.1 hstore with ⟨⟨ty, htarget⟩, rfl⟩
    rcases Scope.target_eq_ok.1 htarget with ⟨hty, hunlocked⟩
    exact hdone (Scope.isDeclared_iff.2 ⟨ty, hty⟩) hunlocked
  · intro refusal hrefusal
    rcases Scope.target_eq_error (Scope.assign_eq_error hrefusal) with ⟨rfl, hname⟩ | ⟨rfl, hname⟩
    · exact hundeclared hname
    · exact hlocked hname.1 hname.2

/-- A new name is declared.  A name that is declared again gets its first value
back if this happens in a loop, its type is the same and it is not locked. -/
theorem declare {ty : Ty}
    (hnew : ∀ store, machine.store.declare name ty (.zero ty) = .ok store →
      done () { machine with store := store })
    (hagain : machine.store.ty? name = some ty → machine.store.inLoop = true →
      machine.store.isLocked name = false →
      done () { machine with store := machine.store.set name (.zero ty) })
    (hredeclared : machine.store.isDeclared name = true → machine.store.inLoop = false →
      failed (.redeclared name) machine)
    (hlocked : machine.store.isDeclared name = true → machine.store.isLocked name = true →
      failed (.locked name) machine)
    (hmismatch : ∀ other, machine.store.ty? name = some other → other ≠ ty →
      failed (.typeAssertion other ty) machine) :
    Ends (Exec.declare name ty) machine done failed := by
  apply get_bind
  by_cases hmet : (machine.store.isDeclared name && machine.store.inLoop) = true
  · rw [if_pos hmet]
    rcases Bool.and_eq_true_iff.1 hmet with ⟨hdeclared, hloop⟩
    have hundeclared : ¬machine.store.isDeclared name = false := by
      rw [hdeclared]
      decide
    refine bind (target ?_ (fun hname => absurd hname hundeclared) hlocked)
    intro other hother hunlocked
    refine bind (expect ?_ ?_)
    · intro hsame
      rw [Value.ty_zero] at hsame
      rw [← hsame] at hother
      refine assign ?_ (fun hname => absurd hname hundeclared) hlocked
      intro _ _
      exact hagain hother hloop hunlocked
    · intro hother'
      rw [Value.ty_zero] at hother' ⊢
      exact hmismatch other hother (Ne.symm hother')
  · rw [if_neg hmet]
    apply change hnew
    intro refusal hrefusal
    unfold Scope.declare at hrefusal
    split at hrefusal
    · next hdeclared =>
      cases hrefusal
      refine hredeclared hdeclared (Bool.eq_false_iff.2 ?_)
      intro hloop
      exact hmet (Bool.and_eq_true_iff.2 ⟨hdeclared, hloop⟩)
    · cases hrefusal

/-- Writing either succeeds or finds too little room. -/
theorem write {text : String}
    (hdone : done () { machine with output := machine.output.store (Utf8.encode text.toList) })
    (hfailed : failed (.stream Output.full)
      { machine with output := machine.output.store (Utf8.encode text.toList) }) :
    Ends (Exec.write text) machine done failed := by
  unfold Ends Exec.write
  by_cases hfits : machine.output.fits (Utf8.encode text.toList) = true
  · simp only [hfits, if_true]
    exact hdone
  · simp only [hfits]
    exact hfailed

/-- The lock is taken back however the action ends. -/
theorem locking {action : Exec Unit}
    (haction : Ends action { machine with store := machine.store.lock name }
      (fun _ after => done () { after with store := after.store.unlock })
      (fun fault after => failed fault { after with store := after.store.unlock })) :
    Ends (Exec.locking name action) machine done failed := by
  unfold Ends Exec.locking at *
  cases hrun : action { machine with store := machine.store.lock name } with
  | ok a after =>
    rw [hrun] at haction
    exact haction
  | error fault after =>
    rw [hrun] at haction
    exact haction

/-- The rounds of a loop keep what each round keeps. -/
theorem countUp {action : Exec Unit} (invariant : Machine → Prop)
    (hround : ∀ i machine, invariant machine →
      Ends (Exec.change name fun store => store.overwrite name (.int i)) machine
        (fun _ middle => Ends action middle (fun _ after => invariant after) failed) failed)
    (rounds : Nat) (i : Int64) (hstart : invariant machine) :
    Ends (Exec.countUp name action rounds i) machine (fun _ after => invariant after) failed := by
  induction rounds generalizing i machine with
  | zero => exact pure hstart
  | succ rounds ih =>
    unfold Exec.countUp
    refine bind (mono (hround i machine hstart) ?_ fun _ _ hfailed => hfailed)
    intro _ middle hmiddle
    refine bind (mono hmiddle ?_ fun _ _ hfailed => hfailed)
    intro _ after hafter
    exact ih (i + 1) hafter

end Changes

/-- Reading takes a word, or the input has no further one. -/
theorem readWord {done : String → Machine → Prop}
    (hdone : ∀ word input, machine.input.readWord = (.ok word, input) →
      done word { machine with input := input })
    (hfailed : ∀ fault input, machine.input.readWord = (.error fault, input) →
      failed fault { machine with input := input }) :
    Ends Exec.readWord machine done failed := by
  unfold Ends Exec.readWord
  rcases hread : machine.input.readWord with ⟨result, input⟩
  cases result with
  | ok word => exact hdone word input hread
  | error fault => exact hfailed fault input hread

end Ends

end Exec

end LoopLang
