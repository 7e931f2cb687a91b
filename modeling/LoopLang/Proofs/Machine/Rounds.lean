import LoopLang.Proofs.Machine.Store

/-!
# The rounds of a loop

A loop takes the numbers of its range in ascending order, whatever its body does to
the names that its bounds were computed from.  The range is fixed when the loop is
entered, the counter is locked until it is left, and the last number may be the
greatest one there is.

Main definitions:

- `Exec.values`: the numbers that a loop takes.
- `Exec.RunsThrough`: an action is run for one number after the other, up to the first
  fault.

Main results:

- Theorem `Exec.mem_values_rounds`: the numbers are those of the range.
- Theorem `Exec.runsThrough_countUp`: the rounds of a loop run through them.
- Theorem `Exec.countUp_add`: rounds may be split anywhere.
- Theorem `Stmt.exec_loop_closed_range`: a loop over a closed range.
-/

namespace LoopLang

namespace Exec

/-! ## The numbers of a range -/

/-- The given number of integers from `i` on. -/
def values : Nat → Int64 → List Int64
  | 0, _ => []
  | rounds + 1, i => i :: values rounds (i + 1)

/-- The next integer, unless there is no greater one. -/
theorem toInt_succ {i last : Int64} (hlt : i < last) : (i + 1).toInt = i.toInt + 1 := by
  rw [Int64.lt_iff_toInt_lt] at hlt
  have hleast := i.le_toInt
  have hgreatest := last.toInt_lt
  rw [Int64.toInt_add]
  exact Int.bmod_eq_of_le_mul_two (by simp; omega) (by simp; omega)

/-- The step from one integer to the next before the last one. -/
theorem add_succ_toInt {rounds : Nat} {i last : Int64}
    (hend : i.toInt + (rounds + 1 : Nat) = last.toInt + 1) (hmore : rounds ≠ 0) :
    i < i + 1 ∧ (i + 1).toInt + rounds = last.toInt + 1 := by
  have hlt : i < last := by
    rw [Int64.lt_iff_toInt_lt]
    omega
  rw [Int64.lt_iff_toInt_lt, toInt_succ hlt]
  omega

/-- The integers from `i` on are those up to the last one. -/
theorem mem_values {rounds : Nat} {i last : Int64} (hend : i.toInt + rounds = last.toInt + 1)
    (j : Int64) : j ∈ values rounds i ↔ i ≤ j ∧ j ≤ last := by
  rw [Int64.le_iff_toInt_le, Int64.le_iff_toInt_le]
  induction rounds generalizing i with
  | zero =>
    simp only [values, List.not_mem_nil, false_iff]
    omega
  | succ rounds ih =>
    rw [values, List.mem_cons, ← Int64.toInt_inj]
    -- behind the last number the counter may wrap around, so this round stands apart
    by_cases hlast : rounds = 0
    · subst hlast
      simp only [values, List.not_mem_nil, or_false]
      omega
    · rcases add_succ_toInt hend hlast with ⟨-, hrest⟩
      rw [ih hrest]
      omega

/-- The counter goes up from round to round. -/
theorem pairwise_values {rounds : Nat} {i last : Int64}
    (hend : i.toInt + rounds = last.toInt + 1) : (values rounds i).Pairwise (· < ·) := by
  induction rounds generalizing i with
  | zero => exact .nil
  | succ rounds ih =>
    by_cases hlast : rounds = 0
    · subst hlast
      exact List.pairwise_singleton _ _
    · rcases add_succ_toInt hend hlast with ⟨hnext, hrest⟩
      refine .cons ?_ (ih hrest)
      intro j hj
      exact Int64.lt_of_lt_of_le hnext ((mem_values hrest j).1 hj).1

/-- The last round has the last value of the range. -/
theorem getLast?_values {rounds : Nat} {i last : Int64}
    (hend : i.toInt + (rounds + 1 : Nat) = last.toInt + 1) :
    (values (rounds + 1) i).getLast? = some last := by
  induction rounds generalizing i with
  | zero =>
    have hsame : i = last := Int64.toInt_inj.1 (by omega)
    simp [values, hsame]
  | succ rounds ih =>
    rcases add_succ_toInt hend (Nat.succ_ne_zero rounds) with ⟨-, hrest⟩
    rw [values, List.getLast?_cons, ih hrest]
    rfl

/-- There is no round if the range is empty. -/
theorem rounds_eq_zero {first last : Int64} (hlt : last < first) : rounds first last = 0 := by
  rw [Int64.lt_iff_toInt_lt] at hlt
  simp only [rounds]
  omega

/-- The rounds of a loop end with the last number. -/
theorem add_rounds_toInt {first last : Int64} (hle : first ≤ last) :
    first.toInt + rounds first last = last.toInt + 1 := by
  rw [Int64.le_iff_toInt_le] at hle
  simp only [rounds]
  omega

/-- A loop takes the numbers of its closed range. -/
theorem mem_values_rounds {first last : Int64} (i : Int64) :
    i ∈ values (rounds first last) first ↔ first ≤ i ∧ i ≤ last := by
  by_cases hle : first ≤ last
  · exact mem_values (add_rounds_toInt hle) i
  · rw [rounds_eq_zero (Int64.not_le.1 hle)]
    simp only [values, List.not_mem_nil, false_iff]
    rintro ⟨hfirst, hlast⟩
    exact hle (Int64.le_trans hfirst hlast)

/-- The values of a range go up. -/
theorem pairwise_values_rounds (first last : Int64) :
    (values (rounds first last) first).Pairwise (· < ·) := by
  by_cases hle : first ≤ last
  · exact pairwise_values (add_rounds_toInt hle)
  · rw [rounds_eq_zero (Int64.not_le.1 hle)]
    exact .nil

/-- Unless the range is empty, the last number is its end. -/
theorem getLast?_values_rounds {first last : Int64} (hle : first ≤ last) :
    (values (rounds first last) first).getLast? = some last := by
  have hend := add_rounds_toInt hle
  rw [Int64.le_iff_toInt_le] at hle
  cases hrounds : rounds first last with
  | zero =>
    rw [hrounds] at hend
    omega
  | succ more =>
    rw [hrounds] at hend
    exact getLast?_values hend

/-! ## The rounds -/

/-- The machine at the beginning of a round. -/
def entering (name : String) (i : Int64) (machine : Machine) : Machine :=
  { machine with store := machine.store.set name (.int i) }

/-- From the machine on, the action is run for one value after the other, each of them as
the content of the name.  It is entered on the listed machines, and the first fault
ends it. -/
inductive RunsThrough (name : String) (action : Exec Unit) : List Int64 → Machine →
    List Machine → EStateM.Result Fault Machine Unit → Prop where
  | done {machine : Machine} : RunsThrough name action [] machine [] (.ok () machine)
  | failed {i : Int64} {rest : List Int64} {machine after : Machine} {fault : Fault}
      (hround : action (entering name i machine) = .error fault after) :
      RunsThrough name action (i :: rest) machine [entering name i machine] (.error fault after)
  | next {i : Int64} {rest : List Int64} {machine middle : Machine} {entered : List Machine}
      {result : EStateM.Result Fault Machine Unit}
      (hround : action (entering name i machine) = .ok () middle)
      (hrest : RunsThrough name action rest middle entered result) :
      RunsThrough name action (i :: rest) machine (entering name i machine :: entered) result

/-- The name is an integer, and it is locked. -/
structure Guards (name : String) (machine : Machine) : Prop where
  ty?_eq : machine.store.ty? name = some .int
  locked : name ∈ machine.store.locks

/-- The action keeps the locks, and it keeps a name that is locked. -/
def Spares (name : String) (action : Exec Unit) : Prop :=
  ∀ machine after, Guards name machine → action machine = .ok () after →
    after.store.locks = machine.store.locks ∧ after.store.find? name = machine.store.find? name

/-- When a round begins, the counter has its number. -/
theorem Guards.find?_entering {name : String} {machine : Machine} (hguards : Guards name machine)
    (i : Int64) : (entering name i machine).store.find? name = some ⟨.int, .int i⟩ := by
  rcases Option.map_eq_some_iff.1 hguards.ty?_eq with ⟨entry, hentry, hty⟩
  rw [entering, Scope.find?_set, if_pos rfl, hentry, ← hty]
  rfl

/-- A round begins with the counter still declared and locked. -/
theorem Guards.entering {name : String} {machine : Machine} (hguards : Guards name machine)
    (i : Int64) : Guards name (entering name i machine) := by
  refine ⟨?_, hguards.locked⟩
  rw [Scope.ty?, hguards.find?_entering]
  rfl

section Rounds

variable {name : String} {action : Exec Unit}

/-- A round leaves the counter and the lock for the next one. -/
theorem Spares.round (hspares : Spares name action) {machine after : Machine}
    (hguards : Guards name machine) {i : Int64}
    (hround : action (entering name i machine) = .ok () after) :
    Guards name after ∧ after.store.find? name = some ⟨.int, .int i⟩ := by
  rcases hspares _ _ (hguards.entering i) hround with ⟨hlocks, hfind⟩
  rw [hguards.find?_entering] at hfind
  refine ⟨⟨?_, ?_⟩, hfind⟩
  · rw [Scope.ty?, hfind]
    rfl
  · rw [hlocks]
    exact hguards.locked

/-- A loop runs its body through the numbers of its range. -/
theorem runsThrough_countUp (hspares : Spares name action) (rounds : Nat) (i : Int64)
    {machine : Machine} (hguards : Guards name machine) :
    ∃ entered, RunsThrough name action (values rounds i) machine entered
      (countUp name action rounds i machine) := by
  induction rounds generalizing i machine with
  | zero => exact ⟨[], .done⟩
  | succ rounds ih =>
    have hdeclared : machine.store.isDeclared name = true :=
      Scope.isDeclared_iff.2 ⟨_, hguards.ty?_eq⟩
    have hstep : change name (fun store => store.overwrite name (.int i)) machine =
        .ok () (entering name i machine) := by
      simp only [change, Scope.overwrite, if_pos hdeclared]
      rfl
    cases hround : action (entering name i machine) with
    | error fault after =>
      have hrun : countUp name action (rounds + 1) i machine = .error fault after := by
        simp only [countUp, bind, EStateM.bind, hstep, hround]
      rw [hrun]
      exact ⟨_, .failed hround⟩
    | ok _ middle =>
      have hrun : countUp name action (rounds + 1) i machine =
          countUp name action rounds (i + 1) middle := by
        simp only [countUp, bind, EStateM.bind, hstep, hround]
      rcases ih (i + 1) (hspares.round hguards hround).1 with ⟨entered, hrest⟩
      rw [hrun]
      exact ⟨_, .next hround hrest⟩

namespace RunsThrough

variable {numbers : List Int64} {machine after : Machine} {entered : List Machine}
  {result : EStateM.Result Fault Machine Unit}

/-- The action is entered with the numbers in their order, up to the fault. -/
theorem counters (hruns : RunsThrough name action numbers machine entered result)
    (hspares : Spares name action) (hguards : Guards name machine) :
    entered.map (fun machine => machine.store.get? name) <+:
      numbers.map fun i => some (.int i) := by
  induction hruns with
  | done => exact List.prefix_rfl
  | @failed i rest machine after fault hround =>
    simp [Scope.get?, hguards.find?_entering i]
  | @next i rest machine middle entered result hround hrest ih =>
    have hmore := ih (hspares.round hguards hround).1
    simp only [List.map_cons, Scope.get?, hguards.find?_entering i, Option.map_some]
    exact (List.cons_prefix_cons).2 ⟨rfl, hmore⟩

/-- Without a fault, the action is entered with all of them. -/
theorem length_of_ok (hruns : RunsThrough name action numbers machine entered (.ok () after)) :
    entered.length = numbers.length := by
  generalize hresult : EStateM.Result.ok () after = result at hruns
  induction hruns with
  | done => rfl
  | failed => cases hresult
  | next hround hrest ih => rw [List.length_cons, List.length_cons, ih hresult]

/-- Without a fault, the counter keeps the last of the numbers. -/
theorem get?_of_ok (hruns : RunsThrough name action numbers machine entered (.ok () after))
    (hspares : Spares name action) (hguards : Guards name machine) {last : Int64}
    (hlast : numbers.getLast? = some last) : after.store.get? name = some (.int last) := by
  generalize hresult : EStateM.Result.ok () after = result at hruns
  induction hruns with
  | done => cases hlast
  | failed => cases hresult
  | @next i rest machine middle entered result hround hrest ih =>
    rcases hspares.round hguards hround with ⟨hmiddle, hfind⟩
    cases hrest with
    | done =>
      cases hresult
      cases hlast
      simp [Scope.get?, hfind]
    | failed => cases hresult
    | next hround' hrest' =>
      rw [List.getLast?_cons_cons] at hlast
      exact ih hmiddle hlast hresult

end RunsThrough

end Rounds

/-! ## Splitting a range -/

/-- Rounds may be split anywhere: the later ones go on with the next number. -/
theorem countUp_add (name : String) (action : Exec Unit) (rounds more : Nat) (i : Int64) :
    countUp name action (rounds + more) i = (do
      countUp name action rounds i
      countUp name action more (i + .ofNat rounds)) := by
  induction rounds generalizing i with
  | zero => simp [countUp]
  | succ rounds ih =>
    have hnext : i + 1 + Int64.ofNat rounds = i + Int64.ofNat (rounds + 1) := by
      rw [Int64.ofNat_add]
      grind
    rw [Nat.succ_add, countUp, ih, countUp, hnext]
    simp only [bind_assoc]

/-- The number of rounds over a closed range is the sum of those over its parts. -/
theorem rounds_eq_add {first middle last : Int64} (hfirst : first ≤ middle)
    (hlast : middle < last) :
    rounds first last = rounds first middle + rounds (middle + 1) last := by
  have hnext : (middle + 1).toInt = middle.toInt + 1 := toInt_succ hlast
  rw [Int64.le_iff_toInt_le] at hfirst
  rw [Int64.lt_iff_toInt_lt] at hlast
  simp only [rounds, hnext]
  omega

/-- After the rounds of a range comes the number behind it. -/
theorem add_rounds {first last : Int64} (hle : first ≤ last) :
    first + .ofNat (rounds first last) = last + 1 := by
  have hend := add_rounds_toInt hle
  have hcount : ((rounds first last : Nat) : Int) = last.toInt - first.toInt + 1 := by omega
  rw [← Int64.ofInt_eq_ofNat, hcount, Int64.ofInt_add, Int64.ofInt_sub, Int64.ofInt_toInt,
    Int64.ofInt_toInt]
  have hone : Int64.ofInt 1 = 1 := rfl
  rw [hone]
  grind

/-- Two actions that do the same on a machine, and after which the same is done. -/
theorem bind_congr_at {α β : Type} {action other : Exec α} {next next' : α → Exec β}
    {machine : Machine} (haction : action machine = other machine)
    (hnext : ∀ a middle, action machine = .ok a middle → next a middle = next' a middle) :
    (action >>= next) machine = (other >>= next') machine := by
  cases hrun : action machine with
  | error fault after => simp only [bind, EStateM.bind, ← haction, hrun]
  | ok a middle => simp only [bind, EStateM.bind, ← haction, hrun, hnext a middle hrun]

/-- What an action ends with, after the lock has been taken back. -/
def release : EStateM.Result Fault Machine Unit → EStateM.Result Fault Machine Unit
  | .ok () machine => .ok () { machine with store := machine.store.unlock }
  | .error fault machine => .error fault { machine with store := machine.store.unlock }

/-- An action that has ended without a fault has left the machine with the lock. -/
theorem release_eq_ok {result : EStateM.Result Fault Machine Unit} {after : Machine}
    (hresult : release result = .ok () after) :
    ∃ left, result = .ok () left ∧ after = { left with store := left.store.unlock } := by
  cases result with
  | error fault left => cases hresult
  | ok _ left =>
    cases hresult
    exact ⟨left, rfl, rfl⟩

/-- An action under a lock is the action on the locked store, after which the lock is taken
back. -/
theorem locking_eq_release (name : String) (action : Exec Unit) (machine : Machine) :
    locking name action machine =
      release (action { machine with store := machine.store.lock name }) := by
  unfold locking release
  cases action { machine with store := machine.store.lock name } <;> rfl

/-- A lock that is taken back and taken again between two actions makes no difference. -/
theorem locking_bind {name : String} {action next : Exec Unit} {machine : Machine}
    (hlocks : ∀ after, action { machine with store := machine.store.lock name } = .ok () after →
      after.store.locks = name :: machine.store.locks) :
    locking name (do action; next) machine = (do
      locking name action
      locking name next) machine := by
  cases haction : action { machine with store := machine.store.lock name } with
  | error fault after => simp only [locking, bind, EStateM.bind, haction]
  | ok _ after =>
    have hrelocked : after.store.unlock.lock name = after.store := by
      rw [Scope.lock, Scope.unlock, hlocks after haction]
      exact congrArg (Scope.mk _) (hlocks after haction).symm
    simp only [locking, bind, EStateM.bind, haction, hrelocked]

end Exec

open Exec

/-! ## Loops -/

/-- Statements spare the locked names. -/
theorem Program.exec_spares (program : Program) (name : String) :
    Spares name (Program.exec program) := by
  intro machine after hguards hrun
  have hgrows := (Ends.of_ok hrun).1 (Program.exec_grows program machine)
  have hkeeps := (Ends.of_ok hrun).1 (Program.exec_keeps program machine)
  rcases Option.map_eq_some_iff.1 hguards.ty?_eq with ⟨entry, hentry, -⟩
  refine ⟨hgrows.store.locks_eq, ?_⟩
  rw [hentry]
  exact hkeeps.find?_eq name hguards.locked entry hentry

namespace Stmt

variable {counter : Token} {first last : Expr} {body : Program} {machine : Machine} {a b : Int64}

/-- A loop over a counter that is an integer and not locked. -/
theorem exec_loop (hty : machine.store.ty? counter.text = some .int)
    (hunlocked : machine.store.isLocked counter.text = false)
    (hfirst : first.eval machine.store = .ok (.int a))
    (hlast : last.eval machine.store = .ok (.int b)) :
    (Stmt.loop counter first last body).exec machine =
      locking counter.text (countUp counter.text (Program.exec body) (rounds a b) a) machine := by
  have htarget : machine.store.target counter.text = .ok .int :=
    Scope.target_eq_ok.2 ⟨hty, hunlocked⟩
  have hfrom : first.evalInt machine.store = .ok a := by
    rw [Expr.evalInt, hfirst]
    rfl
  have hto : last.evalInt machine.store = .ok b := by
    rw [Expr.evalInt, hlast]
    rfl
  simp only [Stmt.exec, bind, EStateM.bind, target, compute, htarget, hfrom, hto, if_true]

/-- A loop over a closed range does what the loops over its two parts do, one after the
other. -/
theorem exec_loop_parts (hty : machine.store.ty? counter.text = some .int)
    (hunlocked : machine.store.isLocked counter.text = false)
    (hfirst : first.eval machine.store = .ok (.int a))
    (hlast : last.eval machine.store = .ok (.int b)) {c : Int64} (hle : a ≤ c) (hlt : c < b)
    {from₁ to₁ from₂ to₂ : Expr} (hfrom₁ : from₁.eval machine.store = .ok (.int a))
    (hto₁ : to₁.eval machine.store = .ok (.int c))
    (hbounds : ∀ middle, (Stmt.loop counter from₁ to₁ body).exec machine = .ok () middle →
      from₂.eval middle.store = .ok (.int (c + 1)) ∧ to₂.eval middle.store = .ok (.int b)) :
    Program.exec [.loop counter from₁ to₁ body, .loop counter from₂ to₂ body] machine =
      (Stmt.loop counter first last body).exec machine := by
  let part := countUp counter.text (Program.exec body) (rounds a c) a
  have hlocks : ∀ after, part { machine with store := machine.store.lock counter.text } =
      .ok () after → after.store.locks = counter.text :: machine.store.locks := by
    intro after hafter
    have hgrows : Grows (Program.declared body) part :=
      .countUp (Program.exec_grows body) (rounds a c) a
    exact ((Ends.of_ok hafter).1 (hgrows _)).store.locks_eq
  have hpart : (Stmt.loop counter from₁ to₁ body).exec machine =
      locking counter.text part machine :=
    exec_loop hty hunlocked hfrom₁ hto₁
  have hsequence :
      Program.exec [.loop counter from₁ to₁ body, .loop counter from₂ to₂ body] = (do
        (Stmt.loop counter from₁ to₁ body).exec
        (Stmt.loop counter from₂ to₂ body).exec) := by
    simp [Program.exec]
  rw [hsequence, exec_loop hty hunlocked hfirst hlast, rounds_eq_add hle hlt, countUp_add,
    add_rounds hle, locking_bind hlocks]
  apply bind_congr_at hpart
  intro _ middle hmiddle
  have hgrows := (Ends.of_ok hmiddle).1 (Stmt.exec_grows _ machine)
  have hstillUnlocked : middle.store.isLocked counter.text = false := by
    rw [Scope.isLocked, hgrows.store.locks_eq]
    exact hunlocked
  rcases hbounds middle hmiddle with ⟨hfrom₂, hto₂⟩
  exact exec_loop (hgrows.store.keeps _ _ hty) hstillUnlocked hfrom₂ hto₂

/-- A loop over a closed range.  Its body is entered with the numbers of the range as the
content of the counter, in ascending order and no others, up to the first fault.
Without a fault the counter keeps the last number; an empty range changes nothing.
Anywhere in between the loop may be split into two. -/
theorem exec_loop_closed_range (hty : machine.store.ty? counter.text = some .int)
    (hunlocked : machine.store.isLocked counter.text = false)
    (hfirst : first.eval machine.store = .ok (.int a))
    (hlast : last.eval machine.store = .ok (.int b)) :
    (∃ numbers entered result,
      numbers.Pairwise (· < ·) ∧ (∀ i, i ∈ numbers ↔ a ≤ i ∧ i ≤ b) ∧
      RunsThrough counter.text (Program.exec body) numbers
        { machine with store := machine.store.lock counter.text } entered result ∧
      (Stmt.loop counter first last body).exec machine = release result ∧
      entered.map (fun machine => machine.store.get? counter.text) <+:
        numbers.map (fun i => some (.int i)) ∧
      ∀ after, result = .ok () after → entered.length = numbers.length) ∧
    (∀ after, (Stmt.loop counter first last body).exec machine = .ok () after → a ≤ b →
      after.store.get? counter.text = some (.int b)) ∧
    (b < a → (Stmt.loop counter first last body).exec machine = .ok () machine) ∧
    ∀ c, a ≤ c → c < b → ∀ from₁ to₁ from₂ to₂ : Expr,
      from₁.eval machine.store = .ok (.int a) → to₁.eval machine.store = .ok (.int c) →
      (∀ middle, (Stmt.loop counter from₁ to₁ body).exec machine = .ok () middle →
        from₂.eval middle.store = .ok (.int (c + 1)) ∧ to₂.eval middle.store = .ok (.int b)) →
      Program.exec [.loop counter from₁ to₁ body, .loop counter from₂ to₂ body] machine =
        (Stmt.loop counter first last body).exec machine := by
  let locked : Machine := { machine with store := machine.store.lock counter.text }
  have hguards : Guards counter.text locked := ⟨hty, List.mem_cons_self⟩
  have hspares := Program.exec_spares body counter.text
  have hexec : (Stmt.loop counter first last body).exec machine =
      release (countUp counter.text (Program.exec body) (rounds a b) a locked) := by
    rw [exec_loop hty hunlocked hfirst hlast, locking_eq_release]
  rcases runsThrough_countUp hspares (rounds a b) a hguards with ⟨entered, hruns⟩
  refine ⟨?_, ?_, ?_, ?_⟩
  · refine ⟨values (rounds a b) a, entered, _, pairwise_values_rounds a b,
      mem_values_rounds, hruns, hexec, hruns.counters hspares hguards, ?_⟩
    intro after hafter
    rw [hafter] at hruns
    exact hruns.length_of_ok
  · intro after hafter hle
    rw [hexec] at hafter
    rcases release_eq_ok hafter with ⟨left, hleft, rfl⟩
    rw [hleft] at hruns
    exact hruns.get?_of_ok hspares hguards (getLast?_values_rounds hle)
  · intro hlt
    rw [hexec, rounds_eq_zero hlt]
    rfl
  · intro c hle hlt from₁ to₁ from₂ to₂ hfrom₁ hto₁ hbounds
    exact exec_loop_parts hty hunlocked hfirst hlast hle hlt hfrom₁ hto₁ hbounds

end Stmt

/-- The literal of a number. -/
def Expr.number (text : String) : Expr := .leaf ⟨.integerLiteral, text, 1, 1, 0, 0⟩

/-- A number has the value that its text denotes. -/
theorem Expr.eval_number {text : String} {i : Int64}
    (htext : Value.ofText? text .int = some (.int i)) (store : Store) :
    (Expr.number text).eval store = .ok (.int i) := by
  simp [Expr.number, Expr.eval, Expr.evalLeaf, TokenKind.literalType?, htext]

/-- A machine on which `n` is the greatest integer. -/
def nearlyFull : Machine :=
  { Machine.start .empty .unlimited with
    store := ⟨[("i", ⟨.int, .int 0⟩), ("n", ⟨.int, .int Int64.maxValue⟩)], []⟩ }

/-- A loop whose body assigns the name that its last number comes from. -/
def shrinking (first last : Expr) : Stmt :=
  .loop ⟨.identifier, "i", 1, 5, 4, 5⟩ first last
    [.assign ⟨.identifier, "n", 1, 9, 8, 9⟩ (.number "5")]

/-- A loop up to the greatest integer ends after it, and a bound that its body changes is
not looked at again. -/
theorem Stmt.exec_loop_up_to_greatest :
    let whole := shrinking (.number "9223372036854775806") (.leaf ⟨.identifier, "n", 1, 7, 6, 7⟩)
    (∃ after, whole.exec nearlyFull = .ok () after ∧
      after.store.get? "i" = some (.int Int64.maxValue) ∧
      after.store.get? "n" = some (.int 5)) ∧
    Program.exec
        [shrinking (.number "9223372036854775806") (.number "9223372036854775806"),
          shrinking (.number "9223372036854775807") (.number "9223372036854775807")] nearlyFull =
      whole.exec nearlyFull := by
  intro whole
  have hnumber : ∀ store, (Expr.number "9223372036854775806").eval store =
      .ok (.int (Int64.maxValue - 1)) :=
    Expr.eval_number (by decide +kernel)
  have hgreatest : ∀ store, (Expr.number "9223372036854775807").eval store =
      .ok (.int Int64.maxValue) :=
    Expr.eval_number (by decide +kernel)
  have hwhole := @Stmt.exec_loop_closed_range ⟨.identifier, "i", 1, 5, 4, 5⟩
    (.number "9223372036854775806") (.leaf ⟨.identifier, "n", 1, 7, 6, 7⟩)
    [.assign ⟨.identifier, "n", 1, 9, 8, 9⟩ (.number "5")] nearlyFull _ Int64.maxValue rfl rfl
    (hnumber _) rfl
  rcases hwhole with ⟨-, hlast, -, hparts⟩
  constructor
  · have hdone : (match whole.exec nearlyFull with
        | .ok _ after => after.store.get? "n" == some (.int 5)
        | .error _ _ => false) = true := by
      decide +kernel
    cases hrun : whole.exec nearlyFull with
    | error fault after =>
      rw [hrun] at hdone
      cases hdone
    | ok _ after =>
      rw [hrun] at hdone
      exact ⟨after, rfl, hlast after hrun (by decide), beq_iff_eq.1 hdone⟩
  · refine hparts (Int64.maxValue - 1) (by decide) (by decide) _ _ _ _ (hnumber _) (hnumber _) ?_
    intro middle _
    exact ⟨hgreatest _, hgreatest _⟩

end LoopLang
