import LoopLang.Proofs.Machine.Safety

/-!
# Declarations and uses in a run

A run declares names and uses them, each any number of times.  The order of these
events decides whether it ends with the use of a name that is not declared.  For
an accepted source such a name is declared in the body of a loop: the check takes
the body as if it were always run, and the run may have skipped it.

Main definitions:

- `Event`: the declaration or the use of a name.
- `Program.events`: the events of a run, up to its end.
- `UsedFirst`: a name is used and was not declared before.

Main results:

- Theorem `Program.records`: the events of a run tell which names it declares and
  whether it ends with an undeclared name.
- Theorem `run_undeclared_iff_usedFirst`: when a run of an accepted source ends
  with an undeclared name.
-/

namespace LoopLang

/-! ## Events -/

/-- What happens to a name in a run. -/
inductive Event where
  | declares (name : String)
  | uses (name : String)
deriving DecidableEq, Repr

/-- The name is used and was not declared before. -/
def UsedFirst (name : String) (events : List Event) : Prop :=
  ∃ earlier later, events = earlier ++ .uses name :: later ∧ .declares name ∉ earlier

theorem not_usedFirst_nil (name : String) : ¬UsedFirst name [] := by
  intro hused
  rcases hused with ⟨earlier, later, hevents, -⟩
  simp at hevents

/-- What comes first counts; what follows a declaration does not. -/
theorem usedFirst_cons {name : String} {event : Event} {events : List Event} :
    UsedFirst name (event :: events) ↔
      event = .uses name ∨ (event ≠ .declares name ∧ UsedFirst name events) := by
  constructor
  · intro hused
    rcases hused with ⟨earlier, later, hevents, hearlier⟩
    cases earlier with
    | nil =>
      left
      exact (List.cons.inj hevents).1
    | cons head earlier =>
      rcases List.cons.inj hevents with ⟨rfl, hrest⟩
      rw [List.mem_cons, not_or] at hearlier
      right
      exact ⟨Ne.symm hearlier.1, earlier, later, hrest, hearlier.2⟩
  · intro hused
    rcases hused with rfl | ⟨hevent, earlier, later, rfl, hearlier⟩
    · exact ⟨[], events, rfl, List.not_mem_nil⟩
    · refine ⟨event :: earlier, later, rfl, ?_⟩
      rw [List.mem_cons, not_or]
      exact ⟨Ne.symm hevent, hearlier⟩

/-- A single use is one without a declaration before it. -/
theorem usedFirst_uses {name other : String} : UsedFirst name [.uses other] ↔ other = name := by
  rw [usedFirst_cons, Event.uses.injEq]
  simp [not_usedFirst_nil]

theorem not_usedFirst_declares (name other : String) : ¬UsedFirst name [.declares other] := by
  rw [usedFirst_cons]
  simp [not_usedFirst_nil]

/-- A name is used first in a row of events, or in the next one if the row does not declare
it. -/
theorem usedFirst_append {name : String} {events more : List Event} :
    UsedFirst name (events ++ more) ↔
      UsedFirst name events ∨ (.declares name ∉ events ∧ UsedFirst name more) := by
  induction events with
  | nil => simp [not_usedFirst_nil]
  | cons event events ih =>
    rw [List.cons_append, usedFirst_cons, usedFirst_cons, ih, List.mem_cons, not_or]
    constructor
    · intro hused
      rcases hused with huse | ⟨hevent, hused | ⟨hnot, hused⟩⟩
      · exact .inl (.inl huse)
      · exact .inl (.inr ⟨hevent, hused⟩)
      · exact .inr ⟨⟨Ne.symm hevent, hnot⟩, hused⟩
    · intro hused
      rcases hused with (huse | ⟨hevent, hused⟩) | ⟨⟨hevent, hnot⟩, hused⟩
      · exact .inl huse
      · exact .inr ⟨hevent, .inl hused⟩
      · exact .inr ⟨Ne.symm hevent, .inr ⟨hnot, hused⟩⟩

/-- Among uses only, the first one of a name is not declared before. -/
theorem usedFirst_map_uses {name : String} {names : List String} :
    UsedFirst name (names.map .uses) ↔ name ∈ names := by
  induction names with
  | nil => simp [not_usedFirst_nil]
  | cons other names ih =>
    rw [List.map_cons, usedFirst_cons, ih, List.mem_cons, Event.uses.injEq]
    simp [eq_comm]

/-- The given names after a computation, none if it fails. -/
def namesAfter {α : Type} (names : List String) : Except Fault α → List String
  | .ok _ => names
  | .error _ => []

/-- The names that an expression looks up, in the order of its evaluation and up
to the first fault. -/
def Expr.uses (store : Store) : Expr → List String
  | leaf token => if token.kind = .identifier then [token.text] else []
  | unary _ _ operand => operand.uses store
  | binary _ _ left right => left.uses store ++ namesAfter (right.uses store) (left.eval store)

/-- The events of an evaluation. -/
def Expr.events (store : Store) (expr : Expr) : List Event :=
  (expr.uses store).map .uses

namespace Exec

/-- The events after an action, none if it fails. -/
def followed {α : Type} (action : Exec α) (machine : Machine)
    (events : α → Machine → List Event) : List Event :=
  match action machine with
  | .ok a after => events a after
  | .error _ _ => []

/-- The events of the rounds of a loop, given those of its body. -/
def roundEvents (name : String) (action : Exec Unit) (events : Machine → List Event) :
    Nat → Int64 → Machine → List Event
  | 0, _, _ => []
  | rounds + 1, i, machine =>
    followed (change name fun store => store.overwrite name (.int i)) machine fun _ middle =>
      events middle ++ followed action middle fun _ after =>
        roundEvents name action events rounds (i + 1) after

end Exec

open Exec

mutual

/-- The events of a run of a statement. -/
def Stmt.events : Stmt → Machine → List Event
  | .declare name _ ty initial, machine =>
    .declares name.text :: followed (declare name.text ty) machine fun _ later =>
      match initial with
      | none => []
      | some value => value.events later.store
  | .assign name value, machine =>
    .uses name.text :: followed (target name.text) machine fun _ later =>
      value.events later.store
  | .loop counter first last body, machine =>
    .uses counter.text :: followed (target counter.text) machine fun ty later =>
      if ty = .int then
        first.events later.store ++
          followed (compute fun store => first.evalInt store) later fun i later =>
            last.events later.store ++
              followed (compute fun store => last.evalInt store) later fun j later =>
                roundEvents counter.text (Program.exec body)
                  (fun middle => Program.events body middle) (rounds i j) i
                  { later with store := later.store.lock counter.text }
      else []
  | .print value, machine => value.events machine.store
  | .read name, _ => [.uses name.text]
  | .assert _ condition _, machine => condition.events machine.store

/-- The events of a run of statements, up to the first fault. -/
def Program.events : List Stmt → Machine → List Event
  | [], _ => []
  | stmt :: rest, machine =>
    stmt.events machine ++ followed stmt.exec machine fun _ later => Program.events rest later

end

/-! ## Evaluation -/

/-- The computation looks up the given names: all of them are declared if it has a
result, and it fails with the one that is not. -/
def LooksUp {α : Type} (store : Store) (names : List String) : Except Fault α → Prop
  | .ok _ => ∀ name ∈ names, store.isDeclared name = true
  | .error fault => ∀ name,
      fault = .undeclared name ↔ store.isDeclared name = false ∧ name ∈ names

namespace LooksUp

variable {α β : Type} {store : Store} {names more : List String}

theorem ok (a : α) : LooksUp store [] (.ok a : Except Fault α) := by
  intro name hname
  cases hname

/-- A fault of another kind comes from no name. -/
theorem error {fault : Fault} (hfault : ∀ name, fault ≠ .undeclared name) :
    LooksUp store [] (.error fault : Except Fault α) := by
  intro name
  constructor
  · intro hsame
    exact absurd hsame (hfault name)
  · intro hname
    cases hname.2

/-- One computation after the other. -/
theorem bind {answer : Except Fault α} {next : α → Except Fault β}
    (hanswer : LooksUp store names answer) (hnext : ∀ a, LooksUp store more (next a)) :
    LooksUp store (names ++ namesAfter more answer) (answer >>= next) := by
  cases answer with
  | error fault =>
    rw [namesAfter, List.append_nil]
    exact hanswer
  | ok a =>
    have hmore := hnext a
    show LooksUp store (names ++ more) (next a)
    cases hlast : next a with
    | ok b =>
      rw [hlast] at hmore
      intro name hname
      rcases List.mem_append.1 hname with hname | hname
      · exact hanswer name hname
      · exact hmore name hname
    | error fault =>
      rw [hlast] at hmore
      intro name
      rw [hmore name, List.mem_append]
      constructor
      · intro hname
        exact ⟨hname.1, .inr hname.2⟩
      · intro hname
        rcases hname with ⟨hnot, hname | hname⟩
        · have hdeclared := hanswer name hname
          rw [hnot] at hdeclared
          cases hdeclared
        · exact ⟨hnot, hname⟩

/-- A computation that looks up no names may follow. -/
theorem bind_nil {answer : Except Fault α} {next : α → Except Fault β}
    (hanswer : LooksUp store names answer) (hnext : ∀ a, LooksUp store [] (next a)) :
    LooksUp store names (answer >>= next) := by
  have hwhole := hanswer.bind hnext
  have hnone : namesAfter [] answer = [] := by
    cases answer <;> rfl
  rw [hnone, List.append_nil] at hwhole
  exact hwhole

end LooksUp

namespace Expr

variable {store : Store}

/-- Comparing types looks up no name. -/
theorem looksUp_expect (value : Value) (ty : Ty) : LooksUp store [] (value.expect ty) := by
  unfold Value.expect
  by_cases hty : value.ty = ty
  · rw [if_pos hty]
    exact .ok ()
  · rw [if_neg hty]
    apply LooksUp.error
    intro name
    simp

theorem looksUp_resultOrFault (ty : Ty) (op : Operator) :
    LooksUp store [] (ty.resultOrFault op) := by
  unfold Ty.resultOrFault
  cases ty.result? op with
  | some result => exact .ok result
  | none =>
    apply LooksUp.error
    intro name
    simp

theorem looksUp_applyUnary (op : Operator) (value : Value) :
    LooksUp store [] (applyUnary op value) := by
  unfold applyUnary
  apply (looksUp_resultOrFault value.ty op).bind_nil
  intro result
  cases (Value.unary? value.ty op).bind fun operation => operation value with
  | none =>
    apply LooksUp.error
    intro name
    simp
  | some other => exact (looksUp_expect other result).bind_nil fun _ => .ok other

theorem looksUp_applyBinary (op : Operator) (token : Token) (left right : Value) :
    LooksUp store [] (applyBinary op token left right) := by
  unfold applyBinary
  apply (looksUp_expect right left.ty).bind_nil
  intro _
  apply (looksUp_resultOrFault left.ty op).bind_nil
  intro result
  cases Value.binary? left.ty op with
  | none =>
    apply LooksUp.error
    intro name
    simp
  | some operation =>
    cases hvalue : operation left right with
    | none =>
      simp only [hvalue]
      apply LooksUp.error
      intro name
      simp
    | some value =>
      simp only [hvalue]
      exact (looksUp_expect value result).bind_nil fun _ => .ok value

/-- A leaf looks up its name, if it is one. -/
theorem looksUp_evalLeaf (token : Token) :
    LooksUp store (if token.kind = .identifier then [token.text] else [])
      (evalLeaf store token) := by
  unfold evalLeaf
  by_cases hkind : token.kind = .identifier
  · rw [if_pos hkind, hkind]
    cases hentry : store.find? token.text with
    | some entry =>
      simp only [Scope.get?, hentry, Option.map_some]
      intro name hname
      rw [List.mem_singleton.1 hname, Scope.isDeclared, hentry]
      rfl
    | none =>
      simp only [Scope.get?, hentry, Option.map_none]
      intro name
      rw [List.mem_singleton, Fault.undeclared.injEq]
      constructor
      · intro hsame
        rw [← hsame, Scope.isDeclared, hentry]
        exact ⟨rfl, rfl⟩
      · intro hname
        exact hname.2.symm
  · rw [if_neg hkind]
    split
    · next hidentifier => exact absurd hidentifier hkind
    · cases token.kind.literalType?.bind (Value.ofText? token.text) with
      | some value => exact .ok value
      | none =>
        apply LooksUp.error
        intro name
        simp

/-- An evaluation looks up the names that it uses. -/
theorem looksUp_eval (store : Store) (expr : Expr) :
    LooksUp store (expr.uses store) (expr.eval store) := by
  induction expr with
  | leaf token =>
    rw [uses, eval]
    exact looksUp_evalLeaf token
  | unary op token operand ih =>
    rw [uses, eval]
    exact ih.bind_nil fun value => looksUp_applyUnary op value
  | binary op token left right ihleft ihright =>
    rw [uses, eval]
    exact ihleft.bind fun leftValue =>
      ihright.bind_nil fun rightValue => looksUp_applyBinary op token leftValue rightValue

/-- A bound of a loop looks up the names of its expression. -/
theorem looksUp_evalInt (store : Store) (expr : Expr) :
    LooksUp store (expr.uses store) (expr.evalInt store) := by
  unfold evalInt
  apply (looksUp_eval store expr).bind_nil
  intro value
  cases value with
  | int i => exact .ok i
  | string | bool =>
    apply LooksUp.error
    intro name
    simp

end Expr

/-! ## Actions -/

/-- The events lead from one store to the other: they tell which names have been
declared, and no name is used too early. -/
structure Recorded (before : Store) (events : List Event) (after : Store) : Prop where
  declared : ∀ name, after.isDeclared name = true ↔
    before.isDeclared name = true ∨ .declares name ∈ events
  used : ∀ name, UsedFirst name events → before.isDeclared name = true

/-- The fault is the use of a name that the events use too early, if there is
one. -/
def Blamed (before : Store) (events : List Event) (fault : Fault) : Prop :=
  ∀ name, fault = .undeclared name ↔ before.isDeclared name = false ∧ UsedFirst name events

theorem Recorded.refl (store : Store) : Recorded store [] store := by
  constructor
  · intro name
    simp
  · intro name hused
    exact absurd hused (not_usedFirst_nil name)

/-- What two rows of events tell about the stores is told by both together. -/
theorem Recorded.append {first second third : Store} {events more : List Event}
    (hfirst : Recorded first events second) (hsecond : Recorded second more third) :
    Recorded first (events ++ more) third := by
  constructor
  · intro name
    rw [hsecond.declared, hfirst.declared, List.mem_append, or_assoc]
  · intro name hused
    rcases usedFirst_append.1 hused with hused | ⟨hnot, hused⟩
    · exact hfirst.used name hused
    · rcases (hfirst.declared name).1 (hsecond.used name hused) with hdeclared | hevent
      · exact hdeclared
      · exact absurd hevent hnot

/-- Events before the ones that blame a name do not change what is blamed. -/
theorem Blamed.append {first second : Store} {events more : List Event} {fault : Fault}
    (hblamed : Blamed second more fault) (hfirst : Recorded first events second) :
    Blamed first (events ++ more) fault := by
  intro name
  rw [hblamed name, usedFirst_append, ← Bool.not_eq_true, ← Bool.not_eq_true, hfirst.declared,
    not_or]
  constructor
  · intro hname
    exact ⟨hname.1.1, .inr ⟨hname.1.2, hname.2⟩⟩
  · intro hname
    rcases hname with ⟨hnot, hused | hlater⟩
    · exact absurd (hfirst.used name hused) hnot
    · exact ⟨⟨hnot, hlater.1⟩, hlater.2⟩

/-- A fault of another kind is not blamed on a name. -/
theorem Blamed.of_ne {store : Store} {events : List Event} {fault : Fault}
    (hfault : ∀ name, fault ≠ .undeclared name) (hnot : ∀ name, ¬UsedFirst name events) :
    Blamed store events fault := by
  intro name
  constructor
  · intro hsame
    exact absurd hsame (hfault name)
  · intro hname
    exact absurd hname.2 (hnot name)

/-- Any other fault is explained by no events. -/
theorem blamed_nil {store : Store} {fault : Fault} (hfault : ∀ name, fault ≠ .undeclared name) :
    Blamed store [] fault :=
  .of_ne hfault not_usedFirst_nil

namespace Exec

variable {α β : Type}

/-- The events tell what the action does to the names of the machine. -/
def Records (action : Exec α) (machine : Machine) (events : List Event) : Prop :=
  Ends action machine (fun _ after => Recorded machine.store events after.store)
    (fun fault _ => Blamed machine.store events fault)

namespace Records

variable {action : Exec α} {machine : Machine} {events : List Event}

/-- A declared name stays declared. -/
theorem isDeclared (haction : Records action machine events) {a : α} {after : Machine}
    (hrun : action machine = .ok a after) {name : String}
    (hdeclared : machine.store.isDeclared name = true) : after.store.isDeclared name = true := by
  have hrecorded : Recorded machine.store events after.store := (Ends.of_ok hrun).1 haction
  exact (hrecorded.declared name).2 (.inl hdeclared)

/-- The events of two actions, one after the other. -/
theorem bind {next : α → Exec β} {more : α → Machine → List Event}
    (haction : Records action machine events)
    (hnext : ∀ a after, action machine = .ok a after → Records (next a) after (more a after)) :
    Records (action >>= next) machine (events ++ followed action machine more) := by
  unfold followed
  cases hrun : action machine with
  | ok a after =>
    have hfirst : Recorded machine.store events after.store := (Ends.of_ok hrun).1 haction
    refine Ends.bind ((Ends.of_ok hrun).2 (Ends.mono (hnext a after hrun) ?_ ?_))
    · intro _ final hsecond
      exact hfirst.append hsecond
    · intro fault _ hblamed
      exact hblamed.append hfirst
  | error fault after =>
    have hblamed : Blamed machine.store events fault := (Ends.of_error hrun).1 haction
    rw [List.append_nil]
    exact Ends.bind ((Ends.of_error hrun).2 hblamed)

/-- Nothing has to be told of an action without events. -/
theorem bind_nil {next : α → Exec β} (haction : Records action machine events)
    (hnext : ∀ a after, action machine = .ok a after → Records (next a) after []) :
    Records (action >>= next) machine events := by
  have hwhole := haction.bind hnext
  have hnone : followed action machine (fun _ _ => []) = [] := by
    unfold followed
    cases action machine <;> rfl
  rw [hnone, List.append_nil] at hwhole
  exact hwhole

theorem pure (a : α) : Records (Pure.pure a : Exec α) machine [] :=
  Ends.pure (.refl machine.store)

theorem throw {fault : Fault} (hfault : ∀ name, fault ≠ .undeclared name) :
    Records (MonadExcept.throw fault : Exec α) machine [] :=
  Ends.throw (blamed_nil hfault)

/-- A computation uses the names that it looks up. -/
theorem compute (f : Store → Except Fault α) {names : List String}
    (hnames : LooksUp machine.store names (f machine.store)) :
    Records (Exec.compute f) machine (names.map .uses) := by
  apply Ends.compute
  · intro a hvalue
    rw [hvalue] at hnames
    constructor
    · intro name
      simp
    · intro name hused
      exact hnames name (usedFirst_map_uses.1 hused)
  · intro fault hfault
    rw [hfault] at hnames
    intro name
    rw [usedFirst_map_uses]
    exact hnames name

theorem expect (value : Value) (ty : Ty) :
    Records (Exec.compute fun _ => value.expect ty) machine [] := by
  have hnone : LooksUp machine.store [] (value.expect ty) := Expr.looksUp_expect value ty
  exact compute (fun _ => value.expect ty) hnone

/-- An evaluation uses the names that its expression looks up. -/
theorem eval (expr : Expr) :
    Records (Exec.compute fun store => expr.eval store) machine (expr.events machine.store) :=
  compute _ (Expr.looksUp_eval machine.store expr)

theorem evalInt (expr : Expr) :
    Records (Exec.compute fun store => expr.evalInt store) machine (expr.events machine.store) :=
  compute _ (Expr.looksUp_evalInt machine.store expr)

/-- Looking for the type of a name uses it. -/
theorem target (name : String) : Records (Exec.target name) machine [.uses name] := by
  apply Ends.target
  · intro ty hty _
    constructor
    · intro other
      simp
    · intro other hused
      rw [← usedFirst_uses.1 hused]
      exact Scope.isDeclared_iff.2 ⟨ty, hty⟩
  · intro hundeclared other
    rw [usedFirst_uses, Fault.undeclared.injEq]
    constructor
    · intro hsame
      rw [← hsame]
      exact ⟨hundeclared, rfl⟩
    · intro hother
      exact hother.2
  · intro hdeclared _ other
    rw [usedFirst_uses]
    constructor
    · intro hfault
      cases hfault
    · intro hother
      rw [← hother.2, hdeclared] at hother
      cases hother.1

/-- A name that was found is declared. -/
theorem isDeclared_of_target {name : String} {ty : Ty} {later : Machine}
    (hrun : Exec.target name machine = .ok ty later) : later.store.isDeclared name = true := by
  have hrecorded := (Ends.of_ok hrun).1 (target name)
  have hdeclared := hrecorded.used name (usedFirst_uses.2 rfl)
  exact (hrecorded.declared name).2 (.inl hdeclared)

/-- However a name is declared, it is declared afterwards. -/
theorem declare (name : String) (ty : Ty) :
    Records (Exec.declare name ty) machine [.declares name] := by
  have hnot : ∀ other, ¬UsedFirst other [.declares name] :=
    fun other => not_usedFirst_declares other name
  have hused : ∀ other, UsedFirst other [.declares name] →
      machine.store.isDeclared other = true := fun other hother => absurd hother (hnot other)
  apply Ends.declare
  · intro store hstore
    refine ⟨?_, hused⟩
    intro other
    rw [Scope.isDeclared_of_declare hstore, List.mem_singleton, Event.declares.injEq]
  · intro hty _ _
    refine ⟨?_, hused⟩
    intro other
    rw [Scope.isDeclared_set, List.mem_singleton, Event.declares.injEq]
    constructor
    · intro hother
      exact .inl hother
    · intro hother
      rcases hother with hother | hsame
      · exact hother
      · rw [hsame]
        exact Scope.isDeclared_iff.2 ⟨ty, hty⟩
  · intro _ _
    exact .of_ne (by simp) hnot
  · intro _ _
    exact .of_ne (by simp) hnot
  · intro _ _ _
    exact .of_ne (by simp) hnot

/-- A change of what a declared name holds is no event. -/
theorem recorded_set (store : Store) (name : String) (value : Value) :
    Recorded store [] (Scope.set store name value) := by
  constructor
  · intro other
    rw [Scope.isDeclared_set]
    simp
  · intro other hused
    exact absurd hused (not_usedFirst_nil other)

/-- A name that has been looked for is assigned without a further event. -/
theorem assign {name : String} (value : Value)
    (hdeclared : machine.store.isDeclared name = true) :
    Records (Exec.assign name value) machine [] := by
  apply Ends.assign
  · intro _ _
    exact recorded_set machine.store name value
  · intro hundeclared
    rw [hdeclared] at hundeclared
    cases hundeclared
  · intro _ _
    exact blamed_nil (by simp)

/-- A counter that is moved on has been declared. -/
theorem overwrite {name : String} (value : Value)
    (hdeclared : machine.store.isDeclared name = true) :
    Records (Exec.change name fun store => store.overwrite name value) machine [] := by
  apply Ends.change
  · intro store hstore
    rw [Scope.overwrite, if_pos hdeclared] at hstore
    cases hstore
    exact recorded_set machine.store name value
  · intro refusal hrefusal
    rw [Scope.overwrite, if_pos hdeclared] at hrefusal
    cases hrefusal

theorem write (text : String) : Records (Exec.write text) machine [] :=
  Ends.write (.refl machine.store) (blamed_nil (by simp))

theorem readWord : Records Exec.readWord machine [] := by
  apply Ends.readWord
  · intro word input _
    exact .refl machine.store
  · intro fault input hfault
    apply blamed_nil
    intro name hsame
    have hexpected : fault.Expected fun _ => False := Input.expected_of_readWord hfault
    rw [hsame] at hexpected
    exact hexpected

/-- Locks have no events. -/
theorem locking {name : String} {action : Exec Unit}
    (haction : Records action { machine with store := machine.store.lock name } events) :
    Records (Exec.locking name action) machine events := by
  apply Ends.locking
  refine Ends.mono haction ?_ ?_
  · intro _ after hrecorded
    exact ⟨hrecorded.declared, hrecorded.used⟩
  · intro fault after hblamed
    exact hblamed

/-- The rounds of a loop record what its body records. -/
theorem countUp {name : String} {action : Exec Unit} {events : Machine → List Event}
    (haction : ∀ machine, Records action machine (events machine)) (rounds : Nat) (i : Int64)
    {machine : Machine} (hdeclared : machine.store.isDeclared name = true) :
    Records (Exec.countUp name action rounds i) machine
      (roundEvents name action events rounds i machine) := by
  induction rounds generalizing i machine with
  | zero => exact pure ()
  | succ rounds ih =>
    have hfirst := overwrite (.int i) hdeclared
    unfold Exec.countUp roundEvents
    refine hfirst.bind fun _ middle hmiddle => (haction middle).bind fun _ after hafter => ?_
    apply ih
    exact (haction middle).isDeclared hafter (hfirst.isDeclared hmiddle hdeclared)

end Records

end Exec

mutual

/-- The events of a statement tell what its run does to the names. -/
theorem Stmt.records : ∀ (stmt : Stmt) (machine : Machine),
    Records stmt.exec machine (stmt.events machine)
  | .declare name _ ty initial, machine => by
    have hdeclare : Records (declare name.text ty) machine [.declares name.text] :=
      .declare name.text ty
    unfold Stmt.exec Stmt.events
    refine hdeclare.bind fun _ later hlater => ?_
    have hrecorded := (Ends.of_ok hlater).1 hdeclare
    have hdeclared : later.store.isDeclared name.text = true :=
      (hrecorded.declared name.text).2 (.inr (List.mem_singleton.2 rfl))
    cases initial with
    | none => exact .pure ()
    | some expr =>
      have heval : Records _ later _ := .eval expr
      refine heval.bind_nil fun value middle hmiddle => ?_
      refine (Records.expect value ty).bind_nil fun _ after hafter => ?_
      apply Records.assign
      exact (Records.expect value ty).isDeclared hafter (heval.isDeclared hmiddle hdeclared)
  | .assign name expr, machine => by
    unfold Stmt.exec Stmt.events
    refine (Records.target name.text).bind fun ty later hlater => ?_
    have hdeclared := Records.isDeclared_of_target hlater
    have heval : Records _ later _ := .eval expr
    refine heval.bind_nil fun value middle hmiddle => ?_
    refine (Records.expect value ty).bind_nil fun _ after hafter => ?_
    apply Records.assign
    exact (Records.expect value ty).isDeclared hafter (heval.isDeclared hmiddle hdeclared)
  | .loop counter first last body, machine => by
    unfold Stmt.exec Stmt.events
    refine (Records.target counter.text).bind fun ty later hlater => ?_
    have hdeclared := Records.isDeclared_of_target hlater
    by_cases hty : ty = .int
    · rw [if_pos hty, if_pos hty]
      have hfirst : Records _ later _ := .evalInt first
      refine hfirst.bind fun i middle hmiddle => ?_
      have hlast : Records _ middle _ := .evalInt last
      refine hlast.bind fun j after hafter => ?_
      apply Records.locking
      apply Records.countUp (Program.records body)
      exact hlast.isDeclared hafter (hfirst.isDeclared hmiddle hdeclared)
    · rw [if_neg hty, if_neg hty]
      exact .throw (by simp)
  | .print expr, machine => by
    unfold Stmt.exec Stmt.events
    exact (Records.eval expr).bind_nil fun value _ _ => .write value.text
  | .read name, machine => by
    unfold Stmt.exec Stmt.events
    refine (Records.target name.text).bind_nil fun ty later hlater => ?_
    have hdeclared := Records.isDeclared_of_target hlater
    refine Records.readWord.bind_nil fun word after hafter => ?_
    cases Value.ofText? word ty with
    | none => exact .throw (by simp)
    | some value => exact .assign value (Records.readWord.isDeclared hafter hdeclared)
  | .assert keyword condition quotation, machine => by
    unfold Stmt.exec Stmt.events
    refine (Records.eval condition).bind_nil fun value _ _ => ?_
    refine (Records.expect value .bool).bind_nil fun _ _ _ => ?_
    by_cases hfalse : value = .bool false
    · rw [if_pos hfalse]
      exact .write _
    · rw [if_neg hfalse]
      exact .pure ()

/-- The events of a program tell what its run does to the names. -/
theorem Program.records : ∀ (program : List Stmt) (machine : Machine),
    Records (Program.exec program) machine (Program.events program machine)
  | [], machine => by
    unfold Program.exec Program.events
    exact .pure ()
  | stmt :: rest, machine => by
    unfold Program.exec Program.events
    exact (Stmt.records stmt machine).bind fun _ later _ => Program.records rest later

end

/-! ## Undeclared names -/

/-- A run ends with an undeclared name exactly if it uses a name that it has not
declared before, and the output can be flushed. -/
theorem Machine.run_eq_undeclared_iff (program : Program) (input : Input) (output : Output)
    (name : String) :
    ((Machine.start input output).run program).1 = .error (.undeclared name) ↔
      output.flushFailure = none ∧
        UsedFirst name (Program.events program (Machine.start input output)) := by
  have hrecords := Program.records program (Machine.start input output)
  have hgrows := Program.exec_grows program (Machine.start input output)
  have hempty : (Machine.start input output).store.isDeclared name = false := rfl
  unfold Machine.run
  cases hrun : Program.exec program (Machine.start input output) with
  | ok _ after =>
    have hrecorded := (Ends.of_ok hrun).1 hrecords
    have hflush : after.output.flushFailure = output.flushFailure :=
      ((Ends.of_ok hrun).1 hgrows).flushFailure_eq
    constructor
    · intro hresult
      cases hfailure : after.output.flushFailure <;> simp [hfailure] at hresult
    · intro hused
      have hdeclared := hrecorded.used name hused.2
      rw [hempty] at hdeclared
      cases hdeclared
  | error fault after =>
    have hblamed := (Ends.of_error hrun).1 hrecords
    have hflush : after.output.flushFailure = output.flushFailure :=
      ((Ends.of_error hrun).1 hgrows).flushFailure_eq
    rw [← hflush]
    cases hfailure : after.output.flushFailure with
    | some reason => simp [hfailure]
    | none => simpa [hfailure, hempty] using hblamed name

/-- A run of an accepted program ends with an undeclared name exactly if it uses
the name before it has declared it.  The name is then declared in the body of a
loop. -/
theorem run_undeclared_iff_usedFirst {source : String} {program : Program}
    (haccepted : Accepted source program) (input : Input) (output : Output) (name : String) :
    ((Machine.start input output).run program).1 = .error (.undeclared name) ↔
      output.flushFailure = none ∧ name ∈ Program.loopDeclared program ∧
        UsedFirst name (Program.events program (Machine.start input output)) := by
  have hiff := Machine.run_eq_undeclared_iff program input output name
  rcases haccepted.typed with ⟨final, htyped⟩
  constructor
  · intro hrun
    exact ⟨(hiff.1 hrun).1, htyped.expected_of_run hrun, (hiff.1 hrun).2⟩
  · intro hname
    exact hiff.2 ⟨hname.1, hname.2.2⟩

/-- A program whose loop is skipped, and a name of its body is used afterwards. -/
def skippedLoop : String :=
  "var i : int; for i in 1..0 do var x : int end for; print x"

/-- The program has no mistake, and its run uses a name that was never declared. -/
theorem run_skippedLoop_eq_undeclared :
    ∃ program, Accepted skippedLoop program ∧
      ((Machine.start .empty .unlimited).run program).1 = .error (.undeclared "x") := by
  have hany : (accepted? skippedLoop).any (fun program =>
      decide ("x" ∈ Program.loopDeclared program ∧
        Program.events program (Machine.start .empty .unlimited) =
          [.declares "i", .uses "i", .uses "x"])) = true := by
    decide +kernel
  rcases (Option.any_eq_true _ _).1 hany with ⟨program, hprogram, hfacts⟩
  rcases of_decide_eq_true hfacts with ⟨hloop, hevents⟩
  have haccepted : Accepted skippedLoop program := accepted?_eq_some_iff.1 hprogram
  have hused : UsedFirst "x" (Program.events program (Machine.start .empty .unlimited)) := by
    rw [hevents]
    exact ⟨[.declares "i", .uses "i"], [], rfl, by decide⟩
  exact ⟨program, haccepted,
    (run_undeclared_iff_usedFirst haccepted .empty .unlimited "x").2 ⟨rfl, hloop, hused⟩⟩

end LoopLang
