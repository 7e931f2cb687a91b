import LoopLang.Grammar.Program
import LoopLang.Proofs.Grammar.Soundness
import LoopLang.Proofs.Machine.Evaluation
import LoopLang.Proofs.Machine.Frame

/-!
# Safety of accepted programs

A program in which no stage finds a mistake is run on any input and any output.
The run follows the typing rules: the store agrees with the names that are known
at each statement, although the body of a loop is checked once and may be run any
number of times or not at all.

Main definitions:

- `Fault.Expected`: the faults that do not contradict the checks.
- `Store.Models`: the agreement of a store with the known names.
- `Accepted`: no stage finds a mistake in the source.

Main results:

- Theorem `Stmt.Typed.safe`: what one statement does to the agreement.
- Theorem `Program.Typed.safe`: a run of a typed program ends well or with an
  expected fault.
- Theorem `run_accepted_is_safe`: so does a run of an accepted source.
-/

namespace LoopLang

/-- The faults that a program without mistakes can meet: those that come from its
arithmetic, its input and its output, and the use of a missing name. -/
def Fault.Expected (missing : String → Prop) : Fault → Prop
  | divisionByZero _ _ | inputExhausted | invalidInput _ _ | stream _ => True
  | undeclared name => missing name
  | noMoreTokens | unbalancedBrackets | unknownOperator _ | malformedExpression _ _
  | invalidLeaf _ | unknownType _ | redeclared _ | locked _ | typeAssertion _ _
  | missingOperation _ _ => False

/-- What an evaluation can meet is expected. -/
theorem Expr.Yields.expected {missing : String → Prop} {ty : Ty} {fault : Fault}
    (hyields : Expr.Yields missing ty (.error fault)) : fault.Expected missing := by
  cases fault <;> first | exact hyields | trivial

/-- So is what an input can fail with. -/
theorem Input.expected_of_scanChunks {missing : String → Prop} {failure : Option String}
    {fault : Fault} {word : List UInt8} {chunks rest : List (List UInt8)}
    (hscan : scanChunks failure word chunks = (.error fault, rest)) : fault.Expected missing := by
  induction chunks generalizing word with
  | nil =>
    unfold scanChunks at hscan
    split at hscan
    · cases hscan
      trivial
    · split at hscan
      · cases hscan
        trivial
      · cases hscan
  | cons chunk chunks ih =>
    unfold scanChunks at hscan
    by_cases hended : (scanChunk word chunk).ended = true
    · simp only [hended, if_true] at hscan
      cases hscan
    · simp only [hended] at hscan
      exact ih hscan

/-- An input fails by its end or by its stream. -/
theorem Input.expected_of_readWord {missing : String → Prop} {input rest : Input} {fault : Fault}
    (hread : input.readWord = (.error fault, rest)) : fault.Expected missing := by
  unfold readWord at hread
  rcases hscan : scanChunks input.failure [] input.chunks with ⟨result, chunks⟩
  rw [hscan] at hread
  cases result with
  | ok word => cases hread
  | error other =>
    cases hread
    exact expected_of_scanChunks hscan

/-! ## Agreement of a store with the known names -/

namespace Store

/-- The store agrees with the known names.  The scope `final` has the types of all
names of the program, also of those that are only declared later: a round of a
loop leaves names behind that the next round declares again. -/
structure Models (missing : String → Prop) (final scope : TypeScope) (store : Store) : Prop where
  locks_eq : store.locks = scope.locks
  locked : ∀ name, scope.isLocked name = true → scope.isDeclared name = true
  typed : ∀ name entry, store.find? name = some entry →
    entry.content.ty = entry.ty ∧ final.ty? name = some entry.ty
  known : ∀ name ty, scope.ty? name = some ty →
    final.ty? name = some ty ∧ (store.isDeclared name = true ∨ missing name)
  bounded : store.inLoop = false →
    ∀ name, store.isDeclared name = true → scope.isDeclared name = true

namespace Models

variable {missing : String → Prop} {final scope after : TypeScope} {store : Store}

/-- At the beginning there are no names. -/
theorem empty : Models missing final .empty .empty := by
  refine ⟨rfl, ?_, ?_, ?_, ?_⟩
  · intro name hlocked
    cases hlocked
  · intro name entry hentry
    cases hentry
  · intro name ty hty
    cases hty
  · intro _ name hdeclared
    cases hdeclared

theorem isLocked_eq (hmodels : Models missing final scope store) (name : String) :
    store.isLocked name = scope.isLocked name := by
  rw [Scope.isLocked, Scope.isLocked, hmodels.locks_eq]

/-- A name has the type in the store that it has for good. -/
theorem ty?_eq (hmodels : Models missing final scope store) {name : String} {ty : Ty}
    (hty : store.ty? name = some ty) : final.ty? name = some ty := by
  rcases Option.map_eq_some_iff.1 hty with ⟨entry, hentry, rfl⟩
  exact (hmodels.typed name entry hentry).2

/-- A known name that is declared in the store has the known type there. -/
theorem ty?_of_known (hmodels : Models missing final scope store) {name : String} {ty : Ty}
    (hknown : scope.ty? name = some ty) (hdeclared : store.isDeclared name = true) :
    store.ty? name = some ty := by
  rcases Scope.isDeclared_iff.1 hdeclared with ⟨other, hother⟩
  have hfinal : final.ty? name = some ty := (hmodels.known name ty hknown).1
  rw [hmodels.ty?_eq hother] at hfinal
  rw [hother, hfinal]

/-- The known names have values of their types. -/
theorem holds (hmodels : Models missing final scope store) : store.Holds missing scope := by
  intro name ty hknown
  by_cases hdeclared : store.isDeclared name = true
  · have hty := hmodels.ty?_of_known hknown hdeclared
    rcases Option.map_eq_some_iff.1 hty with ⟨entry, hentry, rfl⟩
    refine .inl ⟨entry.content, ?_, (hmodels.typed name entry hentry).1⟩
    rw [Scope.get?, hentry]
    rfl
  · rcases (hmodels.known name ty hknown).2 with hother | hmissing
    · exact absurd hother hdeclared
    · refine .inr ⟨?_, hmissing⟩
      rw [Scope.isDeclared, Bool.not_eq_true, Option.isSome_eq_false_iff,
        Option.isNone_iff_eq_none] at hdeclared
      rw [Scope.get?, hdeclared]
      rfl

/-- A value of the type that a name has may be set. -/
theorem set (hmodels : Models missing final scope store) {name : String} {value : Value}
    (hty : store.ty? name = some value.ty) :
    Models missing final scope (Scope.set store name value) := by
  have hgrows := Scope.grows_set [] store name value
  refine ⟨hmodels.locks_eq, hmodels.locked, ?_, ?_, ?_⟩
  · intro other entry hentry
    rw [Scope.find?_set] at hentry
    by_cases hsame : other = name
    · rw [if_pos hsame] at hentry
      rcases Option.map_eq_some_iff.1 hentry with ⟨old, hold, rfl⟩
      have hold' : store.ty? name = some old.ty := by
        rw [← hsame, Scope.ty?, hold]
        rfl
      rw [hty] at hold'
      exact ⟨Option.some.inj hold', (hmodels.typed other old hold).2⟩
    · rw [if_neg hsame] at hentry
      exact hmodels.typed other entry hentry
  · intro other ty hknown
    rcases hmodels.known other ty hknown with ⟨hfinal, hdeclared | hmissing⟩
    · exact ⟨hfinal, .inl (hgrows.isDeclared hdeclared)⟩
    · exact ⟨hfinal, .inr hmissing⟩
  · intro hloop other hdeclared
    rcases hgrows.adds other hdeclared with hdeclared | hnone
    · exact hmodels.bounded hloop other hdeclared
    · cases hnone

/-- A name that may be declared is not locked. -/
theorem isLocked_eq_false (hmodels : Models missing final scope store) {name : String} {ty : Ty}
    (hscope : scope.declare name ty () = .ok after) : scope.isLocked name = false := by
  rw [Bool.eq_false_iff]
  intro hlocked
  have hdeclared := hmodels.locked name hlocked
  rw [Scope.not_declared_of_declare hscope] at hdeclared
  cases hdeclared

/-- A name that the store has got is known from its declaration on. -/
theorem extend (hmodels : Models missing final scope store) {name : String} {ty : Ty}
    {larger : Store} (hscope : scope.declare name ty () = .ok after)
    (hgrows : Scope.Grows [name] store larger) (hdeclared : larger.isDeclared name = true)
    (hfinal : final.ty? name = some ty)
    (htyped : ∀ other entry, larger.find? other = some entry →
      entry.content.ty = entry.ty ∧ final.ty? other = some entry.ty) :
    Models missing final after larger := by
  have hscopeGrows := Scope.grows_declare hscope
  refine ⟨?_, ?_, htyped, ?_, ?_⟩
  · rw [hgrows.locks_eq, hscopeGrows.locks_eq, hmodels.locks_eq]
  · intro other hlocked
    rw [Scope.isLocked, hscopeGrows.locks_eq] at hlocked
    exact hscopeGrows.isDeclared (hmodels.locked other hlocked)
  · intro other known hknown
    rw [Scope.ty?, Scope.find?_of_declare hscope] at hknown
    by_cases hsame : other = name
    · rw [if_pos hsame] at hknown
      cases hknown
      rw [hsame]
      exact ⟨hfinal, .inl hdeclared⟩
    · rw [if_neg hsame] at hknown
      rcases hmodels.known other known hknown with ⟨hother, hstore | hmissing⟩
      · exact ⟨hother, .inl (hgrows.isDeclared hstore)⟩
      · exact ⟨hother, .inr hmissing⟩
  · intro hloop other hother
    rcases hgrows.adds other hother with hstore | hname
    · rw [Scope.inLoop, hgrows.locks_eq] at hloop
      exact hscopeGrows.isDeclared (hmodels.bounded hloop other hstore)
    · exact (Scope.isDeclared_of_declare hscope other).2 (.inr (List.mem_singleton.1 hname))

/-- A new name is declared in both. -/
theorem declare (hmodels : Models missing final scope store) {name : String} {ty : Ty}
    {value : Value} {larger : Store} (hvalue : value.ty = ty)
    (hscope : scope.declare name ty () = .ok after)
    (hstore : store.declare name ty value = .ok larger)
    (hfinal : final.ty? name = some ty) : Models missing final after larger := by
  refine hmodels.extend hscope (Scope.grows_declare hstore) ?_ hfinal ?_
  · exact (Scope.isDeclared_of_declare hstore name).2 (.inr rfl)
  · intro other entry hentry
    rw [Scope.find?_of_declare hstore] at hentry
    by_cases hsame : other = name
    · rw [if_pos hsame] at hentry
      cases hentry
      rw [hsame]
      exact ⟨hvalue, hfinal⟩
    · rw [if_neg hsame] at hentry
      exact hmodels.typed other entry hentry

/-! ### Loops -/

/-- A lock is taken in the checker and in the machine at the same time. -/
theorem lock (hmodels : Models missing final scope store) {name : String}
    (hdeclared : scope.isDeclared name = true) :
    Models missing final (scope.lock name) (Scope.lock store name) := by
  refine ⟨?_, ?_, hmodels.typed, hmodels.known, ?_⟩
  · rw [Scope.lock, Scope.lock, hmodels.locks_eq]
  · intro other hlocked
    rw [Scope.isLocked, Scope.lock, List.contains_iff_mem, List.mem_cons] at hlocked
    rcases hlocked with rfl | hlocked
    · exact hdeclared
    · exact hmodels.locked other (List.contains_iff_mem.2 hlocked)
  · intro hloop
    cases hloop

/-- After a round of a loop, the names that were known before it are known for the
next round. -/
theorem again {names : List String} {start : Store} (hstart : Models missing final scope start)
    (hmodels : Models missing final after store) (hgrows : scope.Grows names after)
    (hloop : store.inLoop = true) : Models missing final scope store := by
  refine ⟨?_, hstart.locked, hmodels.typed, ?_, ?_⟩
  · rw [hmodels.locks_eq, hgrows.locks_eq]
  · intro name ty hknown
    exact hmodels.known name ty (hgrows.keeps name ty hknown)
  · intro hnot
    rw [hloop] at hnot
    cases hnot

/-- After a loop, the names that its body declares are known.  They are missing in
the store if there was no round. -/
theorem leave {names : List String} {name : String} {start : Store}
    (hstart : Models missing final scope start)
    (hmodels : Models missing final (scope.lock name) store)
    (hscope : (scope.lock name).Grows names after)
    (hstore : Scope.Grows names (Scope.lock start name) store)
    (hdeclared : ∀ other ∈ names, after.isDeclared other = true)
    (hmissing : ∀ other ∈ names, missing other)
    (hfinal : ∀ other ty, after.ty? other = some ty → final.ty? other = some ty) :
    Models missing final after.unlock (Scope.unlock store) := by
  refine ⟨?_, ?_, hmodels.typed, ?_, ?_⟩
  · rw [hstore.unlock.locks_eq, hscope.unlock.locks_eq, hstart.locks_eq]
  · intro other hlocked
    rw [Scope.isLocked, hscope.unlock.locks_eq] at hlocked
    exact hscope.isDeclared (hstart.locked other hlocked)
  · intro other ty hknown
    refine ⟨hfinal other ty hknown, ?_⟩
    rcases hscope.adds other (Scope.isDeclared_iff.2 ⟨ty, hknown⟩) with hbefore | hname
    · rcases Scope.isDeclared_iff.1 hbefore with ⟨known, hbefore⟩
      exact (hmodels.known other known hbefore).2
    · exact .inr (hmissing other hname)
  · intro hloop other hother
    rw [Scope.inLoop, hstore.unlock.locks_eq] at hloop
    rcases hstore.adds other hother with hbefore | hname
    · exact hscope.isDeclared (hstart.bounded hloop other hbefore)
    · exact hdeclared other hname

end Models

end Store

/-! ## Statements -/

namespace Exec

/-- The action ends with a store that agrees with the names known after it, or
with an expected fault. -/
def Safe (missing : String → Prop) (final after : TypeScope) (action : Exec Unit)
    (machine : Machine) : Prop :=
  Ends action machine (fun _ later => Store.Models missing final after later.store)
    (fun fault _ => fault.Expected missing)

variable {missing : String → Prop} {final scope : TypeScope} {machine : Machine}

/-- A name that may be assigned has its type, or it is missing. -/
theorem ends_target (hmodels : Store.Models missing final scope machine.store) {name : String}
    {ty : Ty} (htarget : scope.target name = .ok ty) {done : Ty → Machine → Prop}
    (hdone : machine.store.ty? name = some ty → done ty machine) :
    Ends (target name) machine done (fun fault _ => fault.Expected missing) := by
  rcases Scope.target_eq_ok.1 htarget with ⟨hknown, hunlocked⟩
  refine .target ?_ ?_ ?_
  · intro other hother _
    have hty := hmodels.ty?_of_known hknown (Scope.isDeclared_iff.2 ⟨other, hother⟩)
    have hsame : other = ty := Option.some.inj (hother.symm.trans hty)
    rw [hsame]
    exact hdone hty
  · intro hundeclared
    rcases (hmodels.known name ty hknown).2 with hdeclared | hmissing
    · rw [hundeclared] at hdeclared
      cases hdeclared
    · exact hmissing
  · intro _ hlocked
    rw [hmodels.isLocked_eq, hunlocked] at hlocked
    cases hlocked

/-- A value of its type is assigned to a name. -/
theorem safe_assign (hmodels : Store.Models missing final scope machine.store) {name : String}
    {value : Value} (hunlocked : scope.isLocked name = false)
    (hty : machine.store.ty? name = some value.ty) :
    Safe missing final scope (assign name value) machine := by
  refine .assign ?_ ?_ ?_
  · intro _ _
    exact hmodels.set hty
  · intro hundeclared
    have hdeclared := Scope.isDeclared_iff.2 ⟨value.ty, hty⟩
    rw [hundeclared] at hdeclared
    cases hdeclared
  · intro _ hlocked
    rw [hmodels.isLocked_eq, hunlocked] at hlocked
    cases hlocked

/-- A typed expression has a value of its type. -/
theorem ends_eval (hmodels : Store.Models missing final scope machine.store) {expr : Expr}
    {ty : Ty} (htype : expr.HasType scope ty) {done : Value → Machine → Prop}
    (hdone : ∀ value, value.ty = ty → done value machine) :
    Ends (compute fun store => expr.eval store) machine done
      (fun fault _ => fault.Expected missing) := by
  have hyields := htype.eval hmodels.holds
  refine .compute ?_ ?_
  · intro value hvalue
    rw [hvalue] at hyields
    exact hdone value hyields
  · intro fault hfault
    rw [hfault] at hyields
    exact hyields.expected

/-- A bound of the right type is an integer, or its evaluation meets an expected fault. -/
theorem ends_evalInt (hmodels : Store.Models missing final scope machine.store) {expr : Expr}
    (htype : expr.HasType scope .int) {done : Int64 → Machine → Prop}
    (hdone : ∀ i, done i machine) :
    Ends (compute fun store => expr.evalInt store) machine done
      (fun fault _ => fault.Expected missing) := by
  refine .compute ?_ ?_
  · intro i _
    exact hdone i
  · intro fault hfault
    exact (htype.evalInt hmodels.holds hfault).expected

/-- A value of the required type passes the comparison. -/
theorem ends_expect {value : Value} {ty : Ty} (hty : value.ty = ty) {done : Unit → Machine → Prop}
    (hdone : done () machine) :
    Ends (compute fun _ => value.expect ty) machine done
      (fun fault _ => fault.Expected missing) := by
  refine .expect ?_ ?_
  · intro _
    exact hdone
  · intro hnot
    exact absurd hty hnot

/-- A declaration that follows the rules is made, for the first time or again in a
loop. -/
theorem ends_declare {after : TypeScope} (hmodels : Store.Models missing final scope machine.store)
    {name : String} {ty : Ty} (hscope : scope.declare name ty () = .ok after)
    (hfinal : final.ty? name = some ty) {done : Unit → Machine → Prop}
    (hdone : ∀ later, Store.Models missing final after later.store →
      later.store.ty? name = some ty → done () later) :
    Ends (declare name ty) machine done (fun fault _ => fault.Expected missing) := by
  refine .declare ?_ ?_ ?_ ?_ ?_
  · intro store hstore
    apply hdone _ (hmodels.declare (Value.ty_zero ty) hscope hstore hfinal)
    rw [Scope.ty?, Scope.find?_of_declare hstore, if_pos rfl]
    rfl
  · intro hty _ _
    have hdeclared := Scope.isDeclared_iff.2 ⟨ty, hty⟩
    have hknown : Store.Models missing final after machine.store :=
      hmodels.extend hscope (.refl _ machine.store) hdeclared hfinal hmodels.typed
    refine hdone _ (hknown.set ?_) ?_
    · rw [Value.ty_zero]
      exact hty
    · rw [Scope.ty?_set]
      exact hty
  · intro hdeclared hloop
    have hknown := hmodels.bounded hloop name hdeclared
    rw [Scope.not_declared_of_declare hscope] at hknown
    cases hknown
  · intro _ hlocked
    rw [hmodels.isLocked_eq, hmodels.isLocked_eq_false hscope] at hlocked
    cases hlocked
  · intro other hother hne
    have hsame : final.ty? name = some other := hmodels.ty?_eq hother
    rw [hfinal] at hsame
    exact absurd (Option.some.inj hsame).symm hne

/-! ### Loops -/

/-- The machine stands before a round of a loop over the counter, which was begun
with the given store. -/
structure BeforeRound (missing : String → Prop) (final scope : TypeScope) (counter : String)
    (body : List Stmt) (start : Store) (machine : Machine) : Prop where
  models : Store.Models missing final (scope.lock counter) machine.store
  grows : Scope.Grows (Program.declared body) (Scope.lock start counter) machine.store

/-- A round of a loop leads to the next one.  What the body has declared does not
matter there: the round begins with the names known before the loop. -/
theorem ends_round {after : TypeScope} {counter : String} {body : List Stmt} {start : Store}
    (htyped : Program.Typed (scope.lock counter) body after)
    (hbody : ∀ middle : Machine, Store.Models missing final (scope.lock counter) middle.store →
      Safe missing final after (Program.exec body) middle)
    (hcounter : start.ty? counter = some .int) (i : Int64)
    (hbefore : BeforeRound missing final scope counter body start machine) :
    Ends (change counter fun store => store.overwrite counter (.int i)) machine
      (fun _ middle => Ends (Program.exec body) middle
        (fun _ later => BeforeRound missing final scope counter body start later)
        (fun fault _ => fault.Expected missing))
      (fun fault _ => fault.Expected missing) := by
  have hty : machine.store.ty? counter = some .int := hbefore.grows.keeps counter .int hcounter
  have hdeclared : machine.store.isDeclared counter = true := Scope.isDeclared_iff.2 ⟨.int, hty⟩
  refine .change ?_ ?_
  · intro store hstore
    rw [Scope.overwrite, if_pos hdeclared] at hstore
    cases hstore
    have hset : Store.Models missing final (scope.lock counter)
        (Scope.set machine.store counter (.int i)) := hbefore.models.set hty
    refine .mono (.and (hbody _ hset) (Program.exec_grows body _)) ?_ fun _ _ hfault => hfault.1
    intro _ later hlater
    have hgrows := hbefore.grows.trans ((Scope.grows_set _ _ _ _).trans hlater.2.store)
    refine ⟨hbefore.models.again hlater.1 htyped.grows ?_, hgrows⟩
    rw [Scope.inLoop, hgrows.locks_eq]
    rfl
  · intro refusal hrefusal
    rw [Scope.overwrite, if_pos hdeclared] at hrefusal
    cases hrefusal

/-- A loop is safe if each run of its body is. -/
theorem safe_loop {after : TypeScope} (hmodels : Store.Models missing final scope machine.store)
    {counter : String} {body : List Stmt} (hcounter : machine.store.ty? counter = some .int)
    (hknown : scope.isDeclared counter = true)
    (htyped : Program.Typed (scope.lock counter) body after)
    (hbody : ∀ middle : Machine, Store.Models missing final (scope.lock counter) middle.store →
      Safe missing final after (Program.exec body) middle)
    (hmissing : ∀ name ∈ Program.declared body, missing name)
    (hfinal : ∀ name ty, after.ty? name = some ty → final.ty? name = some ty)
    (rounds : Nat) (i : Int64) :
    Safe missing final after.unlock
      (locking counter (countUp counter (Program.exec body) rounds i)) machine := by
  have hstart : BeforeRound missing final scope counter body machine.store
      { machine with store := machine.store.lock counter } := ⟨hmodels.lock hknown, .refl _ _⟩
  refine .locking (.mono (.countUp _ (fun i later hbefore => ?_) rounds i hstart) ?_
    fun _ _ hfault => hfault)
  · exact ends_round htyped hbody hcounter i hbefore
  · intro _ later hlater
    exact hmodels.leave hlater.models htyped.grows hlater.grows htyped.isDeclared hmissing hfinal

end Exec

open Exec

mutual

/-- A typed statement is safe. -/
theorem Stmt.Typed.safe {missing : String → Prop} {final scope after : TypeScope} {stmt : Stmt} :
    Stmt.Typed scope stmt after → (∀ name ∈ stmt.loopDeclared, missing name) →
      (∀ name ty, after.ty? name = some ty → final.ty? name = some ty) →
        ∀ machine : Machine, Store.Models missing final scope machine.store →
          Safe missing final after stmt.exec machine
  | @Stmt.Typed.declare _ _ name _ ty initial hscope hinitial, _, hfinal, machine, hmodels => by
    have hknown : after.ty? name.text = some ty := by
      rw [Scope.ty?, Scope.find?_of_declare hscope, if_pos rfl]
      rfl
    have hunlocked : after.isLocked name.text = false := by
      rw [Scope.isLocked, Scope.locks_of_declare hscope]
      exact hmodels.isLocked_eq_false hscope
    unfold Stmt.exec
    refine .bind (ends_declare hmodels hscope (hfinal _ _ hknown) fun later hlater hty => ?_)
    cases initial with
    | none => exact .pure hlater
    | some expr =>
      refine .bind (ends_eval hlater (hinitial expr rfl) fun value hvalueTy => ?_)
      refine .bind (ends_expect hvalueTy ?_)
      rw [← hvalueTy] at hty
      exact safe_assign hlater hunlocked hty
  | .assign htarget hvalue, _, _, machine, hmodels => by
    rcases Scope.target_eq_ok.1 htarget with ⟨-, hunlocked⟩
    unfold Stmt.exec
    refine .bind (ends_target hmodels htarget fun hty => ?_)
    refine .bind (ends_eval hmodels hvalue fun value hvalueTy => ?_)
    refine .bind (ends_expect hvalueTy ?_)
    rw [← hvalueTy] at hty
    exact safe_assign hmodels hunlocked hty
  | @Stmt.Typed.loop _ _ counter _ _ body htarget hfirst hlast hbody, hmissing, hfinal, machine,
      hmodels => by
    rcases Scope.target_eq_ok.1 htarget with ⟨hknown, -⟩
    unfold Stmt.loopDeclared at hmissing
    unfold Stmt.exec
    refine .bind (ends_target hmodels htarget fun hcounter => ?_)
    rw [if_pos rfl]
    refine .bind (ends_evalInt hmodels hfirst fun i => ?_)
    refine .bind (ends_evalInt hmodels hlast fun j => ?_)
    refine safe_loop hmodels hcounter (Scope.isDeclared_iff.2 ⟨.int, hknown⟩) hbody ?_ hmissing
      hfinal (rounds i j) i
    exact hbody.safe (fun name hname => hmissing name (Program.loopDeclared_subset body hname)) hfinal
  | .print hvalue, _, _, machine, hmodels => by
    unfold Stmt.exec
    refine .bind (ends_eval hmodels hvalue fun value _ => ?_)
    exact .write hmodels trivial
  | .read htarget, _, _, machine, hmodels => by
    rcases Scope.target_eq_ok.1 htarget with ⟨-, hunlocked⟩
    unfold Stmt.exec
    refine .bind (ends_target hmodels htarget fun hty => ?_)
    refine .bind (.readWord ?_ fun fault input hfault => Input.expected_of_readWord hfault)
    intro word input _
    cases hvalue : Value.ofText? word _ with
    | none => exact .throw trivial
    | some value =>
      have hlater : Store.Models missing final scope { machine with input := input }.store := hmodels
      rw [← Value.ty_of_ofText? hvalue] at hty
      exact safe_assign hlater hunlocked hty
  | .assert hcondition, _, _, machine, hmodels => by
    unfold Stmt.exec
    refine .bind (ends_eval hmodels hcondition fun value hvalueTy => ?_)
    refine .bind (ends_expect hvalueTy ?_)
    by_cases hfalse : value = .bool false
    · rw [if_pos hfalse]
      exact .write hmodels trivial
    · rw [if_neg hfalse]
      exact .pure hmodels

/-- A typed program is safe. -/
theorem Program.Typed.safe {missing : String → Prop} {final scope after : TypeScope}
    {program : List Stmt} :
    Program.Typed scope program after → (∀ name ∈ Program.loopDeclared program, missing name) →
      (∀ name ty, after.ty? name = some ty → final.ty? name = some ty) →
        ∀ machine : Machine, Store.Models missing final scope machine.store →
          Safe missing final after (Program.exec program) machine
  | .nil, _, _, machine, hmodels => by
    unfold Program.exec
    exact .pure hmodels
  | .cons hstmt hrest, hmissing, hfinal, machine, hmodels => by
    unfold Program.exec
    rw [Program.loopDeclared, List.flatMap_cons] at hmissing
    refine .bind (.mono (hstmt.safe ?_ ?_ machine hmodels) ?_ fun _ _ hfault => hfault)
    · intro name hname
      exact hmissing name (List.mem_append_left _ hname)
    · intro name ty hty
      exact hfinal name ty (hrest.grows.keeps name ty hty)
    · intro _ later hlater
      refine hrest.safe ?_ hfinal later hlater
      intro name hname
      exact hmissing name (List.mem_append_right _ hname)

end

/-! ## Accepted sources -/

/-- No stage finds a mistake in the source, which is read as the program. -/
structure Accepted (source : String) (program : Program) : Prop where
  lexical : (TokenStream.ofSource source).diagnostics = []
  syntactic : Program.ofStream (.ofSource source) = .ok (program, [])
  semantic : Program.mistakes program = []

/-- The program of a source in which no stage finds a mistake. -/
def accepted? (source : String) : Option Program :=
  match Program.ofStream (.ofSource source) with
  | .ok (program, []) =>
    if (TokenStream.ofSource source).diagnostics = [] ∧ Program.mistakes program = [] then
      some program
    else none
  | _ => none

/-- The program of an accepted source is the one that it is accepted with. -/
theorem accepted?_eq_some_iff {source : String} {program : Program} :
    accepted? source = some program ↔ Accepted source program := by
  constructor
  · intro hsome
    unfold accepted? at hsome
    split at hsome
    · next other hread =>
      split at hsome
      · next hquiet =>
        cases hsome
        exact ⟨hquiet.1, hread, hquiet.2⟩
      · cases hsome
    · cases hsome
  · intro haccepted
    unfold accepted?
    rw [haccepted.syntactic]
    exact if_pos ⟨haccepted.lexical, haccepted.semantic⟩

/-- An accepted program follows the typing rules. -/
theorem Accepted.typed {source : String} {program : Program} (haccepted : Accepted source program) :
    ∃ final, Program.Typed .empty program final := by
  have htree := Grammar.isProgram_of_ofStream haccepted.syntactic
  have hshaped := htree.shaped (TokenStream.scanned_ofSource source)
  exact ⟨_, Program.typed_of_check program .empty hshaped haccepted.semantic⟩

/-- A run of a typed program meets no other faults than the expected ones. -/
theorem Program.Typed.expected_of_run {program : Program} {final : TypeScope}
    (htyped : Program.Typed .empty program final) {input : Input} {output : Output} {fault : Fault}
    (hrun : ((Machine.start input output).run program).1 = .error fault) :
    fault.Expected fun name => name ∈ Program.loopDeclared program := by
  have hsafe := htyped.safe (fun name hname => hname) (fun name ty hty => hty)
    (Machine.start input output) Store.Models.empty
  unfold Machine.run at hrun
  unfold Safe Ends at hsafe
  cases hexec : Program.exec program (Machine.start input output) with
  | ok _ after =>
    cases hflush : after.output.flushFailure with
    | none => simp [hexec, hflush] at hrun
    | some reason =>
      simp only [hexec, hflush] at hrun
      cases hrun
      trivial
  | error other after =>
    rw [hexec] at hsafe
    cases hflush : after.output.flushFailure with
    | none =>
      simp only [hexec, hflush] at hrun
      cases hrun
      exact hsafe
    | some reason =>
      simp only [hexec, hflush] at hrun
      cases hrun
      trivial

/-- A run of an accepted program ends well, or with a fault of its arithmetic, its
input or its output, or with the use of a name that is declared in the body of a
loop. -/
theorem run_accepted_is_safe {source : String} {program : Program}
    (haccepted : Accepted source program) (input : Input) (output : Output) :
    ((Machine.start input output).run program).1 = .ok () ∨
      ∃ fault, ((Machine.start input output).run program).1 = .error fault ∧
        fault.Expected fun name => name ∈ Program.loopDeclared program := by
  rcases haccepted.typed with ⟨final, htyped⟩
  cases hrun : ((Machine.start input output).run program).1 with
  | ok _ =>
    left
    rfl
  | error fault =>
    right
    exact ⟨fault, rfl, htyped.expected_of_run hrun⟩

/-- A program whose loop is run as often as its input says. -/
def readBound : String :=
  "var i:int; read i; for i in 0..i do var x:int := 6/i end for; print x"

/-- However often the loop is run, only expected faults end the program. -/
theorem run_readBound_is_safe :
    ∃ program, Accepted readBound program ∧ ∀ input output,
      ((Machine.start input output).run program).1 = .ok () ∨
        ∃ fault, ((Machine.start input output).run program).1 = .error fault ∧
          fault.Expected fun name => name ∈ Program.loopDeclared program := by
  have hsome : (accepted? readBound).isSome = true := by decide +kernel
  rcases Option.isSome_iff_exists.1 hsome with ⟨program, hprogram⟩
  have haccepted : Accepted readBound program := accepted?_eq_some_iff.1 hprogram
  exact ⟨program, haccepted, run_accepted_is_safe haccepted⟩

end LoopLang
