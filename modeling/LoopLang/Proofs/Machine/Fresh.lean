import LoopLang.Proofs.Machine.Logic

/-!
# Declarations in loops

A declaration in the body of a loop is met once in every round.  The first time it
adds the name, later it finds it with the value that the last round has left there.
Neither the declaration nor anything that comes after it can tell the difference: each
time the name begins with the first value of its type, also for an initial value that
mentions the name itself.

Main definitions:

- `Machine.AgreeExcept`: two machines that differ in some names only.
- `Exec.EndAlike`: two runs with the same result that leave machines without a
  difference.
- `Machine.Renewed`: a name has got the first value of its type.

Main results:

- Theorem `Program.exec_respects`: machines without a difference run alike.
- Theorem `Stmt.exec_declare`: a declaration in a loop begins with a renewed name.
- Theorem `Stmt.exec_declare_starts_over`: no earlier value of the name has an influence.
-/

namespace LoopLang

/-! ## Machines that agree -/

/-- Two scopes with the same locks and the same entries, except for the hidden names. -/
structure Scope.AgreeExcept {α : Type} (hidden : List String) (left right : Scope α) : Prop where
  find?_eq : ∀ name ∉ hidden, left.find? name = right.find? name
  locks_eq : left.locks = right.locks

/-- Two machines that differ in the hidden names only. -/
structure Machine.AgreeExcept (hidden : List String) (left right : Machine) : Prop where
  store : left.store.AgreeExcept hidden right.store
  input_eq : left.input = right.input
  output_eq : left.output = right.output

namespace Scope.AgreeExcept

variable {α : Type} {left right : Scope α}

/-- Stores without a difference have the same entries. -/
theorem find? (hagree : AgreeExcept [] left right) (name : String) :
    left.find? name = right.find? name :=
  hagree.find?_eq name List.not_mem_nil

theorem ty?_eq (hagree : AgreeExcept [] left right) (name : String) :
    left.ty? name = right.ty? name :=
  congrArg _ (hagree.find? name)

theorem get?_eq (hagree : AgreeExcept [] left right) (name : String) :
    left.get? name = right.get? name :=
  congrArg _ (hagree.find? name)

theorem isDeclared_eq (hagree : AgreeExcept [] left right) (name : String) :
    left.isDeclared name = right.isDeclared name :=
  congrArg _ (hagree.find? name)

theorem target_eq (hagree : AgreeExcept [] left right) (name : String) :
    left.target name = right.target name := by
  have hlocked : left.isLocked name = right.isLocked name := by
    rw [Scope.isLocked, Scope.isLocked, hagree.locks_eq]
  rw [Scope.target, Scope.target, hagree.ty?_eq, hlocked]

/-- The same content of the same name is no difference. -/
theorem set {hidden : List String} (hagree : AgreeExcept hidden left right) (name : String)
    (content : α) : AgreeExcept hidden (left.set name content) (right.set name content) := by
  refine ⟨?_, hagree.locks_eq⟩
  intro other hother
  simp only [Scope.find?_set, hagree.find?_eq other hother]

theorem lock (hagree : AgreeExcept [] left right) (name : String) :
    AgreeExcept [] (left.lock name) (right.lock name) :=
  ⟨hagree.find?_eq, congrArg (name :: ·) hagree.locks_eq⟩

theorem unlock (hagree : AgreeExcept [] left right) : AgreeExcept [] left.unlock right.unlock :=
  ⟨hagree.find?_eq, congrArg List.tail hagree.locks_eq⟩

end Scope.AgreeExcept

/-- The value of an expression depends on the contents of names only. -/
theorem Expr.eval_eq_of_agree {left right : Store} (hagree : left.AgreeExcept [] right)
    (expr : Expr) : expr.eval left = expr.eval right := by
  induction expr with
  | leaf token => simp only [eval, evalLeaf, hagree.get?_eq]
  | unary op token operand ih => simp only [eval, ih]
  | binary op token first second ihfirst ihsecond => simp only [eval, ihfirst, ihsecond]

/-- The bounds of a loop are the same without a difference. -/
theorem Expr.evalInt_eq_of_agree {left right : Store} (hagree : left.AgreeExcept [] right)
    (expr : Expr) : expr.evalInt left = expr.evalInt right := by
  rw [Expr.evalInt, Expr.evalInt, expr.eval_eq_of_agree hagree]

/-! ## Actions -/

namespace Exec

variable {α β : Type}

/-- The two runs have the same result, or the same fault, and leave machines without a
difference. -/
inductive EndAlike : EStateM.Result Fault Machine α → EStateM.Result Fault Machine α → Prop where
  | done {a : α} {left right : Machine} (hagree : left.AgreeExcept [] right) :
      EndAlike (.ok a left) (.ok a right)
  | failed {fault : Fault} {left right : Machine} (hagree : left.AgreeExcept [] right) :
      EndAlike (.error fault left) (.error fault right)

/-- On machines without a difference the action does the same. -/
def Respects (action : Exec α) : Prop :=
  ∀ left right : Machine, left.AgreeExcept [] right → EndAlike (action left) (action right)

/-- What comes after runs that end alike ends alike. -/
theorem EndAlike.bind {action other : Exec α} {next : α → Exec β} {left right : Machine}
    (haction : EndAlike (action left) (other right)) (hnext : ∀ a, Respects (next a)) :
    EndAlike ((action >>= next) left) ((other >>= next) right) := by
  generalize hleft : action left = first at haction
  generalize hright : other right = second at haction
  cases haction with
  | done hagree =>
    simp only [Bind.bind, EStateM.bind, hleft, hright]
    exact hnext _ _ _ hagree
  | failed hagree =>
    simp only [Bind.bind, EStateM.bind, hleft, hright]
    exact .failed hagree

namespace Respects

theorem pure (a : α) : Respects (Pure.pure a : Exec α) := by
  intro left right hagree
  exact .done hagree

theorem throw (fault : Fault) : Respects (MonadExcept.throw fault : Exec α) := by
  intro left right hagree
  exact .failed hagree

theorem bind {action : Exec α} {next : α → Exec β} (haction : Respects action)
    (hnext : ∀ a, Respects (next a)) : Respects (action >>= next) := by
  intro left right hagree
  exact (haction left right hagree).bind hnext

/-- An action that looks at the machine first. -/
theorem get_bind {next : Machine → Exec α}
    (hnext : ∀ left right : Machine, left.AgreeExcept [] right →
      EndAlike (next left left) (next right right)) : Respects (get >>= next) :=
  hnext

/-- A computation that has the same result on stores without a difference. -/
theorem compute {f : Store → Except Fault α}
    (hf : ∀ left right : Store, left.AgreeExcept [] right → f left = f right) :
    Respects (Exec.compute f) := by
  intro left right hagree
  simp only [Exec.compute, hf _ _ hagree.store]
  cases f right.store with
  | ok a => exact .done hagree
  | error fault => exact .failed hagree

theorem eval (expr : Expr) : Respects (Exec.compute fun store => expr.eval store) :=
  compute fun _ _ hagree => expr.eval_eq_of_agree hagree

theorem evalInt (expr : Expr) : Respects (Exec.compute fun store => expr.evalInt store) :=
  compute fun _ _ hagree => expr.evalInt_eq_of_agree hagree

theorem expect (value : Value) (ty : Ty) : Respects (Exec.compute fun _ => value.expect ty) :=
  compute fun _ _ _ => rfl

theorem target (name : String) : Respects (Exec.target name) := by
  apply compute
  intro left right hagree
  rw [hagree.target_eq]

/-- Both stores refuse the change for the same reason, or both make it. -/
theorem change {name : String} {f : Store → Except Refusal Store}
    (hf : ∀ left right : Store, left.AgreeExcept [] right →
      (∃ refusal, f left = .error refusal ∧ f right = .error refusal) ∨
        ∃ left' right', f left = .ok left' ∧ f right = .ok right' ∧ left'.AgreeExcept [] right') :
    Respects (Exec.change name f) := by
  intro left right hagree
  unfold Exec.change
  rcases hf _ _ hagree.store with ⟨refusal, hleft, hright⟩ | ⟨_, _, hleft, hright, hchanged⟩
  · rw [hleft, hright]
    exact .failed hagree
  · rw [hleft, hright]
    exact .done ⟨hchanged, hagree.input_eq, hagree.output_eq⟩

/-- An assignment does the same on machines without a difference. -/
theorem assign (name : String) (value : Value) : Respects (Exec.assign name value) := by
  apply change
  intro left right hagree
  simp only [Scope.assign, hagree.target_eq]
  cases right.target name with
  | error refusal => exact .inl ⟨refusal, rfl, rfl⟩
  | ok ty => exact .inr ⟨_, _, rfl, rfl, hagree.set name value⟩

theorem overwrite (name : String) (value : Value) :
    Respects (Exec.change name fun store => store.overwrite name value) := by
  apply change
  intro left right hagree
  simp only [Scope.overwrite, hagree.isDeclared_eq]
  split
  · exact .inr ⟨_, _, rfl, rfl, hagree.set name value⟩
  · exact .inl ⟨_, rfl, rfl⟩

/-- The new entry is the same in both stores. -/
theorem add (name : String) (ty : Ty) (value : Value) :
    Respects (Exec.change name fun store => store.declare name ty value) := by
  apply change
  intro left right hagree
  simp only [Scope.declare, hagree.isDeclared_eq]
  split
  · exact .inl ⟨_, rfl, rfl⟩
  · refine .inr ⟨_, _, rfl, rfl, ⟨?_, hagree.locks_eq⟩⟩
    intro other _
    have hother := hagree.find? other
    simp only [Scope.find?, List.lookup_cons] at hother ⊢
    rw [hother]

/-- A declaration does the same on machines without a difference. -/
theorem declare (name : String) (ty : Ty) : Respects (Exec.declare name ty) := by
  have hagain : Respects (do
      let declared ← Exec.target name
      Exec.compute fun _ => (Value.zero ty).expect declared
      Exec.assign name (.zero ty)) :=
    bind (target name) fun _ => bind (expect _ _) fun _ => assign name _
  apply get_bind
  intro left right hagree
  have hmet : (left.store.isDeclared name && left.store.inLoop) =
      (right.store.isDeclared name && right.store.inLoop) := by
    rw [Scope.inLoop, Scope.inLoop, hagree.store.isDeclared_eq, hagree.store.locks_eq]
  rw [hmet]
  split
  · exact hagain left right hagree
  · exact add name ty _ left right hagree

theorem write (text : String) : Respects (Exec.write text) := by
  intro left right hagree
  simp only [Exec.write, hagree.output_eq]
  split
  · exact .done ⟨hagree.store, hagree.input_eq, rfl⟩
  · exact .failed ⟨hagree.store, hagree.input_eq, rfl⟩

theorem readWord : Respects Exec.readWord := by
  intro left right hagree
  simp only [Exec.readWord, hagree.input_eq]
  split
  · exact .done ⟨hagree.store, rfl, hagree.output_eq⟩
  · exact .failed ⟨hagree.store, rfl, hagree.output_eq⟩

/-- A lock around an action makes no difference. -/
theorem locking {name : String} {action : Exec Unit} (haction : Respects action) :
    Respects (Exec.locking name action) := by
  intro left right hagree
  have hends := haction { left with store := left.store.lock name }
    { right with store := right.store.lock name }
    ⟨hagree.store.lock name, hagree.input_eq, hagree.output_eq⟩
  unfold Exec.locking
  generalize action { left with store := left.store.lock name } = first at hends ⊢
  generalize action { right with store := right.store.lock name } = second at hends ⊢
  cases hends with
  | done hafter => exact .done ⟨hafter.store.unlock, hafter.input_eq, hafter.output_eq⟩
  | failed hafter => exact .failed ⟨hafter.store.unlock, hafter.input_eq, hafter.output_eq⟩

/-- The rounds of a loop do the same if its body does. -/
theorem countUp {name : String} {action : Exec Unit} (haction : Respects action) (rounds : Nat)
    (i : Int64) : Respects (Exec.countUp name action rounds i) := by
  induction rounds generalizing i with
  | zero => exact pure ()
  | succ rounds ih =>
    unfold Exec.countUp
    exact bind (overwrite name (.int i)) fun _ => bind haction fun _ => ih (i + 1)

end Respects

end Exec

open Exec

/-! ## Statements -/

mutual

/-- On machines without a difference a statement does the same. -/
theorem Stmt.exec_respects : ∀ stmt : Stmt, Respects stmt.exec
  | .declare name _ ty initial => by
    unfold Stmt.exec
    refine .bind (.declare name.text ty) fun _ => ?_
    cases initial with
    | none => exact .pure ()
    | some expr =>
      exact .bind (.eval expr) fun value => .bind (.expect value ty) fun _ => .assign _ value
  | .assign name expr => by
    unfold Stmt.exec
    refine .bind (.target name.text) fun ty => .bind (.eval expr) fun value => ?_
    exact .bind (.expect value ty) fun _ => .assign name.text value
  | .loop counter first last body => by
    unfold Stmt.exec
    refine .bind (.target counter.text) fun ty => ?_
    by_cases hty : ty = .int
    · rw [if_pos hty]
      refine .bind (.evalInt first) fun i => .bind (.evalInt last) fun j => ?_
      exact .locking (.countUp (Program.exec_respects body) (rounds i j) i)
    · rw [if_neg hty]
      exact .throw _
  | .print expr => by
    unfold Stmt.exec
    exact .bind (.eval expr) fun value => .write value.text
  | .read name => by
    unfold Stmt.exec
    refine .bind (.target name.text) fun ty => .bind .readWord fun word => ?_
    cases Value.ofText? word ty with
    | none => exact .throw _
    | some value => exact .assign name.text value
  | .assert keyword condition quotation => by
    unfold Stmt.exec
    refine .bind (.eval condition) fun value => .bind (.expect value .bool) fun _ => ?_
    by_cases hfalse : value = .bool false
    · rw [if_pos hfalse]
      exact .write _
    · rw [if_neg hfalse]
      exact .pure ()

/-- On machines without a difference statements do the same. -/
theorem Program.exec_respects : ∀ program : List Stmt, Respects (Program.exec program)
  | [] => by
    unfold Program.exec
    exact .pure ()
  | stmt :: rest => by
    unfold Program.exec
    exact .bind (Stmt.exec_respects stmt) fun _ => Program.exec_respects rest

end

/-! ## Declarations that are met again -/

/-- The name has got the first value of the type, and nothing else has changed. -/
structure Machine.Renewed (name : String) (ty : Ty) (before after : Machine) : Prop where
  find?_eq : after.store.find? name = some ⟨ty, .zero ty⟩
  others : before.AgreeExcept [name] after

/-- The name is not declared yet, or it has been declared with the type.  It may have any
value then. -/
def Store.Admits (store : Store) (name : String) (ty : Ty) : Prop :=
  store.ty? name = none ∨ store.ty? name = some ty

/-- Machines that differ in a name at most have no difference when it is renewed. -/
theorem Machine.Renewed.agree {name : String} {ty : Ty} {left right left' right' : Machine}
    (hagree : left.AgreeExcept [name] right) (hleft : left.Renewed name ty left')
    (hright : right.Renewed name ty right') : left'.AgreeExcept [] right' where
  store := by
    refine ⟨?_, ?_⟩
    · intro other _
      by_cases hsame : other = name
      · rw [hsame, hleft.find?_eq, hright.find?_eq]
      · have hother : other ∉ [name] := by simpa using hsame
        rw [← hleft.others.store.find?_eq other hother, hagree.store.find?_eq other hother,
          hright.others.store.find?_eq other hother]
    · rw [← hleft.others.store.locks_eq, hagree.store.locks_eq, hright.others.store.locks_eq]
  input_eq := by rw [← hleft.others.input_eq, hagree.input_eq, hright.others.input_eq]
  output_eq := by rw [← hleft.others.output_eq, hagree.output_eq, hright.others.output_eq]

section Declarations

variable {machine : Machine} {ty : Ty}

/-- In a loop, a declaration that is admitted renews the name, whether it is declared
already or not. -/
theorem Exec.declare_renews {name : String} (hloop : machine.store.locks ≠ [])
    (hunlocked : name ∉ machine.store.locks) (hadmits : machine.store.Admits name ty) :
    ∃ fresh, declare name ty machine = .ok () fresh ∧ machine.Renewed name ty fresh := by
  have hends : Ends (declare name ty) machine (fun _ fresh => machine.Renewed name ty fresh)
      (fun _ _ => False) := by
    apply Ends.declare
    · intro store hstore
      refine ⟨?_, ⟨?_, (Scope.locks_of_declare hstore).symm⟩, rfl, rfl⟩
      · simp [Scope.find?_of_declare hstore]
      · intro other hother
        have hdiffers : other ≠ name := by simpa using hother
        rw [Scope.find?_of_declare hstore, if_neg hdiffers]
    · intro hty _ _
      rcases Option.map_eq_some_iff.1 hty with ⟨entry, hentry, hsame⟩
      refine ⟨?_, ⟨?_, rfl⟩, rfl, rfl⟩
      · simp [Scope.find?_set, hentry, hsame]
      · intro other hother
        have hdiffers : other ≠ name := by simpa using hother
        rw [Scope.find?_set, if_neg hdiffers]
    · intro _ hnone
      have hempty : machine.store.locks = [] := by simpa [Scope.inLoop] using hnone
      exact hloop hempty
    · intro _ hlocked
      have hmem : name ∈ machine.store.locks := by simpa [Scope.isLocked] using hlocked
      exact hunlocked hmem
    · intro other hother hdiffers
      rcases hadmits with hnone | hsame
      · rw [hnone] at hother
        cases hother
      · rw [hsame] at hother
        exact hdiffers (Option.some.inj hother).symm
  cases hrun : declare name ty machine with
  | error fault after => exact ((Ends.of_error hrun).1 hends).elim
  | ok _ fresh => exact ⟨fresh, rfl, (Ends.of_ok hrun).1 hends⟩

/-- What a declaration ends with, given the machine on which the name has been renewed.
The initial value is computed there. -/
def Machine.initialised (name : String) (ty : Ty) (initial : Option Expr) (fresh : Machine) :
    EStateM.Result Fault Machine Unit :=
  match initial with
  | none => .ok () fresh
  | some expr =>
    match expr.eval fresh.store with
    | .error fault => .error fault fresh
    | .ok value =>
      if value.ty = ty then .ok () { fresh with store := fresh.store.set name value }
      else .error (.typeAssertion ty value.ty) fresh

/-- A declaration in a loop begins with a renewed name. -/
theorem Stmt.exec_declare {name typeToken : Token} (initial : Option Expr)
    (hloop : machine.store.locks ≠ []) (hunlocked : name.text ∉ machine.store.locks)
    (hadmits : machine.store.Admits name.text ty) :
    ∃ fresh, machine.Renewed name.text ty fresh ∧
      (Stmt.declare name typeToken ty initial).exec machine =
        fresh.initialised name.text ty initial := by
  rcases Exec.declare_renews hloop hunlocked hadmits with ⟨fresh, hdeclare, hrenewed⟩
  refine ⟨fresh, hrenewed, ?_⟩
  have htarget : fresh.store.target name.text = .ok ty := by
    refine Scope.target_eq_ok.2 ⟨?_, ?_⟩
    · rw [Scope.ty?, hrenewed.find?_eq]
      rfl
    · rw [Scope.isLocked, ← hrenewed.others.store.locks_eq]
      simpa using hunlocked
  have hassign : ∀ value, Exec.assign name.text value fresh =
      .ok () { fresh with store := fresh.store.set name.text value } := by
    intro value
    simp only [Exec.assign, Exec.change, Scope.assign, htarget]
  cases initial with
  | none =>
    simp only [Stmt.exec, bind, EStateM.bind, hdeclare]
    rfl
  | some expr =>
    simp only [Stmt.exec, bind, EStateM.bind, hdeclare, Machine.initialised, compute]
    cases expr.eval fresh.store with
    | error fault => rfl
    | ok value =>
      by_cases hty : value.ty = ty
      · simp only [Value.expect, hty, if_true, hassign]
      · simp only [Value.expect, hty, if_false]

/-- The initial value depends on the renewed machine only. -/
theorem Machine.AgreeExcept.initialised {left right : Machine} (hagree : left.AgreeExcept [] right)
    (name : String) (ty : Ty) (initial : Option Expr) :
    EndAlike (left.initialised name ty initial) (right.initialised name ty initial) := by
  cases initial with
  | none => exact .done hagree
  | some expr =>
    simp only [Machine.initialised, expr.eval_eq_of_agree hagree.store]
    cases expr.eval right.store with
    | error fault => exact .failed hagree
    | ok value =>
      dsimp only
      split
      · exact .done ⟨hagree.store.set name value, hagree.input_eq, hagree.output_eq⟩
      · exact .failed hagree

/-- A declaration in a loop starts over each time.  On two machines that differ in the
declared name only, it ends with the same result or with the same fault, and with no
difference any more; nor can any statements after it make a difference.  Each time the
initial value is computed on a machine on which the name has the first value of its
type. -/
theorem Stmt.exec_declare_starts_over {name typeToken : Token} {initial : Option Expr}
    {left right : Machine} (hloop : left.store.locks ≠ [])
    (hunlocked : name.text ∉ left.store.locks) (hagree : left.AgreeExcept [name.text] right)
    (hleft : left.store.Admits name.text ty) (hright : right.store.Admits name.text ty) :
    (∃ fresh, left.Renewed name.text ty fresh ∧
      (Stmt.declare name typeToken ty initial).exec left =
        fresh.initialised name.text ty initial) ∧
    EndAlike ((Stmt.declare name typeToken ty initial).exec left)
      ((Stmt.declare name typeToken ty initial).exec right) ∧
    ∀ rest : Program, EndAlike (Program.exec (.declare name typeToken ty initial :: rest) left)
      (Program.exec (.declare name typeToken ty initial :: rest) right) := by
  have hlocks := hagree.store.locks_eq
  obtain ⟨fresh, hfresh, hexec⟩ := exec_declare initial hloop hunlocked hleft
  obtain ⟨fresh', hfresh', hexec'⟩ :=
    exec_declare initial (hlocks ▸ hloop) (hlocks ▸ hunlocked) hright
  have halike : EndAlike ((Stmt.declare name typeToken ty initial).exec left)
      ((Stmt.declare name typeToken ty initial).exec right) := by
    rw [hexec, hexec']
    exact (hfresh.agree hagree hfresh').initialised name.text ty initial
  refine ⟨⟨fresh, hfresh, hexec⟩, halike, ?_⟩
  intro rest
  unfold Program.exec
  exact halike.bind fun _ => Program.exec_respects rest

end Declarations

/-- An initial value of `x` that mentions `x`. -/
def successor : Expr :=
  .binary .addition ⟨.binaryOperator, "+", 1, 18, 17, 18⟩
    (.leaf ⟨.identifier, "x", 1, 16, 15, 16⟩) (.leaf ⟨.integerLiteral, "1", 1, 20, 19, 20⟩)

/-- The declaration with this value. -/
def restarting : Stmt :=
  .declare ⟨.identifier, "x", 1, 5, 4, 5⟩ ⟨.intType, "int", 1, 9, 8, 11⟩ .int (some successor)

/-- A machine in a loop, before the declaration is met. -/
def firstRound : Machine :=
  { Machine.start .empty .unlimited with store := ⟨[("i", ⟨.int, .int 1⟩)], ["i"]⟩ }

/-- A machine in a loop that an earlier round has left a value to. -/
def laterRound : Machine :=
  { firstRound with store := ⟨[("x", ⟨.int, .int 7⟩), ("i", ⟨.int, .int 1⟩)], ["i"]⟩ }

/-- The value of an earlier round is not seen by the declaration that mentions its
own name. -/
theorem exec_restarting_starts_over :
    firstRound.store.get? "x" = none ∧ laterRound.store.get? "x" = some (.int 7) ∧
      EndAlike (restarting.exec laterRound) (restarting.exec firstRound) ∧
      ∃ after, restarting.exec laterRound = .ok () after ∧
        after.store.get? "x" = some (.int 1) := by
  have hagree : laterRound.AgreeExcept ["x"] firstRound := by
    refine ⟨⟨?_, rfl⟩, rfl, rfl⟩
    intro other hother
    have hdiffers : (other == "x") = false := by simpa using hother
    simp [firstRound, laterRound, Scope.find?, List.lookup_cons, hdiffers]
  have hover := @Stmt.exec_declare_starts_over .int ⟨.identifier, "x", 1, 5, 4, 5⟩
    ⟨.intType, "int", 1, 9, 8, 11⟩ (some successor) laterRound firstRound (by decide) (by decide)
    hagree (.inr rfl) (.inl rfl)
  rcases hover with ⟨⟨fresh, hfresh, hexec⟩, halike, -⟩
  have hzero : fresh.store.get? "x" = some (.int 0) := by
    rw [Scope.get?, hfresh.find?_eq]
    rfl
  have hone : Value.ofText? "1" .int = some (.int 1) := by decide +kernel
  have hvalue : successor.eval fresh.store = .ok (.int 1) := by
    simp only [successor, Expr.eval, Expr.evalLeaf, hzero, TokenKind.literalType?,
      Option.bind_some, hone]
    rfl
  refine ⟨rfl, rfl, halike, { fresh with store := fresh.store.set "x" (.int 1) }, ?_, ?_⟩
  · rw [restarting, hexec, Machine.initialised, hvalue]
    rfl
  · simp [Scope.get?, Scope.find?_set, hfresh.find?_eq]

end LoopLang
