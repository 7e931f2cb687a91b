import LoopLang.Proofs.Scope.Growth

/-!
# The history of a scope

A scope is made by calls, each of which may be refused.  What the scope knows can
be read off the calls alone: a name has the type of its first declaration and the
content that was stored last by a call that was not refused, and the locks are
the stack that the pushes and pops leave.  So the answer to the next call can be
read off them as well.

Main definitions:

- `Scope.Call`, `Scope.ofCalls`: the calls that change a scope, and the scope that
  they leave.
- `History.firstTy?`, `History.lastContent?`, `History.stack`: the views of a
  scope, said by the calls alone.
- `History.refusal?`: the answer to a call, said by the calls before it.
- `Scope.Reflects`: the scope has the views that its history gives.

Main results:

- Theorem `Scope.Reflects.apply_eq_error_iff`: which calls are refused.
- Theorem `Scope.Reflects.perform`: one call keeps the views of a scope and its
  history the same.
- Theorem `Scope.ofCalls_determined_by_history`: what is known of a scope after any
  calls.
-/

namespace LoopLang

namespace Scope

variable {α : Type}

/-! ## Calls -/

/-- A call that may change a scope. -/
inductive Call (α : Type) where
  | declare (name : String) (ty : Ty) (content : α)
  | assign (name : String) (content : α)
  | overwrite (name : String) (content : α)
  | lock (name : String)
  | unlock
deriving DecidableEq, Repr

namespace Call

/-- What a call makes of a scope, or why it is refused. -/
def apply : Call α → Scope α → Except Refusal (Scope α)
  | declare name ty content, scope => scope.declare name ty content
  | assign name content, scope => scope.assign name content
  | overwrite name content, scope => scope.overwrite name content
  | lock name, scope => .ok (scope.lock name)
  | unlock, scope => .ok scope.unlock

/-- The type that a call would give to a name. -/
def ty? (name : String) : Call α → Option Ty
  | declare other ty _ => if other = name then some ty else none
  | assign .. | overwrite .. | lock _ | unlock => none

/-- The content that a call would give to a name. -/
def content? (name : String) : Call α → Option α
  | declare other _ content | assign other content | overwrite other content =>
    if other = name then some content else none
  | lock _ | unlock => none

end Call

/-- The scope after a call.  A refused call leaves it as it is. -/
def perform (scope : Scope α) (call : Call α) : Scope α :=
  match call.apply scope with
  | .ok after => after
  | .error _ => scope

/-- The scope that calls leave, one after the other and from a new scope on. -/
def ofCalls (calls : List (Call α)) : Scope α :=
  calls.foldl perform .empty

theorem perform_of_ok {scope after : Scope α} {call : Call α}
    (hcall : call.apply scope = .ok after) : scope.perform call = after := by
  rw [perform, hcall]

/-- A refused call changes nothing. -/
theorem perform_of_error {scope : Scope α} {call : Call α} {refusal : Refusal}
    (hcall : call.apply scope = .error refusal) : scope.perform call = scope := by
  rw [perform, hcall]

theorem ofCalls_append (calls more : List (Call α)) :
    ofCalls (calls ++ more) = more.foldl perform (ofCalls calls) :=
  List.foldl_append

/-- The last of some calls is made on what the others have left. -/
theorem ofCalls_concat (calls : List (Call α)) (call : Call α) :
    ofCalls (calls ++ [call]) = (ofCalls calls).perform call :=
  ofCalls_append calls [call]

end Scope

/-! ## What the calls say -/

namespace History

open Scope (Call)

variable {α : Type}

/-- The type in the first declaration of a name. -/
def firstTy? (calls : List (Call α)) (name : String) : Option Ty :=
  calls.findSome? (Call.ty? name)

/-- The name is declared by one of the calls. -/
def Declared (calls : List (Call α)) (name : String) : Prop :=
  ∃ ty content, Call.declare name ty content ∈ calls

/-- What a call does to a stack of names. -/
def pushPop (names : List String) : Call α → List String
  | .lock name => name :: names
  | .unlock => names.tail
  | .declare .. | .assign .. | .overwrite .. => names

/-- The stack that the pushes and pops leave, the latest name first. -/
def stack (calls : List (Call α)) : List String :=
  calls.foldl pushPop []

/-- Why a call is refused after the given calls. -/
def refusal? (calls : List (Call α)) : Call α → Option Refusal
  | .declare name _ _ => if (firstTy? calls name).isSome then some .alreadyDeclared else none
  | .assign name _ =>
    if (firstTy? calls name).isNone then some .undeclared
    else if name ∈ stack calls then some .locked
    else none
  | .overwrite name _ => if (firstTy? calls name).isNone then some .undeclared else none
  | .lock _ | .unlock => none

/-- The calls that are not refused, each of them judged by all calls before it. -/
def succeededAfter (earlier : List (Call α)) : List (Call α) → List (Call α)
  | [] => []
  | call :: later =>
    (if (refusal? earlier call).isNone then [call] else []) ++
      succeededAfter (earlier ++ [call]) later

/-- The content of a name in the last call that has one for it and is not
refused. -/
def lastContent? (calls : List (Call α)) (name : String) : Option α :=
  (succeededAfter [] calls).reverse.findSome? (Call.content? name)

/-! ### One call more -/

/-- The first type of a name is that of an earlier call, if there is one. -/
theorem firstTy?_concat (calls : List (Call α)) (call : Call α) (name : String) :
    firstTy? (calls ++ [call]) name = (firstTy? calls name).or (call.ty? name) := by
  simp [firstTy?, List.findSome?_append]

theorem stack_concat (calls : List (Call α)) (call : Call α) :
    stack (calls ++ [call]) = pushPop (stack calls) call := by
  simp [stack]

/-- A name that is on the stack twice is on it after a pop. -/
theorem mem_tail_of_two_le_count {names : List String} {name : String}
    (htwice : 2 ≤ names.count name) : name ∈ names.tail := by
  cases names with
  | nil => simp at htwice
  | cons head rest =>
    rw [List.count_cons] at htwice
    have honce : 0 < rest.count name := by
      split at htwice <;> omega
    exact List.count_pos_iff.1 honce

/-- A further call is added to those that have succeeded if it is not refused. -/
theorem succeededAfter_concat (earlier calls : List (Call α)) (call : Call α) :
    succeededAfter earlier (calls ++ [call]) = succeededAfter earlier calls ++
      (if (refusal? (earlier ++ calls) call).isNone then [call] else []) := by
  induction calls generalizing earlier with
  | nil => simp [succeededAfter]
  | cons head rest ih => simp [succeededAfter, ih]

/-- A call that is not refused stores its content. -/
theorem lastContent?_concat {calls : List (Call α)} {call : Call α}
    (hcall : refusal? calls call = none) (name : String) :
    lastContent? (calls ++ [call]) name =
      (call.content? name).or (lastContent? calls name) := by
  rw [lastContent?, succeededAfter_concat, List.nil_append, hcall]
  cases hcontent : call.content? name <;> simp [lastContent?, hcontent]

/-- A refused call stores nothing. -/
theorem lastContent?_concat_of_refused {calls : List (Call α)} {call : Call α}
    {refusal : Refusal} (hcall : refusal? calls call = some refusal) (name : String) :
    lastContent? (calls ++ [call]) name = lastContent? calls name := by
  simp [lastContent?, succeededAfter_concat, hcall]

/-! ### Declared names -/

/-- A first declaration is found exactly if there is a declaration. -/
theorem isSome_firstTy?_iff {calls : List (Call α)} {name : String} :
    (firstTy? calls name).isSome = true ↔ Declared calls name := by
  rw [firstTy?, List.findSome?_isSome_iff]
  constructor
  · rintro ⟨call, hcall, hty⟩
    cases call with
    | declare other ty content =>
      by_cases hsame : other = name
      · rw [hsame] at hcall
        exact ⟨ty, content, hcall⟩
      · simp [Call.ty?, hsame] at hty
    | assign | overwrite | lock | unlock => cases hty
  · rintro ⟨ty, content, hcall⟩
    exact ⟨_, hcall, by simp [Call.ty?]⟩

theorem firstTy?_eq_none_iff {calls : List (Call α)} {name : String} :
    firstTy? calls name = none ↔ ¬ Declared calls name := by
  rw [← isSome_firstTy?_iff, Bool.not_eq_true, Option.isSome_eq_false_iff, Option.isNone_iff_eq_none]

/-- Why a declaration is refused. -/
theorem refusal?_declare_iff {calls : List (Call α)} {name : String} {ty : Ty} {content : α}
    {refusal : Refusal} :
    refusal? calls (.declare name ty content) = some refusal ↔
      refusal = .alreadyDeclared ∧ Declared calls name := by
  rw [refusal?, ← isSome_firstTy?_iff]
  cases (firstTy? calls name).isSome <;> simp [eq_comm]

/-- Why the content of a name cannot be replaced. -/
theorem refusal?_overwrite_iff {calls : List (Call α)} {name : String} {content : α}
    {refusal : Refusal} :
    refusal? calls (.overwrite name content) = some refusal ↔
      refusal = .undeclared ∧ ¬ Declared calls name := by
  rw [refusal?, ← firstTy?_eq_none_iff]
  cases firstTy? calls name <;> simp [eq_comm]

/-- Later calls do not change the first declaration. -/
theorem firstTy?_append {calls : List (Call α)} {name : String} {ty : Ty}
    (hty : firstTy? calls name = some ty) (more : List (Call α)) :
    firstTy? (calls ++ more) name = some ty := by
  rw [firstTy?, List.findSome?_append]
  rw [firstTy?] at hty
  rw [hty]
  rfl

end History

/-! ## Scopes and their histories -/

namespace Scope

open History

variable {α : Type}

/-- An assignment is refused exactly if the name is no target. -/
theorem assign_eq_error_iff {scope : Scope α} {name : String} {content : α} {refusal : Refusal} :
    scope.assign name content = .error refusal ↔ scope.target name = .error refusal := by
  refine ⟨assign_eq_error, ?_⟩
  intro htarget
  rw [assign, htarget]

/-- The content of one name is changed. -/
theorem get?_set (scope : Scope α) (name other : String) (content : α) :
    (scope.set name content).get? other =
      if other = name then (scope.get? other).map fun _ => content else scope.get? other := by
  rw [get?, find?_set]
  by_cases hsame : other = name
  · rw [if_pos hsame, if_pos hsame, get?, Option.map_map, Option.map_map]
    rfl
  · rw [if_neg hsame, if_neg hsame, get?]

/-- The scope has the views that the calls give. -/
structure Reflects (calls : List (Call α)) (scope : Scope α) : Prop where
  ty?_eq : ∀ name, scope.ty? name = firstTy? calls name
  get?_eq : ∀ name, scope.get? name = lastContent? calls name
  locks_eq : scope.locks = stack calls

namespace Reflects

variable {calls : List (Call α)} {scope : Scope α}

/-- The names of a scope are those that its calls have declared. -/
theorem isDeclared_eq (hreflects : Reflects calls scope) (name : String) :
    scope.isDeclared name = (firstTy? calls name).isSome := by
  rw [← hreflects.ty?_eq, ty?, isDeclared, Option.isSome_map]

/-- The locked names of a scope are those on the stack of its calls. -/
theorem isLocked_iff (hreflects : Reflects calls scope) (name : String) :
    scope.isLocked name = true ↔ name ∈ stack calls := by
  rw [isLocked, hreflects.locks_eq, List.contains_iff_mem]

/-- A name is no target if it was never declared, or else if it is on the stack. -/
theorem target_eq_error_iff (hreflects : Reflects calls scope) {name : String}
    {refusal : Refusal} :
    scope.target name = .error refusal ↔
      (refusal = .undeclared ∧ ¬ Declared calls name) ∨
        (refusal = .locked ∧ Declared calls name ∧ name ∈ stack calls) := by
  have hlocked := hreflects.isLocked_iff name
  rw [target, hreflects.ty?_eq, ← isSome_firstTy?_iff]
  cases firstTy? calls name with
  | none => simp [eq_comm]
  | some ty => by_cases hmem : name ∈ stack calls <;> simp [hlocked, hmem, eq_comm]

/-- A call is refused exactly for the reason that the calls before it give. -/
theorem apply_eq_error_iff (hreflects : Reflects calls scope) (call : Call α)
    (refusal : Refusal) :
    call.apply scope = .error refusal ↔ refusal? calls call = some refusal := by
  cases call with
  | declare name ty content =>
    rw [Call.apply, declare, refusal?, hreflects.isDeclared_eq]
    cases (firstTy? calls name).isSome <;> simp
  | assign name content =>
    have hlocked := hreflects.isLocked_iff name
    rw [Call.apply, assign, target, refusal?, hreflects.ty?_eq]
    cases firstTy? calls name with
    | none => simp
    | some ty => by_cases hmem : name ∈ stack calls <;> simp [hlocked, hmem]
  | overwrite name content =>
    rw [Call.apply, overwrite, refusal?, hreflects.isDeclared_eq]
    cases firstTy? calls name <;> simp
  | lock | unlock => simp [Call.apply, refusal?]

/-- A call that is not refused is one that the calls before it allow. -/
theorem refusal?_eq_none {after : Scope α} (hreflects : Reflects calls scope) {call : Call α}
    (hcall : call.apply scope = .ok after) : refusal? calls call = none := by
  rw [Option.eq_none_iff_forall_not_mem]
  intro refusal hrefusal
  have hrefused := (hreflects.apply_eq_error_iff call refusal).2 hrefusal
  rw [hcall] at hrefused
  cases hrefused

/-- A refused call says nothing that the calls before it do not say. -/
theorem refused (hreflects : Reflects calls scope) {call : Call α} {refusal : Refusal}
    (hcall : call.apply scope = .error refusal) : Reflects (calls ++ [call]) scope := by
  have hrefusal := (hreflects.apply_eq_error_iff call refusal).1 hcall
  have hty : ∀ name, (firstTy? calls name).or (call.ty? name) = firstTy? calls name := by
    intro name
    cases call with
    | declare other ty content =>
      by_cases hsame : other = name
      · rw [refusal?, hsame] at hrefusal
        cases hfirst : firstTy? calls name with
        | none => simp [hfirst] at hrefusal
        | some first => rfl
      · simp [Call.ty?, hsame]
    | assign | overwrite | lock | unlock => exact Option.or_none
  refine ⟨fun name => ?_, fun name => ?_, ?_⟩
  · rw [firstTy?_concat, hty, hreflects.ty?_eq]
  · rw [lastContent?_concat_of_refused hrefusal, hreflects.get?_eq]
  · rw [stack_concat, hreflects.locks_eq]
    cases call with
    | declare | assign | overwrite => rfl
    | lock | unlock => cases hcall

/-- A new content is the last one of its name, and the others keep theirs. -/
theorem set (hreflects : Reflects calls scope) {name : String} (content : α) {call : Call α}
    (hallowed : refusal? calls call = none) (hdeclared : scope.isDeclared name = true)
    (hcall : call = .assign name content ∨ call = .overwrite name content) :
    Reflects (calls ++ [call]) (scope.set name content) := by
  have hty : ∀ other, call.ty? other = none := by
    intro other
    rcases hcall with rfl | rfl <;> rfl
  have hcontent : ∀ other, call.content? other = if name = other then some content else none := by
    intro other
    rcases hcall with rfl | rfl <;> rfl
  have hstack : pushPop (stack calls) call = stack calls := by
    rcases hcall with rfl | rfl <;> rfl
  refine ⟨fun other => ?_, fun other => ?_, ?_⟩
  · rw [ty?_set, firstTy?_concat, hty, Option.or_none, hreflects.ty?_eq]
  · rw [get?_set, lastContent?_concat hallowed, hcontent, ← hreflects.get?_eq]
    by_cases hsame : other = name
    · subst hsame
      rw [isDeclared] at hdeclared
      rcases Option.isSome_iff_exists.1 hdeclared with ⟨entry, hentry⟩
      simp [get?, hentry]
    · rw [if_neg hsame, if_neg (Ne.symm hsame), Option.none_or]
  · rw [stack_concat, hstack]
    exact hreflects.locks_eq

/-- A call that is not refused changes the views as it changes the history. -/
theorem accepted (hreflects : Reflects calls scope) {call : Call α} {after : Scope α}
    (hcall : call.apply scope = .ok after) : Reflects (calls ++ [call]) after := by
  have hallowed := hreflects.refusal?_eq_none hcall
  cases call with
  | declare name ty content =>
    have hfind := find?_of_declare hcall
    have hnew : firstTy? calls name = none := by
      have hnot := not_declared_of_declare hcall
      rw [hreflects.isDeclared_eq, Option.isSome_eq_false_iff, Option.isNone_iff_eq_none] at hnot
      exact hnot
    refine ⟨fun other => ?_, fun other => ?_, ?_⟩
    · rw [firstTy?_concat, ty?, hfind, Call.ty?, ← hreflects.ty?_eq]
      by_cases hsame : other = name
      · subst hsame
        rw [hreflects.ty?_eq, hnew]
        simp
      · rw [if_neg hsame, if_neg (Ne.symm hsame), Option.or_none, ty?]
    · rw [lastContent?_concat hallowed, get?, hfind, Call.content?, ← hreflects.get?_eq]
      by_cases hsame : other = name
      · subst hsame
        simp
      · rw [if_neg hsame, if_neg (Ne.symm hsame), Option.none_or, get?]
    · rw [locks_of_declare hcall, hreflects.locks_eq, stack_concat]
      rfl
  | assign name content =>
    rcases assign_eq_ok.1 hcall with ⟨⟨ty, htarget⟩, rfl⟩
    have hdeclared := isDeclared_iff.2 ⟨ty, (target_eq_ok.1 htarget).1⟩
    exact hreflects.set content hallowed hdeclared (.inl rfl)
  | overwrite name content =>
    rw [Call.apply, overwrite] at hcall
    by_cases hdeclared : scope.isDeclared name = true
    · rw [if_pos hdeclared] at hcall
      cases hcall
      exact hreflects.set content hallowed hdeclared (.inr rfl)
    · rw [if_neg hdeclared] at hcall
      cases hcall
  | lock | unlock =>
    cases hcall
    refine ⟨fun other => ?_, fun other => ?_, ?_⟩
    · rw [firstTy?_concat, ← hreflects.ty?_eq]
      exact Option.or_none.symm
    · rw [lastContent?_concat hallowed, ← hreflects.get?_eq]
      rfl
    · rw [stack_concat, ← hreflects.locks_eq]
      rfl

/-- One call, refused or not, keeps the views of a scope those of its history. -/
theorem perform (hreflects : Reflects calls scope) (call : Call α) :
    Reflects (calls ++ [call]) (scope.perform call) := by
  cases hcall : call.apply scope with
  | ok after =>
    rw [perform_of_ok hcall]
    exact hreflects.accepted hcall
  | error refusal =>
    rw [perform_of_error hcall]
    exact hreflects.refused hcall

/-- Any number of calls do so. -/
theorem foldl_perform (hreflects : Reflects calls scope) (more : List (Call α)) :
    Reflects (calls ++ more) (more.foldl Scope.perform scope) := by
  induction more generalizing calls scope with
  | nil => simpa using hreflects
  | cons call more ih => simpa using ih (hreflects.perform call)

end Reflects

/-- The scope that calls leave has the views that they give. -/
theorem reflects_ofCalls (calls : List (Call α)) : Reflects calls (ofCalls calls) := by
  have hempty : Reflects ([] : List (Call α)) (.empty : Scope α) :=
    ⟨fun _ => rfl, fun _ => rfl, rfl⟩
  exact hempty.foldl_perform calls

/-- A scope is determined by the calls that made it, whatever they are.  A name has
the type of its first declaration for good, the content that was stored last without
a refusal, and a lock exactly if it is on the stack that the pushes and pops leave.
The calls also say which further calls are refused and why, and a refused call changes
nothing. -/
theorem ofCalls_determined_by_history (calls : List (Call α)) :
    let scope := ofCalls calls
    (∀ name, scope.ty? name = firstTy? calls name ∧
      ∀ ty more, scope.ty? name = some ty → (ofCalls (calls ++ more)).ty? name = some ty) ∧
    (∀ name, scope.get? name = lastContent? calls name) ∧
    (∀ name, (scope.isLocked name = true ↔ name ∈ stack calls) ∧
      (2 ≤ (stack calls).count name → (ofCalls (calls ++ [.unlock])).isLocked name = true)) ∧
    (∀ name ty content refusal, scope.declare name ty content = .error refusal ↔
      refusal = .alreadyDeclared ∧ Declared calls name) ∧
    (∀ name refusal, scope.target name = .error refusal ↔
      (refusal = .undeclared ∧ ¬ Declared calls name) ∨
        (refusal = .locked ∧ Declared calls name ∧ name ∈ stack calls)) ∧
    (∀ name content refusal, scope.assign name content = .error refusal ↔
      (refusal = .undeclared ∧ ¬ Declared calls name) ∨
        (refusal = .locked ∧ Declared calls name ∧ name ∈ stack calls)) ∧
    (∀ name content refusal, scope.overwrite name content = .error refusal ↔
      refusal = .undeclared ∧ ¬ Declared calls name) ∧
    ∀ call refusal, (call.apply scope = .error refusal ↔ refusal? calls call = some refusal) ∧
      (call.apply scope = .error refusal → ofCalls (calls ++ [call]) = scope) := by
  intro scope
  have hreflects : Reflects calls scope := reflects_ofCalls calls
  refine ⟨fun name => ⟨hreflects.ty?_eq name, ?_⟩, hreflects.get?_eq,
    fun name => ⟨hreflects.isLocked_iff name, ?_⟩, ?_, ?_, ?_, ?_, ?_⟩
  · intro ty more hty
    rw [hreflects.ty?_eq] at hty
    rw [(reflects_ofCalls (calls ++ more)).ty?_eq]
    exact firstTy?_append hty more
  · intro htwice
    rw [(reflects_ofCalls _).isLocked_iff, stack_concat]
    exact mem_tail_of_two_le_count htwice
  · intro name ty content refusal
    rw [← refusal?_declare_iff]
    exact hreflects.apply_eq_error_iff (.declare name ty content) refusal
  · intro name refusal
    exact hreflects.target_eq_error_iff
  · intro name content refusal
    rw [assign_eq_error_iff]
    exact hreflects.target_eq_error_iff
  · intro name content refusal
    rw [← refusal?_overwrite_iff]
    exact hreflects.apply_eq_error_iff (.overwrite name content) refusal
  · intro call refusal
    refine ⟨hreflects.apply_eq_error_iff call refusal, ?_⟩
    intro hrefused
    rw [ofCalls_concat]
    exact perform_of_error hrefused

/-- The assignment to the locked name and the second declaration are refused. -/
example :
    let calls : List (Call Nat) :=
      [.declare "i" .int 0, .lock "i", .assign "i" 1, .overwrite "i" 2, .unlock,
        .declare "i" .bool 3]
    firstTy? calls "i" = some .int ∧ lastContent? calls "i" = some 2 := by
  decide

end Scope

end LoopLang
