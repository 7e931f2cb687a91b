import LoopLang.Scope
import LoopLang.Stmt

/-!
# Growing scopes

Checking and running statements do the same to the names of a scope: names are
added, those that statements declare, and a declared name keeps its type for
good.  Locks are taken back by the loop that took them.

Main definitions:

- `Stmt.declared`, `Program.declared`: the names that statements declare, at any
  depth.
- `Program.loopDeclared`: those that are declared in the body of a loop.
- `Scope.Grows`: a scope has got more names, out of the given ones.

Main results:

- Theorem `Scope.Grows.trans`: growth in two steps.
- Theorem `Scope.Grows.unlock`: growth while a name was locked.
-/

namespace LoopLang

/-! ## Names that statements declare -/

mutual

/-- The names that a statement declares, at any depth. -/
def Stmt.declared : Stmt → List String
  | .declare name _ _ _ => [name.text]
  | .loop _ _ _ body => Program.declared body
  | .assign .. | .print .. | .read .. | .assert .. => []

/-- The names that a list of statements declares, at any depth. -/
def Program.declared : List Stmt → List String
  | [] => []
  | stmt :: rest => stmt.declared ++ Program.declared rest

end

/-- The names that a statement declares in the body of a loop. -/
def Stmt.loopDeclared : Stmt → List String
  | .loop _ _ _ body => Program.declared body
  | .declare .. | .assign .. | .print .. | .read .. | .assert .. => []

/-- The names that a program declares in the body of a loop. -/
def Program.loopDeclared (program : Program) : List String :=
  program.flatMap Stmt.loopDeclared

/-- What is declared in the body of a loop is declared. -/
theorem Stmt.loopDeclared_subset (stmt : Stmt) : stmt.loopDeclared ⊆ stmt.declared := by
  cases stmt with
  | loop counter first last body =>
    rw [loopDeclared, declared]
    exact List.Subset.refl _
  | declare | assign | print | read | assert => exact List.nil_subset _

/-- What is declared in loops is declared in the program. -/
theorem Program.loopDeclared_subset (program : Program) :
    Program.loopDeclared program ⊆ Program.declared program := by
  induction program with
  | nil => exact List.nil_subset _
  | cons stmt rest ih =>
    rw [Program.loopDeclared, List.flatMap_cons, Program.declared]
    intro name hname
    rcases List.mem_append.1 hname with hname | hname
    · exact List.mem_append_left _ (stmt.loopDeclared_subset hname)
    · exact List.mem_append_right _ (ih hname)

namespace Scope

variable {α : Type}

/-! ## Views of a changed scope -/

/-- A declared name has a type. -/
theorem isDeclared_iff {scope : Scope α} {name : String} :
    scope.isDeclared name = true ↔ ∃ ty, scope.ty? name = some ty := by
  rw [isDeclared, ty?]
  cases scope.find? name with
  | none => simp
  | some entry => simp

/-- A new declaration changes what is known of its name and nothing else. -/
theorem find?_of_declare {scope after : Scope α} {name : String} {ty : Ty} {content : α}
    (hdeclare : scope.declare name ty content = .ok after) (other : String) :
    after.find? other = if other = name then some ⟨ty, content⟩ else scope.find? other := by
  unfold declare at hdeclare
  split at hdeclare
  · cases hdeclare
  · cases hdeclare
    rw [find?, List.lookup_cons]
    by_cases hsame : other = name
    · rw [if_pos hsame, beq_iff_eq.2 hsame]
    · rw [if_neg hsame, beq_eq_false_iff_ne.2 hsame]
      rfl

/-- A declaration adds its own name and no other. -/
theorem isDeclared_of_declare {scope after : Scope α} {name : String} {ty : Ty} {content : α}
    (hdeclare : scope.declare name ty content = .ok after) (other : String) :
    after.isDeclared other = true ↔ scope.isDeclared other = true ∨ other = name := by
  rw [isDeclared, find?_of_declare hdeclare]
  by_cases hsame : other = name
  · simp [hsame]
  · simp [hsame, isDeclared]

/-- A declaration leaves the locks as they are. -/
theorem locks_of_declare {scope after : Scope α} {name : String} {ty : Ty} {content : α}
    (hdeclare : scope.declare name ty content = .ok after) : after.locks = scope.locks := by
  unfold declare at hdeclare
  split at hdeclare
  · cases hdeclare
  · cases hdeclare
    rfl

/-- A new declaration is of a name that was not declared. -/
theorem not_declared_of_declare {scope after : Scope α} {name : String} {ty : Ty} {content : α}
    (hdeclare : scope.declare name ty content = .ok after) : scope.isDeclared name = false := by
  unfold declare at hdeclare
  split at hdeclare
  · cases hdeclare
  · next hnew => exact Bool.eq_false_iff.2 hnew

/-- New contents do not change a type. -/
@[simp]
theorem ty?_set (scope : Scope α) (name other : String) (content : α) :
    (scope.set name content).ty? other = scope.ty? other := by
  rw [ty?, find?_set]
  by_cases hsame : other = name
  · rw [if_pos hsame, Option.map_map]
    rfl
  · rw [if_neg hsame, ty?]

@[simp]
theorem isDeclared_set (scope : Scope α) (name other : String) (content : α) :
    (scope.set name content).isDeclared other = scope.isDeclared other := by
  rw [Bool.eq_iff_iff, isDeclared_iff, isDeclared_iff]
  simp

/-- What is assigned was declared and is not locked. -/
theorem assign_eq_ok {scope after : Scope α} {name : String} {content : α} :
    scope.assign name content = .ok after ↔
      (∃ ty, scope.target name = .ok ty) ∧ after = scope.set name content := by
  unfold assign
  cases scope.target name with
  | error refusal => simp
  | ok ty => simp [eq_comm]

/-- A name may be assigned exactly if it is declared and not locked. -/
theorem target_eq_ok {scope : Scope α} {name : String} {ty : Ty} :
    scope.target name = .ok ty ↔ scope.ty? name = some ty ∧ scope.isLocked name = false := by
  unfold target
  cases scope.ty? name with
  | none => simp
  | some other => cases scope.isLocked name <;> simp

/-- A name is no target if it is not declared, or if it is declared and locked. -/
theorem target_eq_error {scope : Scope α} {name : String} {refusal : Refusal}
    (htarget : scope.target name = .error refusal) :
    (refusal = .undeclared ∧ scope.isDeclared name = false) ∨
      (refusal = .locked ∧ scope.isDeclared name = true ∧ scope.isLocked name = true) := by
  unfold target at htarget
  cases hty : scope.ty? name with
  | none =>
    rw [hty] at htarget
    cases htarget
    refine .inl ⟨rfl, Bool.eq_false_iff.2 ?_⟩
    intro hdeclared
    rcases isDeclared_iff.1 hdeclared with ⟨ty, hsome⟩
    rw [hty] at hsome
    cases hsome
  | some ty =>
    rw [hty] at htarget
    cases hlocked : scope.isLocked name with
    | true =>
      simp only [hlocked, if_true] at htarget
      cases htarget
      exact .inr ⟨rfl, isDeclared_iff.2 ⟨ty, hty⟩, rfl⟩
    | false =>
      simp only [hlocked, Bool.false_eq_true, if_false] at htarget
      cases htarget

/-- An assignment is refused for the reason that the name is no target. -/
theorem assign_eq_error {scope : Scope α} {name : String} {content : α} {refusal : Refusal}
    (hassign : scope.assign name content = .error refusal) :
    scope.target name = .error refusal := by
  unfold assign at hassign
  cases htarget : scope.target name with
  | ok ty =>
    rw [htarget] at hassign
    cases hassign
  | error other =>
    rw [htarget] at hassign
    cases hassign
    rfl

/-! ## Growth -/

/-- The scope has got more names, out of the given ones; the names it had keep
their types, and the locks are the same. -/
structure Grows (names : List String) (before after : Scope α) : Prop where
  locks_eq : after.locks = before.locks
  keeps : ∀ name ty, before.ty? name = some ty → after.ty? name = some ty
  adds : ∀ name, after.isDeclared name = true → before.isDeclared name = true ∨ name ∈ names

namespace Grows

variable {names more : List String} {first second third : Scope α}

theorem refl (names : List String) (scope : Scope α) : Grows names scope scope :=
  ⟨rfl, fun _ _ hty => hty, fun _ hdeclared => .inl hdeclared⟩

/-- Growth in two steps. -/
theorem trans (hfirst : Grows names first second) (hsecond : Grows names second third) :
    Grows names first third := by
  constructor
  · rw [hsecond.locks_eq, hfirst.locks_eq]
  · intro name ty hty
    exact hsecond.keeps name ty (hfirst.keeps name ty hty)
  · intro name hdeclared
    rcases hsecond.adds name hdeclared with hdeclared | hname
    · exact hfirst.adds name hdeclared
    · exact .inr hname

/-- More names may be added than are. -/
theorem mono (hgrows : Grows names first second) (hsub : names ⊆ more) :
    Grows more first second := by
  refine ⟨hgrows.locks_eq, hgrows.keeps, ?_⟩
  intro name hdeclared
  rcases hgrows.adds name hdeclared with hdeclared | hname
  · exact .inl hdeclared
  · exact .inr (hsub hname)

/-- A declared name stays declared. -/
theorem isDeclared (hgrows : Grows names first second) {name : String}
    (hdeclared : first.isDeclared name = true) : second.isDeclared name = true := by
  rcases isDeclared_iff.1 hdeclared with ⟨ty, hty⟩
  exact isDeclared_iff.2 ⟨ty, hgrows.keeps name ty hty⟩

/-- The lock that was taken before is the one that is taken back. -/
theorem unlock {name : String} (hgrows : Grows names (first.lock name) second) :
    Grows names first second.unlock := by
  refine ⟨?_, hgrows.keeps, hgrows.adds⟩
  rw [Scope.unlock, hgrows.locks_eq]
  rfl

end Grows

/-- A declaration makes a scope grow by its name. -/
theorem grows_declare {scope after : Scope α} {name : String} {ty : Ty} {content : α}
    (hdeclare : scope.declare name ty content = .ok after) : Grows [name] scope after := by
  refine ⟨locks_of_declare hdeclare, ?_, ?_⟩
  · intro other known hknown
    rw [ty?, find?_of_declare hdeclare]
    by_cases hsame : other = name
    · have hdeclared : scope.isDeclared name = true := isDeclared_iff.2 ⟨known, hsame ▸ hknown⟩
      rw [not_declared_of_declare hdeclare] at hdeclared
      cases hdeclared
    · rw [if_neg hsame]
      exact hknown
  · intro other hdeclared
    rcases (isDeclared_of_declare hdeclare other).1 hdeclared with hknown | hsame
    · exact .inl hknown
    · exact .inr (List.mem_singleton.2 hsame)

theorem grows_set (names : List String) (scope : Scope α) (name : String) (content : α) :
    Grows names scope (scope.set name content) := by
  refine ⟨rfl, ?_, ?_⟩
  · intro other ty hty
    rw [ty?_set]
    exact hty
  · intro other hdeclared
    rw [isDeclared_set] at hdeclared
    exact .inl hdeclared

end Scope

end LoopLang
