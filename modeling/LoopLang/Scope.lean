import LoopLang.Ty

/-!
# Scopes

A scope holds the declared names of a program with the type and the content of
each, and the stack of the names that running loops have locked.  A locked name
keeps its content until its loop changes it.  The content is a type parameter:
a value while a program runs, nothing while it is checked.

Main definitions:

- `Scope.declare`, `Scope.assign`, `Scope.overwrite`: the changes of a name.
- `Scope.lock`, `Scope.unlock`: the stack of locks.
- `Scope.target`: the type of a name that may be assigned.
- `Refusal`: why a change was refused.
-/

namespace LoopLang

/-- Why a name cannot be declared or assigned. -/
inductive Refusal where
  | alreadyDeclared
  | undeclared
  | locked
deriving DecidableEq, Repr

/-- The wording of a refusal. -/
def Refusal.message : Refusal → String
  | alreadyDeclared => "identifier is already declared"
  | undeclared => "identifier is not declared"
  | locked => "identifier is locked by a for loop"

/-- What is known of a declared name. -/
structure Entry (α : Type) where
  ty : Ty
  content : α
deriving DecidableEq, Repr

/-- The declared names, the latest first, and the locked names, the latest
first. -/
structure Scope (α : Type) where
  entries : List (String × Entry α)
  locks : List String
deriving DecidableEq, Repr

namespace Scope

variable {α : Type}

/-- A scope without names and locks. -/
def empty : Scope α := ⟨[], []⟩

/-! ### Views -/

/-- The entry of a name. -/
def find? (scope : Scope α) (name : String) : Option (Entry α) :=
  scope.entries.lookup name

/-- The type a name was declared with. -/
def ty? (scope : Scope α) (name : String) : Option Ty :=
  (scope.find? name).map Entry.ty

/-- The content of a name. -/
def get? (scope : Scope α) (name : String) : Option α :=
  (scope.find? name).map Entry.content

/-- Whether a name has been declared. -/
def isDeclared (scope : Scope α) (name : String) : Bool :=
  (scope.find? name).isSome

/-- Whether some running loop has locked the name. -/
def isLocked (scope : Scope α) (name : String) : Bool :=
  scope.locks.contains name

/-- Whether the body of some loop is being run. -/
def inLoop (scope : Scope α) : Bool :=
  !scope.locks.isEmpty

/-! ### Changes -/

/-- Declares a new name. -/
def declare (scope : Scope α) (name : String) (ty : Ty) (content : α) :
    Except Refusal (Scope α) :=
  if scope.isDeclared name then .error .alreadyDeclared
  else .ok { scope with entries := (name, ⟨ty, content⟩) :: scope.entries }

/-- The type of a name that may be assigned: it is declared and not locked. -/
def target (scope : Scope α) (name : String) : Except Refusal Ty :=
  match scope.ty? name with
  | none => .error .undeclared
  | some ty => if scope.isLocked name then .error .locked else .ok ty

/-- Replaces the content of a name, if it is declared. -/
def set (scope : Scope α) (name : String) (content : α) : Scope α :=
  { scope with
    entries := scope.entries.map fun (other, entry) =>
      if other = name then (other, { entry with content := content }) else (other, entry) }

/-- Replaces the content of a name that may be assigned. -/
def assign (scope : Scope α) (name : String) (content : α) : Except Refusal (Scope α) :=
  match scope.target name with
  | .error refusal => .error refusal
  | .ok _ => .ok (scope.set name content)

/-- Replaces the content of a declared name even while it is locked.  A loop
moves its own variable on in this way. -/
def overwrite (scope : Scope α) (name : String) (content : α) : Except Refusal (Scope α) :=
  if scope.isDeclared name then .ok (scope.set name content) else .error .undeclared

/-- Locks a name once more. -/
def lock (scope : Scope α) (name : String) : Scope α :=
  { scope with locks := name :: scope.locks }

/-- Takes back the latest lock. -/
def unlock (scope : Scope α) : Scope α :=
  { scope with locks := scope.locks.tail }

/-- The name that was locked last. -/
def lastLocked? (scope : Scope α) : Option String :=
  scope.locks.head?

/-! ### Laws -/

/-- Setting a name changes its content and nothing else. -/
theorem find?_set (scope : Scope α) (name other : String) (content : α) :
    (scope.set name content).find? other =
      if other = name then (scope.find? other).map fun entry => { entry with content := content }
      else scope.find? other := by
  obtain ⟨entries, locks⟩ := scope
  simp only [find?, set]
  induction entries with
  | nil => simp
  | cons head rest ih =>
    obtain ⟨key, entry⟩ := head
    by_cases hfound : other = key
    · subst hfound
      by_cases hsame : other = name <;> simp [hsame]
    · have hdiffers : (other == key) = false := by simpa using hfound
      by_cases hsame : key = name
      · subst hsame
        simpa [List.lookup_cons, hdiffers, hfound] using ih
      · simpa [List.lookup_cons, hdiffers, hsame] using ih

end Scope

end LoopLang
