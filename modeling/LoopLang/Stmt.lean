import LoopLang.Expr

/-!
# Statements

The six forms of statements and the programs made of them.  The only control
structure is a loop over a range of integers that is fixed when the loop is
entered.

Main definitions:

- `Stmt`: the statements.
- `Stmt.text`, `Program.text`: a statement and a list of statements as they are
  printed.
-/

namespace LoopLang

/-- A statement. -/
inductive Stmt where
  /-- Declares a name of the given type, with an optional initial value. -/
  | declare (name typeToken : Token) (ty : Ty) (initial : Option Expr)
  /-- Gives a name a new value. -/
  | assign (name : Token) (value : Expr)
  /-- Runs the body for each number from `first` to `last`. -/
  | loop (counter : Token) (first last : Expr) (body : List Stmt)
  /-- Writes a value to the output. -/
  | print (value : Expr)
  /-- Takes the value of a name from the input. -/
  | read (name : Token)
  /-- Writes a message if the condition is false.  The message is placed at the
  keyword and quotes the source of the condition. -/
  | assert (keyword : Token) (condition : Expr) (quotation : String)
deriving Repr

/-- A program, or the body of a loop. -/
abbrev Program := List Stmt

/-! ### Equality -/

mutual

/-- Decides whether two statements are the same. -/
def Stmt.decEq : (a b : Stmt) → Decidable (a = b)
  | .declare name typeToken ty initial, b =>
    match b with
    | .declare name' typeToken' ty' initial' =>
      decidable_of_iff
        (name = name' ∧ typeToken = typeToken' ∧ ty = ty' ∧ initial = initial') (by simp)
    | .assign .. | .loop .. | .print .. | .read .. | .assert .. => isFalse nofun
  | .assign name value, b =>
    match b with
    | .assign name' value' => decidable_of_iff (name = name' ∧ value = value') (by simp)
    | .declare .. | .loop .. | .print .. | .read .. | .assert .. => isFalse nofun
  | .loop counter first last body, b =>
    match b with
    | .loop counter' first' last' body' =>
      match Program.decEq body body' with
      | isTrue same =>
        decidable_of_iff (counter = counter' ∧ first = first' ∧ last = last') (by simp [same])
      | isFalse differ => isFalse (by simp [differ])
    | .declare .. | .assign .. | .print .. | .read .. | .assert .. => isFalse nofun
  | .print value, b =>
    match b with
    | .print value' => decidable_of_iff (value = value') (by simp)
    | .declare .. | .assign .. | .loop .. | .read .. | .assert .. => isFalse nofun
  | .read name, b =>
    match b with
    | .read name' => decidable_of_iff (name = name') (by simp)
    | .declare .. | .assign .. | .loop .. | .print .. | .assert .. => isFalse nofun
  | .assert keyword condition quotation, b =>
    match b with
    | .assert keyword' condition' quotation' =>
      decidable_of_iff
        (keyword = keyword' ∧ condition = condition' ∧ quotation = quotation') (by simp)
    | .declare .. | .assign .. | .loop .. | .print .. | .read .. => isFalse nofun

/-- Decides whether two lists of statements are the same. -/
def Program.decEq : (a b : List Stmt) → Decidable (a = b)
  | [], b =>
    match b with
    | [] => isTrue rfl
    | _ :: _ => isFalse nofun
  | stmt :: rest, b =>
    match b with
    | [] => isFalse nofun
    | stmt' :: rest' =>
      match stmt.decEq stmt', Program.decEq rest rest' with
      | isTrue same, isTrue sameRest => isTrue (by rw [same, sameRest])
      | isFalse differ, _ => isFalse (by simp [differ])
      | _, isFalse differ => isFalse (by simp [differ])

end

instance : DecidableEq Stmt := Stmt.decEq

/-! ### Text -/

mutual

/-- A statement as it is printed, without the semicolon after it. -/
def Stmt.text : Stmt → String
  | .declare name typeToken _ initial =>
    let head := "var " ++ name.text ++ " : " ++ typeToken.text
    match initial with
    | none => head
    | some value => head ++ " := " ++ value.text
  | .assign name value => name.text ++ " := " ++ value.text
  | .loop counter first last body =>
    "for " ++ counter.text ++ " in " ++ first.text ++ ".." ++ last.text ++ " do\n" ++
      Program.text body ++ "end for"
  | .print value => "print " ++ value.text
  | .read name => "read " ++ name.text
  | .assert _ condition _ => "assert (" ++ condition.text ++ ")"

/-- A list of statements as it is printed, each with a semicolon on lines of its
own. -/
def Program.text : List Stmt → String
  | [] => ""
  | stmt :: rest => stmt.text ++ ";\n" ++ Program.text rest

end

end LoopLang
