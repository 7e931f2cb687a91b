import LoopLang.Ty
import LoopLang.Text.Numeral

/-!
# Values

The values that expressions and variables have while a program runs, and the
operations behind the operators.  Integers are words of 64 bits: sums,
differences and products wrap around, and quotients are truncated.

Main definitions:

- `Value.ty`: the type of a value.
- `Value.ofText?`, `Value.text`: reading and writing a value.
- `Value.binary?`, `Value.unary?`: the operation that implements an operator on
  values of a type.
-/

namespace LoopLang

/-- A value of one of the three types. -/
inductive Value where
  | int (i : Int64)
  | string (s : String)
  | bool (b : Bool)
deriving DecidableEq, Repr

namespace Value

/-- The type of a value. -/
def ty : Value → Ty
  | int _ => .int
  | string _ => .string
  | bool _ => .bool

/-- The value of a variable that was declared without an initial value. -/
def zero : Ty → Value
  | .int => int 0
  | .string => string ""
  | .bool => bool false

/-- The value that a text denotes: integers in decimal, Booleans as exactly
`true` or `false`, strings as they are. -/
def ofText? (text : String) : Ty → Option Value
  | .int => (Numeral.toInt64? text.toList).map int
  | .string => some (string text)
  | .bool => if text = "true" then some (bool true)
    else if text = "false" then some (bool false)
    else none

/-- The text that is printed for a value. -/
def text : Value → String
  | int i => Numeral.ofInt i.toInt
  | string s => s
  | bool true => "true"
  | bool false => "false"

/-- The initial value of a type has that type. -/
@[simp]
theorem ty_zero (t : Ty) : (zero t).ty = t := by
  cases t <;> rfl

/-- A value that is read as a value of a type has that type. -/
theorem ty_of_ofText? {s : String} {t : Ty} {v : Value} (hread : ofText? s t = some v) :
    v.ty = t := by
  cases t <;> simp only [ofText?] at hread
  · obtain ⟨i, -, rfl⟩ := Option.map_eq_some_iff.1 hread
    rfl
  · cases hread
    rfl
  · split at hread
    · cases hread
      rfl
    · split at hread <;> cases hread
      rfl

/-! ### Operations -/

/-- An operation on two values; it has no result on values of other types than
its own, and where it is not defined. -/
abbrev BinaryOperation := Value → Value → Option Value

/-- An operation on one value. -/
abbrev UnaryOperation := Value → Option Value

/-- An operation on two integers. -/
def onInts (f : Int64 → Int64 → Option Value) : BinaryOperation
  | int a, int b => f a b
  | _, _ => none

/-- An operation on two strings. -/
def onStrings (f : String → String → Value) : BinaryOperation
  | string a, string b => some (f a b)
  | _, _ => none

/-- An operation on two Booleans. -/
def onBools (f : Bool → Bool → Value) : BinaryOperation
  | bool a, bool b => some (f a b)
  | _, _ => none

/-- Division truncates; there is no quotient by zero. -/
def quotient (a b : Int64) : Option Value :=
  if b = 0 then none else some (int (a / b))

/-- The operation that a binary operator stands for on values of a type. -/
def binary? : Ty → Operator → Option BinaryOperation
  | .int, .addition => some (onInts fun a b => some (int (a + b)))
  | .int, .subtraction => some (onInts fun a b => some (int (a - b)))
  | .int, .multiplication => some (onInts fun a b => some (int (a * b)))
  | .int, .division => some (onInts quotient)
  | .int, .less => some (onInts fun a b => some (bool (decide (a < b))))
  | .int, .equality => some (onInts fun a b => some (bool (a == b)))
  | .string, .addition => some (onStrings fun a b => string (a ++ b))
  | .string, .equality => some (onStrings fun a b => bool (a == b))
  | .bool, .and => some (onBools fun a b => bool (a && b))
  | .bool, .equality => some (onBools fun a b => bool (a == b))
  | _, _ => none

/-- Negation of a Boolean. -/
def negation : UnaryOperation
  | bool b => some (bool !b)
  | _ => none

/-- The operation that a unary operator stands for on values of a type. -/
def unary? : Ty → Operator → Option UnaryOperation
  | .bool, .not => some negation
  | _, _ => none

end Value

end LoopLang
