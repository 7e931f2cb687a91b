import LoopLang.Operator

/-!
# Types

The three types of the language and the operators that each of them supports.

Main definitions:

- `Ty.name`: the keyword of a type.
- `Ty.result?`: the type of an operator's result, if the type of its operands
  supports the operator.
-/

namespace LoopLang

/-- A type of the language. -/
inductive Ty where
  | int
  | string
  | bool
deriving DecidableEq, Repr

namespace Ty

/-- Every type. -/
def all : List Ty := [int, string, bool]

/-- The keyword that names a type. -/
def name : Ty → String
  | int => "int"
  | string => "string"
  | bool => "bool"

/-- The result type of an operator whose operands have the given type, `none`
if the type does not support the operator. -/
def result? : Ty → Operator → Option Ty
  | int, .addition | int, .subtraction | int, .multiplication | int, .division => some int
  | int, .less | int, .equality => some bool
  | string, .addition => some string
  | string, .equality => some bool
  | bool, .equality | bool, .not | bool, .and => some bool
  | _, _ => none

/-- The operators a type supports, each with the type of its result. -/
def transitions (ty : Ty) : List (Operator × Ty) :=
  Operator.all.filterMap fun op => (ty.result? op).map fun result => (op, result)

end Ty

end LoopLang
