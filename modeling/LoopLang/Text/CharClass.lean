/-!
# Character classes

A character class is a list of closed ranges of code points in ascending order.
Classes are plain data, so that membership of a concrete character can be
decided by evaluation.

Main definitions:

- `CharRange`: a closed range of code points.
- `CharClass.contains`: membership of a character in a class.
-/

namespace LoopLang

/-- A closed range of code points. -/
structure CharRange where
  first : Nat
  last : Nat
deriving DecidableEq, Repr

/-- Whether the code point of `c` lies between the two ends, both included. -/
def CharRange.contains (range : CharRange) (c : Char) : Bool :=
  range.first ≤ c.toNat && c.toNat ≤ range.last

/-- A set of characters, given by its ranges in ascending order. -/
structure CharClass where
  ranges : List CharRange
deriving DecidableEq, Repr

namespace CharClass

/-- Whether some range of the class holds `c`. -/
def contains (cls : CharClass) (c : Char) : Bool :=
  cls.ranges.any fun range => range.contains c

/-- Membership means that one of the ranges encloses the code point. -/
theorem contains_iff (cls : CharClass) (c : Char) :
    cls.contains c = true ↔
      ∃ range ∈ cls.ranges, range.first ≤ c.toNat ∧ c.toNat ≤ range.last := by
  simp [contains, CharRange.contains]

end CharClass

end LoopLang
