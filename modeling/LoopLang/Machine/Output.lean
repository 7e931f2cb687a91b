/-!
# Output

The bytes that a running program has written.  An output may have room for a
limited number of bytes, and may fail when it is flushed.

Main definitions:

- `Output.store`: what an output holds after a write.
- `Output.fits`: whether a write succeeds.

Main results:

- Theorem `Output.toList_store`: a write stores the bytes that there is room
  for.
-/

namespace LoopLang

/-- The output of a program. -/
structure Output where
  /-- The bytes written so far. -/
  written : Array UInt8
  /-- The number of bytes that can be written, `none` if there is no limit. -/
  capacity : Option Nat
  /-- What goes wrong when the output is flushed. -/
  flushFailure : Option String
deriving DecidableEq, Repr

namespace Output

/-- An empty output without a limit. -/
def unlimited : Output := ⟨#[], none, none⟩

/-- The part of the bytes that there is room for. -/
def fitting (output : Output) (bytes : List UInt8) : List UInt8 :=
  match output.capacity with
  | none => bytes
  | some capacity => bytes.take (capacity - output.written.size)

/-- Writes the bytes that there is room for. -/
def store (output : Output) (bytes : List UInt8) : Output :=
  { output with written := (output.fitting bytes).foldl Array.push output.written }

/-- Whether there is room for all of the bytes. -/
def fits (output : Output) (bytes : List UInt8) : Bool :=
  match output.capacity with
  | none => true
  | some capacity => bytes.length ≤ capacity - output.written.size

/-- What a write that does not fit reports. -/
def full : String := "failed to write whole buffer"

/-- A write stores the bytes that there is room for. -/
theorem toList_store (output : Output) (bytes : List UInt8) :
    (output.store bytes).written.toList = output.written.toList ++ output.fitting bytes := by
  simp [store]

end Output

end LoopLang
