import LoopLang.Fault
import LoopLang.Text.Utf8

/-!
# Input

The bytes that a running program reads.  They arrive in chunks, and a word may
go over the end of a chunk.

Main definitions:

- `Input`: the bytes that have not been read.
- `Input.readWord`: takes the next word.
-/

namespace LoopLang

/-- The input of a program. -/
structure Input where
  /-- The bytes that have not been read, as they arrive. -/
  chunks : List (List UInt8)
  /-- What goes wrong after the last byte, `none` if the input just ends
  there. -/
  failure : Option String
deriving DecidableEq, Repr

namespace Input

/-- An input that arrives at once and then ends. -/
def ofBytes (bytes : List UInt8) : Input := ⟨[bytes], none⟩

/-- An input without bytes. -/
def empty : Input := ⟨[], none⟩

/-- The bytes that have not been read. -/
def bytes (input : Input) : List UInt8 :=
  input.chunks.flatten

/-- The bytes that separate words: space, tab, line feed, form feed and carriage
return. -/
def isSeparator (b : UInt8) : Bool :=
  b == 0x20 || b == 0x09 || b == 0x0A || b == 0x0C || b == 0x0D

/-- The bytes of a word up to the end of a chunk. -/
structure Scanned where
  /-- The bytes of the word so far. -/
  word : List UInt8
  /-- The bytes of the chunk that have not been read. -/
  rest : List UInt8
  /-- Whether a separator has ended the word. -/
  ended : Bool
deriving DecidableEq, Repr

/-- Goes on with a word in a chunk.  Separators before the word are passed over;
the one after it is taken with it. -/
def scanChunk (word chunk : List UInt8) : Scanned :=
  let text := if word.isEmpty then chunk.dropWhile isSeparator else chunk
  let word := word ++ text.takeWhile fun b => !isSeparator b
  match text.dropWhile fun b => !isSeparator b with
  | [] => ⟨word, [], false⟩
  | _ :: rest => ⟨word, rest, true⟩

/-- Goes on with a word through the chunks.  At the end of the input a word is
complete if it has a byte; an input that fails there gives no word. -/
def scanChunks (failure : Option String) (word : List UInt8) :
    List (List UInt8) → Except Fault (List UInt8) × List (List UInt8)
  | [] =>
    match failure with
    | some reason => (.error (.stream reason), [])
    | none => if word.isEmpty then (.error .inputExhausted, []) else (.ok word, [])
  | chunk :: rest =>
    let scanned := scanChunk word chunk
    if scanned.ended then (.ok scanned.word, scanned.rest :: rest)
    else scanChunks failure scanned.word rest

/-- Takes the next word.  Bytes that are no text are shown as replacement
characters. -/
def readWord (input : Input) : Except Fault String × Input :=
  let (result, chunks) := scanChunks input.failure [] input.chunks
  (result.map fun word => String.ofList (Utf8.decodeLossy word), { input with chunks := chunks })

end Input

end LoopLang
