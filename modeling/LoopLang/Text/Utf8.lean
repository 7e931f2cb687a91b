/-!
# UTF-8

Bytes to characters and back.  The decoder goes through the bytes once and
keeps the character it is in the middle of.  It never fails: a byte that cannot
go on closes the character before it as ill-formed, and is then looked at as
the start of the next one.  So each ill-formed group is a longest run of bytes
that could still have become a character.

Main definitions:

- `Utf8.encode`: the bytes of a text.
- `Utf8.groups`: the characters of a byte sequence, `none` for an ill-formed
  group.
- `Utf8.decode?`, `Utf8.decodeLossy`: reading that refuses an ill-formed group,
  and reading that shows it as a replacement character.
-/

namespace LoopLang

namespace Utf8

/-- The bytes of a text. -/
def encode (text : List Char) : List UInt8 :=
  text.flatMap String.utf8EncodeChar

/-- A character of several bytes whose end has not been reached. -/
structure Unfinished where
  /-- The value of the bits read so far. -/
  value : Nat
  /-- The number of bytes to come after the next one. -/
  later : Nat
  /-- The least byte that may come next. -/
  low : UInt8
  /-- The greatest byte that may come next. -/
  high : UInt8
deriving DecidableEq, Repr

/-- What a byte at the start of a character begins. -/
inductive Lead where
  /-- The byte is a character of its own. -/
  | whole (c : Char)
  /-- The byte opens a character of several bytes. -/
  | opened (part : Unfinished)
  /-- No character begins with this byte. -/
  | illFormed
deriving DecidableEq, Repr

/-- The bounds on the second byte rule out spellings that are longer than
needed, the surrogates, and values above the last code point. -/
def lead (b : UInt8) : Lead :=
  if b < 0x80 then .whole (Char.ofNat b.toNat)
  else if b < 0xC2 then .illFormed
  else if b < 0xE0 then .opened ⟨b.toNat - 0xC0, 0, 0x80, 0xBF⟩
  else if b = 0xE0 then .opened ⟨0, 1, 0xA0, 0xBF⟩
  else if b = 0xED then .opened ⟨0xD, 1, 0x80, 0x9F⟩
  else if b < 0xF0 then .opened ⟨b.toNat - 0xE0, 1, 0x80, 0xBF⟩
  else if b = 0xF0 then .opened ⟨0, 2, 0x90, 0xBF⟩
  else if b < 0xF4 then .opened ⟨b.toNat - 0xF0, 2, 0x80, 0xBF⟩
  else if b = 0xF4 then .opened ⟨4, 2, 0x80, 0x8F⟩
  else .illFormed

/-- The groups that a byte closes, and the character it leaves open. -/
abbrev Step := List (Option Char) × Option Unfinished

/-- A byte where no character is open. -/
def begin (b : UInt8) : Step :=
  match lead b with
  | .whole c => ([some c], none)
  | .opened part => ([], some part)
  | .illFormed => ([none], none)

/-- A byte inside an open character.  If it cannot continue the character, the
character is ill-formed and the byte begins the next one. -/
def Unfinished.extend (part : Unfinished) (b : UInt8) : Step :=
  if part.low ≤ b ∧ b ≤ part.high then
    let value := part.value * 64 + (b.toNat - 0x80)
    match part.later with
    | 0 => ([some (Char.ofNat value)], none)
    | later + 1 => ([], some ⟨value, later, 0x80, 0xBF⟩)
  else
    let (groups, next) := begin b
    (none :: groups, next)

/-- One byte, whatever is open. -/
def step : Option Unfinished → UInt8 → Step
  | none, b => begin b
  | some part, b => part.extend b

/-- The groups of the bytes to come.  A character still open at the end is
ill-formed. -/
def groupsFrom (current : Option Unfinished) : List UInt8 → List (Option Char)
  | [] => if current.isSome then [none] else []
  | b :: bytes =>
    let (groups, next) := step current b
    groups ++ groupsFrom next bytes

/-- The characters of a byte sequence, `none` for each ill-formed group. -/
def groups (bytes : List UInt8) : List (Option Char) :=
  groupsFrom none bytes

/-- The text of well-formed bytes. -/
def decode? (bytes : List UInt8) : Option (List Char) :=
  (groups bytes).mapM id

/-- The text of any bytes, a replacement character for each ill-formed group. -/
def decodeLossy (bytes : List UInt8) : List Char :=
  (groups bytes).map fun group => group.getD '\uFFFD'

end Utf8

end LoopLang
