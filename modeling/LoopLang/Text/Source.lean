/-!
# Source text

Places in a source text.  Lines and columns count from one, columns in
characters; offsets count bytes of the UTF-8 form from zero.

Main definitions:

- `Position`: a line, a column and an offset, moved on by reading characters.
- `Source.line?`: the text of a line.
- `Source.slice?`: the text between two offsets.

Main results:

- Theorem `Source.splitBytes?_eq_some_iff`: cutting a text after a number of
  bytes.
-/

namespace LoopLang

/-- A place between two characters of a text. -/
structure Position where
  line : Nat
  column : Nat
  /-- The number of bytes before the place. -/
  offset : Nat
deriving DecidableEq, Repr

namespace Position

/-- The place before the first character. -/
def start : Position := ⟨1, 1, 0⟩

/-- The place after reading `c`.  A newline ends its line. -/
def next (pos : Position) (c : Char) : Position :=
  if c = '\n' then ⟨pos.line + 1, 1, pos.offset + c.utf8Size⟩
  else ⟨pos.line, pos.column + 1, pos.offset + c.utf8Size⟩

/-- The place after reading a sequence of characters. -/
def after (pos : Position) (text : List Char) : Position :=
  text.foldl next pos

@[simp]
theorem after_nil (pos : Position) : pos.after [] = pos :=
  rfl

@[simp]
theorem after_cons (pos : Position) (c : Char) (text : List Char) :
    pos.after (c :: text) = (pos.next c).after text :=
  rfl

/-- Reading two texts one after the other is reading them joined. -/
theorem after_append (pos : Position) (left right : List Char) :
    pos.after (left ++ right) = (pos.after left).after right := by
  simp [after]

end Position

namespace Source

/-- The text up to the next newline, after passing the given number of lines. -/
def lineAfter : Nat → List Char → Option (List Char)
  | 0, text => some (text.takeWhile (· != '\n'))
  | passed + 1, text =>
    match text.dropWhile (· != '\n') with
    | [] => none
    | _ :: rest => lineAfter passed rest

/-- A text without the carriage returns at its end. -/
def dropReturns (text : List Char) : List Char :=
  (text.reverse.dropWhile (· == '\r')).reverse

/-- The line with the given number, counted from one, without its end. -/
def line? (source : String) (line : Int) : Option String :=
  if line < 1 then none
  else (lineAfter (line.toNat - 1) source.toList).map fun text =>
    String.ofList (dropReturns text)

/-- The number of bytes of a text. -/
def byteSize : List Char → Nat
  | [] => 0
  | c :: text => c.utf8Size + byteSize text

/-- Cuts a text after the given number of bytes; `none` if the text is shorter
or the cut would fall inside a character. -/
def splitBytes? (bytes : Nat) : List Char → Option (List Char × List Char)
  | [] => if bytes = 0 then some ([], []) else none
  | c :: text =>
    if bytes = 0 then some ([], c :: text)
    else if c.utf8Size ≤ bytes then
      (splitBytes? (bytes - c.utf8Size) text).map fun (front, rest) => (c :: front, rest)
    else none

/-- The text between two offsets; `none` unless both stand between characters
of the text, the first not after the second. -/
def slice? (source : String) (start stop : Nat) : Option String :=
  if start ≤ stop then
    (splitBytes? start source.toList).bind fun (_, rest) =>
      (splitBytes? (stop - start) rest).map fun (slice, _) => String.ofList slice
  else none

/-- A cut gives back the whole text, and the first part has the given size. -/
theorem splitBytes?_eq_some_iff {bytes : Nat} {text front rest : List Char} :
    splitBytes? bytes text = some (front, rest) ↔ front ++ rest = text ∧ byteSize front = bytes := by
  induction text generalizing bytes front rest with
  | nil =>
    cases front with
    | nil => simp [splitBytes?, byteSize, eq_comm, and_comm]
    | cons c front => simp [splitBytes?]
  | cons c text ih =>
    have hpos := Char.utf8Size_pos c
    rw [splitBytes?]
    split
    · next hzero =>
      cases front with
      | nil => simp [byteSize, hzero, eq_comm]
      | cons d front =>
        have hpos := Char.utf8Size_pos d
        simp [byteSize, hzero]
        omega
    · next hnonzero =>
      cases front with
      | nil =>
        simp [byteSize]
        omega
      | cons d front =>
        simp only [List.cons_append, List.cons.injEq, byteSize]
        split
        · next hfits =>
          simp only [Option.map_eq_some_iff, Prod.exists, Prod.mk.injEq, List.cons.injEq, ih]
          constructor
          · rintro ⟨front', rest', ⟨rfl, hsize⟩, ⟨rfl, rfl⟩, rfl⟩
            exact ⟨⟨rfl, rfl⟩, by omega⟩
          · rintro ⟨⟨rfl, rfl⟩, hsize⟩
            exact ⟨front, rest, ⟨rfl, by omega⟩, ⟨rfl, rfl⟩, rfl⟩
        · next hlarge =>
          constructor
          · simp
          · rintro ⟨⟨rfl, rfl⟩, hsize⟩
            omega

end Source

end LoopLang
