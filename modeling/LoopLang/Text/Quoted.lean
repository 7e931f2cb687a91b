import LoopLang.Text.Unprintable

/-!
# Quoted text

Messages and printed programs show characters and strings between quotation
marks, with everything that could be misread spelled out.

Main definitions:

- `Quoted.escape`: how one character is written between two marks.
- `Quoted.char`, `Quoted.string`: a whole character or string, marks included.
-/

namespace LoopLang

namespace Quoted

/-- A character spelled by its code point in lower-case hexadecimal without
padding. -/
def codePoint (c : Char) : List Char :=
  ['\\', 'u', '\x7b'] ++ Nat.toDigits 16 c.toNat ++ ['\x7d']

/-- Whether a character stands for itself in a quotation, the mark and the
backslash apart: it is printable and merges with nothing. -/
def isPlain (c : Char) : Bool :=
  !CharClass.combining.contains c && !CharClass.unprintable.contains c

/-- How `c` is written between two `mark`s.  Five characters have a letter of
their own, the mark is set off by a backslash, and a character that is not
plain is spelled by its code point. -/
def escape (mark c : Char) : List Char :=
  if c = '\x00' then ['\\', '0']
  else if c = '\t' then ['\\', 't']
  else if c = '\n' then ['\\', 'n']
  else if c = '\r' then ['\\', 'r']
  else if c = '\\' || c = mark then ['\\', c]
  else if isPlain c then [c]
  else codePoint c

/-- The characters of a text between two `mark`s. -/
def text (mark : Char) (content : List Char) : List Char :=
  mark :: (content.flatMap (escape mark) ++ [mark])

/-- A character between single quotes. -/
def char (c : Char) : String :=
  String.ofList (text '\x27' [c])

/-- A string between double quotes. -/
def string (s : String) : String :=
  String.ofList (text '"' s.toList)

end Quoted

end LoopLang
