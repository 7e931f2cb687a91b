import LoopLang.Diagnostic
import LoopLang.Text.Alphabetic
import LoopLang.Text.DecimalDigit
import LoopLang.Text.Recent

/-!
# Lexemes

The smallest pieces of a source text.  The first character of a lexeme decides
which form it has, and each form takes as many characters as it can.

Main definitions:

- `Lexeme`: the characters of a lexeme, the characters after it, and what it
  means.
- `Lexeme.read`: the lexeme that begins with a given character.

Main results:

- Theorem `Lexeme.characters_append_rest`: a lexeme and its rest are the text
  they were read from.
- Theorem `Lexeme.length_rest_le`: the rest is no longer than the text after the
  first character.
-/

namespace LoopLang

/-! ### Character classes of the language -/

namespace Lexeme

/-- Whether a character only separates lexemes. -/
def isBlank (c : Char) : Bool :=
  c == ' ' || c == '\t' || c == '\n' || c == '\r'

/-- The category of a character that is a lexeme of its own. -/
def simpleKind? : Char → Option TokenKind
  | '(' => some .leftBracket
  | ')' => some .rightBracket
  | '<' | '=' | '&' | '+' | '-' | '*' | '/' => some .binaryOperator
  | '!' => some .unaryOperator
  | ';' => some .semicolon
  | _ => none

/-- Whether a word ends before the character. -/
def endsWord (c : Char) : Bool :=
  (simpleKind? c).isSome || isBlank c || c == '.' || c == ':' || c == '"'

/-- Whether a character begins a word.  Every alphabetic character does, also a
recent one, of which no identifier is made. -/
def beginsWord (c : Char) : Bool :=
  CharClass.alphabetic.contains c

/-- Whether a character may stand first in an identifier: the alphabetic
characters of Unicode 16.0. -/
def beginsIdentifier (c : Char) : Bool :=
  CharClass.alphabetic.contains c && !CharClass.recent.contains c

/-- Whether a character may stand inside an identifier: the alphabetic
characters and decimal digits of Unicode 16.0, and the underscore. -/
def continuesIdentifier (c : Char) : Bool :=
  beginsIdentifier c || (CharClass.decimalDigit.contains c && !CharClass.recent.contains c) ||
    c == '_'

/-- Whether a word is an identifier. -/
def isIdentifier : List Char → Bool
  | [] => false
  | c :: rest => beginsIdentifier c && rest.all continuesIdentifier

/-- The words with a fixed meaning. -/
def keywords : List (String × TokenKind) :=
  [("for", .forKeyword), ("do", .doKeyword), ("end", .endKeyword), ("in", .inKeyword),
    ("var", .varKeyword), ("assert", .assertKeyword), ("print", .printKeyword),
    ("read", .readKeyword), ("bool", .boolType), ("string", .stringType), ("int", .intType)]

end Lexeme

/-! ### Forms of lexemes -/

/-- What a lexeme means: a token, or a mistake that is shown with the text. -/
inductive Meaning where
  | token (kind : TokenKind) (text : String)
  | mistake (cause : Cause) (text : String)
deriving DecidableEq, Repr

/-- A lexeme at the front of a text. -/
structure Lexeme where
  /-- The characters of the lexeme. -/
  characters : List Char
  /-- The characters after it. -/
  rest : List Char
  meaning : Meaning
deriving DecidableEq, Repr

namespace Lexeme

/-- The meaning of a word. -/
def wordMeaning (word : String) : Meaning :=
  match keywords.lookup word with
  | some kind => .token kind word
  | none =>
    if word = "true" || word = "false" then .token .booleanLiteral word
    else if isIdentifier word.toList then .token .identifier word
    else .mistake (.invalidIdentifier word) word

/-- A word: everything up to a character that ends words. -/
def word (first : Char) (text : List Char) : Lexeme :=
  let characters := first :: text.takeWhile fun c => !endsWord c
  ⟨characters, text.dropWhile fun c => !endsWord c, wordMeaning (String.ofList characters)⟩

/-- The meaning of a row of digits. -/
def numberMeaning (digits : List Char) : Meaning :=
  let text := String.ofList digits
  if (Numeral.toInt64? digits).isSome then .token .integerLiteral text
  else .mistake (.numberOutOfRange text) text

/-- A number: all digits that follow. -/
def number (first : Char) (text : List Char) : Lexeme :=
  let characters := first :: text.takeWhile Char.isDigit
  ⟨characters, text.dropWhile Char.isDigit, numberMeaning characters⟩

/-- The character that a backslash and `c` denote in a string literal. -/
def unescape (c : Char) : Char :=
  if c = 'n' then '\n' else if c = 't' then '\t' else c

/-- A string literal after its opening quote. -/
structure StringTail where
  /-- The characters up to the closing quote, which is included. -/
  characters : List Char
  /-- The characters after the closing quote. -/
  rest : List Char
  /-- The text that the literal denotes. -/
  content : List Char
  /-- Whether there is a closing quote. -/
  closed : Bool
deriving DecidableEq, Repr

/-- Puts a character before a literal's tail, under the spelling it has. -/
def StringTail.push (tail : StringTail) (spelling : List Char) (c : Char) : StringTail :=
  { tail with characters := spelling ++ tail.characters, content := c :: tail.content }

/-- Reads a string literal up to its closing quote, or to the end of the text if
there is none. -/
def stringTail : List Char → StringTail
  | [] => ⟨[], [], [], false⟩
  | '"' :: rest => ⟨['"'], rest, [], true⟩
  | ['\\'] => ⟨['\\'], [], [], false⟩
  | '\\' :: c :: rest => (stringTail rest).push ['\\', c] (unescape c)
  | c :: rest => (stringTail rest).push [c] c

/-- A string literal.  A literal that is not closed is shown with its opening
quote. -/
def string (text : List Char) : Lexeme :=
  let tail := stringTail text
  let meaning := if tail.closed then .token .stringLiteral (String.ofList tail.content)
    else .mistake .unclosedString (String.ofList ('"' :: tail.content))
  ⟨'"' :: tail.characters, tail.rest, meaning⟩

/-- A colon, or an assignment sign if an equals sign follows at once. -/
def colon : List Char → Lexeme
  | '=' :: rest => ⟨[':', '='], rest, .token .assignment ":="⟩
  | rest => ⟨[':'], rest, .token .colon ":"⟩

/-- A character that no lexeme begins with. -/
def stray (c : Char) (text : List Char) : Lexeme :=
  ⟨[c], text, .mistake (.invalidCharacter c) (String.singleton c)⟩

/-- Two dots; a single one begins no lexeme. -/
def dots : List Char → Lexeme
  | '.' :: rest => ⟨['.', '.'], rest, .token .range ".."⟩
  | rest => stray '.' rest

/-- The lexeme that begins with `c` and goes on in `text`. -/
def read (c : Char) (text : List Char) : Lexeme :=
  match simpleKind? c with
  | some kind => ⟨[c], text, .token kind (String.singleton c)⟩
  | none =>
    if beginsWord c then word c text
    else if c.isDigit then number c text
    else if c = '"' then string text
    else if c = ':' then colon text
    else if c = '.' then dots text
    else stray c text

/-! ### Nothing is lost -/

theorem stringTail_append (text : List Char) :
    (stringTail text).characters ++ (stringTail text).rest = text := by
  fun_induction stringTail text <;> simp_all [StringTail.push]

theorem colon_append (text : List Char) :
    (colon text).characters ++ (colon text).rest = ':' :: text := by
  unfold colon
  split <;> rfl

theorem dots_append (text : List Char) :
    (dots text).characters ++ (dots text).rest = '.' :: text := by
  unfold dots stray
  split <;> rfl

/-- A lexeme and its rest are the text they were read from. -/
theorem characters_append_rest (c : Char) (text : List Char) :
    (read c text).characters ++ (read c text).rest = c :: text := by
  unfold read
  split
  · rfl
  · split
    · simp [word]
    · split
      · simp [number]
      · split
        · next hquote => simp [string, stringTail_append, hquote]
        · split
          · next hcolon => rw [hcolon, colon_append]
          · split
            · next hdot => rw [hdot, dots_append]
            · rfl

/-- A lexeme has at least one character. -/
theorem characters_ne_nil (c : Char) (text : List Char) : (read c text).characters ≠ [] := by
  unfold read word number string colon dots stray
  repeat' split
  all_goals simp

/-- The rest of a text after a lexeme is no longer than the text after the first
character. -/
theorem length_rest_le (c : Char) (text : List Char) :
    (read c text).rest.length ≤ text.length := by
  have hwhole := congrArg List.length (characters_append_rest c text)
  have hnonempty := List.length_pos_iff.2 (characters_ne_nil c text)
  simp only [List.length_append, List.length_cons] at hwhole
  omega

end Lexeme

end LoopLang
