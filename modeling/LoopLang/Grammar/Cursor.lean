import LoopLang.Grammar.Kinds
import LoopLang.Token.Stream

/-!
# Reading tokens with recovery

A cursor goes through the tokens of a source.  Where a token is not the expected
one, the mistake is recorded and tokens are discarded until the cursor stands on
a token at which reading can go on.  There are three such landings: an expected
token, a token that may come after the part that is being read, and a token that
begins a statement or ends the source.

Main definitions:

- `Cursor`: what is left to read, and what has been recorded.
- `Parse`: a reader of some part of a program, which may stop short.
- `accept`, `expect`: taking a token, and taking one with recovery.
- `skippable`, `resume`, `expectPart`: going on with the rest of a statement
  after a part of it was skipped.

Main results:

- Theorem `expect_apply`: what expecting a token does to a cursor.
-/

namespace LoopLang

namespace Grammar

/-- Where the reading of a program stands.  Every token of the source is pending
at first, and is then either taken or discarded. -/
structure Cursor where
  /-- The text that assertions quote. -/
  source : String
  /-- The token that marks the end of the source. -/
  endToken : Token
  /-- The tokens that have not been read. -/
  pending : List Token
  /-- The tokens that were accepted, the latest first. -/
  taken : List Token
  /-- The tokens that were passed over, the latest first. -/
  discarded : List Token
  /-- The mistakes recorded so far. -/
  diagnostics : List Diagnostic
deriving DecidableEq, Repr

namespace Cursor

/-- A cursor before the first token of a stream. -/
def ofStream (stream : TokenStream) : Cursor :=
  ⟨stream.source, stream.endToken, stream.pending, [], [], []⟩

/-- The token to be read next.  After the last token it is the end token. -/
def current (cursor : Cursor) : Token :=
  cursor.pending.headD cursor.endToken

/-- The token that was accepted last, or the one that stands for none. -/
def accepted (cursor : Cursor) : Token :=
  cursor.taken.headD .missing

/-- Whether the category of the next token is one of the given ones. -/
def sees (cursor : Cursor) (kinds : List TokenKind) : Bool :=
  cursor.current.isOneOf kinds

/-- Takes the next token. -/
def take (cursor : Cursor) : Cursor :=
  { cursor with pending := cursor.pending.tail, taken := cursor.current :: cursor.taken }

/-- Takes the tokens at the front that satisfy a condition. -/
def takeWhile (cursor : Cursor) (p : Token → Bool) : Cursor :=
  { cursor with
    pending := cursor.pending.dropWhile p
    taken := (cursor.pending.takeWhile p).reverse ++ cursor.taken }

/-- Passes over the next `n` tokens. -/
def discard (cursor : Cursor) (n : Nat) : Cursor :=
  { cursor with
    pending := cursor.pending.drop n
    discarded := (cursor.pending.take n).reverse ++ cursor.discarded }

/-- Records that the next token is none of the expected ones. -/
def complain (cursor : Cursor) (expected : List TokenKind) : Cursor :=
  let cause := .unexpectedToken expected cursor.current.kind
  { cursor with diagnostics := cursor.diagnostics ++ [.about cursor.current cause] }

/-- The source text from the start of one token to the end of another, empty if
there is no such text. -/
def quote (cursor : Cursor) (first last : Token) : String :=
  (Source.slice? cursor.source first.start last.stop).getD ""

end Cursor

/-- Why a part of a program was not read to its end. -/
inductive Stop where
  /-- The cursor stands on a token that may come after the part.  What encloses
  the part goes on from there. -/
  | skip
  /-- The cursor stands on the beginning of a statement or at the end of the
  source.  What encloses the part is given up as well. -/
  | halt
  /-- The tokens of an expression or a declaration make no sense. -/
  | fatal (fault : Fault)
deriving DecidableEq, Repr

/-- A reader of some part of a program. -/
abbrev Parse := EStateM Stop Cursor

/-! ### Taking tokens -/

/-- Takes the next token if its category is one of the given ones. -/
def accept (kinds : List TokenKind) : Parse Bool := fun cursor =>
  if cursor.sees kinds then .ok true cursor.take else .ok false cursor

/-- Records that the next token is none of the expected ones. -/
def unexpected (expected : List TokenKind) : Parse Unit := fun cursor =>
  .ok () (cursor.complain expected)

/-- Where recovery ends. -/
inductive Landing where
  /-- On an expected token. -/
  | found
  /-- On a token that may come after the part that is being read. -/
  | followed
  /-- On the beginning of a statement or at the end of the source. -/
  | blocked
deriving DecidableEq, Repr

/-- Looks for a landing in a list of tokens.  The result has the number of tokens
before the landing.  A token that may follow is a landing at once, and the end
of the current statement always counts as such; an expected token is one only
after another token was passed over. -/
def seek (expected follow : List TokenKind) (endToken : Token) : List Token → Landing × Nat
  | [] => (if endToken.isOneOf (follow ++ statementFollow) then .followed else .blocked, 0)
  | token :: rest =>
    if token.isOneOf (follow ++ statementFollow) then (.followed, 0)
    else if token.isOneOf (.endOfFile :: starters) then (.blocked, 0)
    else if (rest.headD endToken).isOneOf expected then (.found, 1)
    else
      let (landing, passed) := seek expected follow endToken rest
      (landing, passed + 1)

/-- Moves the cursor to a landing. -/
def recover (expected follow : List TokenKind) : Parse Token := fun cursor =>
  let (landing, passed) := seek expected follow cursor.endToken cursor.pending
  let cursor := cursor.discard passed
  match landing with
  | .found => .ok cursor.current cursor.take
  | .followed => .error .skip cursor
  | .blocked => .error .halt cursor

/-- Takes a token of one of the expected categories.  If the next token is
another one, this is recorded and the cursor moves to a landing. -/
def expect (expected follow : List TokenKind) : Parse Token := do
  if ← accept expected then
    return (← get).accepted
  unexpected expected
  recover expected follow

/-- Expecting takes the next token if it is one of the expected ones, and
recovers after a complaint otherwise. -/
theorem expect_apply (expected follow : List TokenKind) (cursor : Cursor) :
    expect expected follow cursor =
      if cursor.sees expected then .ok cursor.current cursor.take
      else recover expected follow (cursor.complain expected) := by
  unfold expect
  simp only [bind, EStateM.bind, accept]
  by_cases hseen : cursor.sees expected
  · simp only [hseen, if_true]
    rfl
  · simp only [hseen, Bool.false_eq_true, if_false]
    rfl

/-! ### Going on after a skipped part -/

/-- Reads a part that may be skipped. -/
def skippable {α : Type} (part : Parse α) : Parse (Option α) := fun cursor =>
  match part cursor with
  | .ok a cursor => .ok (some a) cursor
  | .error .skip cursor => .ok none cursor
  | .error stop cursor => .error stop cursor

/-- Gives a statement up if the part before was skipped up to its end. -/
def resume {α : Type} (part : Option α) : Parse (Option α) := fun cursor =>
  if part.isNone && cursor.sees statementFollow then .error .skip cursor else .ok part cursor

/-- Takes a token as a part of a statement that goes on without it. -/
def expectPart (expected follow : List TokenKind) : Parse (Option Token) := do
  let part ← skippable (expect expected follow)
  resume part

end Grammar

end LoopLang
