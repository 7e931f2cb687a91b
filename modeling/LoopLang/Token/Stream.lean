import LoopLang.Fault
import LoopLang.Text.Utf8
import LoopLang.Token.Lexeme

/-!
# Token streams

A source text read into tokens.  The whole text is read at once; what remains is
a queue of tokens, the diagnostics of the mistakes met, and the token that marks
the end.

Main definitions:

- `Scan.ofText`: the tokens and mistakes of a text, in source order.
- `TokenStream.ofSource`: the stream of a source text.
- `TokenStream.peek`, `TokenStream.next`: the first token of the queue, left
  there or taken out.
-/

namespace LoopLang

/-- The token for the text between two places of the source. -/
def Token.between (start stop : Position) (kind : TokenKind) (text : String) : Token :=
  ⟨kind, text, start.line, start.column, start.offset, stop.offset⟩

/-- The token for the end of a source. -/
def Token.endOfFile (pos : Position) : Token :=
  Token.between pos pos .endOfFile "EOF"

/-- A lexeme with its place: a token, or the diagnostic of a mistake. -/
inductive Item where
  | token (token : Token)
  | mistake (diagnostic : Diagnostic)
deriving DecidableEq, Repr

namespace Item

/-- The token of an item, if it is one. -/
def token? : Item → Option Token
  | token t => some t
  | mistake _ => none

/-- The diagnostic of an item, if it is a mistake. -/
def diagnostic? : Item → Option Diagnostic
  | token _ => none
  | mistake d => some d

/-- The item for a meaning found between two places.  A mistake is anchored on a
token that stands for the text it was found in. -/
def ofMeaning (start stop : Position) : Meaning → Item
  | .token kind text => token (Token.between start stop kind text)
  | .mistake cause text => mistake (.about (Token.between start stop .missing text) cause)

end Item

/-- What reading a text gives. -/
structure Scan where
  /-- The tokens and mistakes in source order. -/
  items : List Item
  /-- The place after the last character. -/
  finish : Position
deriving DecidableEq, Repr

namespace Scan

/-- Reads a text that begins at the given place: skips blanks, then takes one
lexeme after the other. -/
def ofTextAt (start : Position) (text : List Char) : Scan :=
  let pos := start.after (text.takeWhile Lexeme.isBlank)
  match _hrest : text.dropWhile Lexeme.isBlank with
  | [] => ⟨[], pos⟩
  | c :: rest =>
    let lexeme := Lexeme.read c rest
    let stop := pos.after lexeme.characters
    let more := ofTextAt stop lexeme.rest
    ⟨.ofMeaning pos stop lexeme.meaning :: more.items, more.finish⟩
termination_by text.length
decreasing_by
  have hsublist : (text.dropWhile Lexeme.isBlank).Sublist text := List.dropWhile_sublist _
  have hshorter := hsublist.length_le
  have hle := Lexeme.length_rest_le c rest
  rw [_hrest, List.length_cons] at hshorter
  omega

/-- Reads a whole text. -/
def ofText (text : List Char) : Scan :=
  ofTextAt Position.start text

/-- The tokens of a text, in source order. -/
def tokens (scan : Scan) : List Token :=
  scan.items.filterMap Item.token?

/-- The diagnostics of a text, in source order. -/
def diagnostics (scan : Scan) : List Diagnostic :=
  scan.items.filterMap Item.diagnostic?

end Scan

/-- A queue of the tokens of a source. -/
structure TokenStream where
  source : String
  /-- The tokens that have not been taken. -/
  pending : List Token
  /-- The mistakes that have not been taken. -/
  diagnostics : List Diagnostic
  /-- The token that marks the end of the source. -/
  endToken : Token
deriving DecidableEq, Repr

namespace TokenStream

/-- The stream of a source text. -/
def ofSource (source : String) : TokenStream :=
  let scan := Scan.ofText source.toList
  ⟨source, scan.tokens, scan.diagnostics, .endOfFile scan.finish⟩

/-- The stream of a source given by its bytes, `none` if they are no text. -/
def ofBytes? (bytes : List UInt8) : Option TokenStream :=
  (Utf8.decode? bytes).map fun text => ofSource (String.ofList text)

/-- Whether a token is left. -/
def hasNext (stream : TokenStream) : Bool :=
  !stream.pending.isEmpty

/-- The number of tokens left. -/
def remaining (stream : TokenStream) : Nat :=
  stream.pending.length

/-- The first token that is left. -/
def peek (stream : TokenStream) : Except Fault Token :=
  match stream.pending with
  | [] => .error .noMoreTokens
  | token :: _ => .ok token

/-- Takes the first token that is left. -/
def next (stream : TokenStream) : Except Fault Token × TokenStream :=
  match stream.pending with
  | [] => (.error .noMoreTokens, stream)
  | token :: rest => (.ok token, { stream with pending := rest })

/-- Takes all diagnostics. -/
def takeDiagnostics (stream : TokenStream) : List Diagnostic × TokenStream :=
  (stream.diagnostics, { stream with diagnostics := [] })

end TokenStream

end LoopLang
