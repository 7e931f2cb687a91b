import LoopLang.Grammar.Statement

/-!
# Reading programs

A program is a list of statements that takes all tokens of its source.  Tokens
that cannot go on with the list are recorded and passed over up to the next
statement, so that every source gives a program.

Main definitions:

- `Program.ofStream`: the program of a token stream, with the mistakes found.
-/

namespace LoopLang

namespace Grammar

/-- The recorded mistake where the list of statements cannot go on: after a
semicolon, and where nothing has been read, a statement was expected; after a
statement, a semicolon. -/
def Cursor.listExpected (cursor : Cursor) : List TokenKind :=
  if cursor.accepted.isOneOf [.semicolon, .missing] then statementFirst else [.semicolon]

/-- Passes over the next token and over all that cannot begin a statement. -/
def Cursor.skipToStatement (cursor : Cursor) : Cursor :=
  let stray := cursor.pending.tail.takeWhile fun token =>
    !token.isOneOf (.endOfFile :: statementFirst)
  cursor.discard (stray.length + 1)

/-- Reads the statements that begin at the cursor, none if the list was given
up. -/
def statementsOrNone : Parse Program := fun cursor =>
  match statements cursor with
  | .ok program cursor => .ok program cursor
  | .error (.fatal fault) cursor => .error (.fatal fault) cursor
  | .error _ cursor => .ok [] cursor

/-- Reads statements up to the end of the source.  Every round but the last
passes over a token, so as many rounds as there are tokens to read are
enough. -/
def programWithin : Nat → Parse Program
  | 0 => return []
  | bound + 1 => do
    let front ← statementsOrNone
    if (← get).sees [.endOfFile] then
      return front
    else
      unexpected (← get).listExpected
      modify Cursor.skipToStatement
      return front ++ (← programWithin bound)

/-- Reads the program that begins at the cursor. -/
def program : Parse Program := do
  programWithin (← get).pending.length

end Grammar

/-- The program of a token stream and the mistakes in it.  Statements that could
not be read are left out. -/
def Program.ofStream (stream : TokenStream) : Except Fault (Program × List Diagnostic) :=
  match Grammar.program (Grammar.Cursor.ofStream stream) with
  | .ok program cursor => .ok (program, cursor.diagnostics)
  | .error (.fatal fault) _ => .error fault
  | .error _ cursor => .ok ([], cursor.diagnostics)

end LoopLang
