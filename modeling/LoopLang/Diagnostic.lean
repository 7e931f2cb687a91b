import LoopLang.Token
import LoopLang.Text.Numeral
import LoopLang.Text.Quoted
import LoopLang.Text.Source

/-!
# Diagnostics

What is wrong with a program, and where.  Each stage that looks at a program
reports diagnostics of its own: reading its words, reading its statements, and
checking its names and types.

Main definitions:

- `Cause`: what is wrong, with its `message`, its `advice` and its `stage`.
- `Diagnostic`: a cause and the token it is anchored on.
- `Diagnostic.render`: the message, followed by the source line and a caret.
-/

namespace LoopLang

/-- The stage of the work that a diagnostic belongs to. -/
inductive Stage where
  | lexical
  | syntactic
  | semantic
deriving DecidableEq, Repr

namespace Stage

/-- The stages in the order in which a program passes them. -/
def all : List Stage := [lexical, syntactic, semantic]

/-- What a message calls the stage. -/
def name : Stage → String
  | lexical => "lexical"
  | syntactic => "syntax"
  | semantic => "semantic"

end Stage

/-- What is wrong with a program. -/
inductive Cause where
  /-- No word begins with this character. -/
  | invalidCharacter (c : Char)
  /-- The word is neither a keyword nor an identifier. -/
  | invalidIdentifier (word : String)
  /-- A string literal has no closing quote. -/
  | unclosedString
  /-- The integer literal is out of range. -/
  | numberOutOfRange (literal : String)
  /-- A token of another category was expected. -/
  | unexpectedToken (expected : List TokenKind) (found : TokenKind)
  /-- The name is declared for the second time. -/
  | alreadyDeclared (name : String)
  /-- The name is not declared. -/
  | undeclared (name : String)
  /-- The name belongs to a loop that is being run. -/
  | locked (name : String)
  /-- An expression has another type than the one that is required. -/
  | typeMismatch (expected received : Ty)
  /-- The operands of an operator have different types. -/
  | operandMismatch (left right : Ty)
  /-- The operands of an operator have a type that does not support it. -/
  | notApplicable (operator : Operator) (ty : Ty)
deriving DecidableEq, Repr

namespace Cause

/-- The stage that reports the cause. -/
def stage : Cause → Stage
  | invalidCharacter _ | invalidIdentifier _ | unclosedString | numberOutOfRange _ => .lexical
  | unexpectedToken _ _ => .syntactic
  | alreadyDeclared _ | undeclared _ | locked _ | typeMismatch _ _ | operandMismatch _ _
  | notApplicable _ _ => .semantic

/-- The wording of the cause. -/
def message : Cause → String
  | invalidCharacter c => "Invalid input character " ++ Quoted.char c
  | invalidIdentifier word => "Invalid identifier " ++ word
  | unclosedString => "Unclosed string literal"
  | numberOutOfRange literal => "Integer literal " ++ literal ++ " out of range"
  | unexpectedToken expected found =>
    "Expecting " ++ String.intercalate " or " (expected.map TokenKind.description) ++
      ", but found " ++ found.description
  | alreadyDeclared name => "Identifier " ++ name ++ " already declared"
  | undeclared name => "Undeclared variable " ++ name
  | locked name => "Variable " ++ name ++ " is locked by a for loop and cannot be assigned to"
  | typeMismatch expected received =>
    "Expression does not match the required type: expected " ++ expected.name ++ ", found " ++
      received.name
  | operandMismatch left right =>
    "Types of left and right operand do not match: " ++ left.name ++ " and " ++ right.name
  | notApplicable op ty => "Could not apply operator " ++ op.lexeme ++ " to type " ++ ty.name

/-- A hint on how to mend the program. -/
def advice : Cause → Option String
  | invalidIdentifier _ =>
    some "Identifiers start with a letter followed by letters, digits or `_`"
  | unclosedString => some "Did you forget the closing `\"`?"
  | numberOutOfRange _ => some "Integer literals must fit in a signed 64 bit integer"
  | unexpectedToken expected _ =>
    if expected.contains .semicolon then some "Did you miss a semicolon?" else none
  | undeclared name => some ("Declare it first with `var " ++ name ++ " : <type>;`")
  | locked _ => some "Loop variables cannot be assigned inside their own loop"
  | _ => none

end Cause

/-- A cause and the token it is anchored on. -/
structure Diagnostic where
  cause : Cause
  anchor : Option Token
deriving DecidableEq, Repr

namespace Diagnostic

/-- A diagnostic about the given token. -/
def about (token : Token) (cause : Cause) : Diagnostic := ⟨cause, some token⟩

/-- The stage that reported the diagnostic. -/
def stage (diagnostic : Diagnostic) : Stage :=
  diagnostic.cause.stage

/-- The line and column of the anchor, if it has a place in the source. -/
def position? (diagnostic : Diagnostic) : Option (Int × Int) :=
  match diagnostic.anchor with
  | some token =>
    if 0 < token.line && 0 < token.column then some (token.line, token.column) else none
  | none => none

/-- The message of the cause, after the place where it arose.  An anchor that
is one of the words of the program is quoted. -/
def message (diagnostic : Diagnostic) : String :=
  match diagnostic.anchor with
  | none => diagnostic.cause.message
  | some token =>
    let place := "line " ++ Numeral.ofInt token.line ++ " column " ++ Numeral.ofInt token.column
    if token.isMissing then "Error near " ++ place ++ ": " ++ diagnostic.cause.message
    else "Error near \"" ++ token.text ++ "\" on " ++ place ++ ": " ++ diagnostic.cause.message

/-- Whether a character is left out at the start of a shown line. -/
def isIndentation (c : Char) : Bool :=
  c == ' ' || c == '\t'

/-- A line of the source without its indentation, under its number, and a caret
below the character in the given column. -/
def excerpt (number : Int) (column : Int) (line : String) : String :=
  let label := Numeral.ofInt number
  let indentation := (line.toList.takeWhile isIndentation).length
  let shown := line.toList.dropWhile isIndentation
  let caret := column.toNat - indentation - 1
  "\n  " ++ label ++ " | " ++ String.ofList shown ++
    "\n  " ++ String.ofList (List.replicate label.length ' ') ++ " | " ++
      String.ofList (List.replicate caret ' ') ++ "^"

/-- The message, with an excerpt of the source if the anchor has a place in it. -/
def render (source : String) (diagnostic : Diagnostic) : String :=
  match diagnostic.position? with
  | none => diagnostic.message
  | some (line, column) =>
    match Source.line? source line with
    | none => diagnostic.message
    | some text => diagnostic.message ++ excerpt line column text

end Diagnostic

end LoopLang
