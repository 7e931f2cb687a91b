import LoopLang.Ty

/-!
# Tokens

The words of a program, with the place they were read from.

Main definitions:

- `TokenKind`: the category of a token.
- `Token`: a category, a text, a line and column, and a range of bytes.
- `Token.missing`: the token that stands for no token.
-/

namespace LoopLang

/-- The category of a token. -/
inductive TokenKind where
  | identifier
  | integerLiteral
  | stringLiteral
  | booleanLiteral
  | binaryOperator
  | unaryOperator
  | assignment
  | forKeyword
  | inKeyword
  | doKeyword
  | varKeyword
  | endKeyword
  | assertKeyword
  | printKeyword
  | readKeyword
  | intType
  | stringType
  | boolType
  | semicolon
  | colon
  | leftBracket
  | rightBracket
  | range
  /-- The end of the source. -/
  | endOfFile
  /-- The absence of a token. -/
  | missing
deriving DecidableEq, Repr

namespace TokenKind

/-- What a message calls a token of this category. -/
def description : TokenKind → String
  | identifier => "identifier"
  | integerLiteral => "integer literal"
  | stringLiteral => "string literal"
  | booleanLiteral => "boolean literal"
  | binaryOperator => "binary operator"
  | unaryOperator => "unary operator"
  | assignment => "\":=\""
  | forKeyword => "\"for\""
  | inKeyword => "\"in\""
  | doKeyword => "\"do\""
  | varKeyword => "\"var\""
  | endKeyword => "\"end\""
  | assertKeyword => "\"assert\""
  | printKeyword => "\"print\""
  | readKeyword => "\"read\""
  | intType => "\"int\""
  | stringType => "\"string\""
  | boolType => "\"bool\""
  | semicolon => "\";\""
  | colon => "\":\""
  | leftBracket => "\"(\""
  | rightBracket => "\")\""
  | range => "\"..\""
  | endOfFile => "end of file"
  | missing => "nothing"

/-- Whether tokens of this category denote a constant. -/
def isLiteral : TokenKind → Bool
  | integerLiteral | stringLiteral | booleanLiteral => true
  | _ => false

/-- The type that a type keyword names. -/
def namedType? : TokenKind → Option Ty
  | intType => some .int
  | stringType => some .string
  | boolType => some .bool
  | _ => none

/-- The type of a literal. -/
def literalType? : TokenKind → Option Ty
  | integerLiteral => some .int
  | stringLiteral => some .string
  | booleanLiteral => some .bool
  | _ => none

/-- The literals are the categories that have a literal type. -/
theorem isSome_literalType? (kind : TokenKind) :
    kind.literalType?.isSome = kind.isLiteral := by
  cases kind <;> rfl

end TokenKind

/-- A word of a program. -/
structure Token where
  kind : TokenKind
  /-- The spelling; for a string literal, the text it denotes. -/
  text : String
  /-- The line of the first character, counted from one. -/
  line : Int
  /-- The column of the first character, counted from one. -/
  column : Int
  /-- The number of bytes of the source before the token. -/
  start : Nat
  /-- The number of bytes of the source up to the end of the token. -/
  stop : Nat
deriving DecidableEq, Repr

namespace Token

/-- The token that stands for no token at all. -/
def missing : Token := ⟨.missing, "", -1, -1, 0, 0⟩

/-- Whether the token only marks a place, without being one of the words of the
program. -/
def isMissing (token : Token) : Bool :=
  token.kind == .missing

/-- Whether the token can be an operand by itself. -/
def isOperand (token : Token) : Bool :=
  token.kind == .identifier || token.kind.isLiteral

/-- Whether the category of the token is one of the given ones. -/
def isOneOf (token : Token) (kinds : List TokenKind) : Bool :=
  kinds.contains token.kind

/-- The operator that an operator token spells. -/
def operator? (token : Token) : Option Operator :=
  match token.kind with
  | .binaryOperator | .unaryOperator => Operator.ofLexeme? token.text
  | _ => none

end Token

end LoopLang
