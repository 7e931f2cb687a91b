import LoopLang.Token

/-!
# Token categories of the grammar

Which categories can begin a part of a program, and which can come after it.
The order of a list is the order in which a message names its members.

The grammar is

    statements := [statement (';' statement)* [';']]
    statement  := 'var' id ':' type [':=' expr] | id ':=' expr
                | 'for' id 'in' expr '..' expr 'do' statements 'end' 'for'
                | 'read' id | 'print' expr | 'assert' '(' expr ')'
    expr       := term (binop term)*
    term       := unop* operand
    operand    := literal | id | '(' expr ')'
-/

namespace LoopLang

namespace Grammar

/-- What a statement begins with. -/
def statementFirst : List TokenKind :=
  [.varKeyword, .identifier, .forKeyword, .readKeyword, .printKeyword, .assertKeyword]

/-- What can only be the beginning of a statement, or the word that closes a
loop. -/
def starters : List TokenKind :=
  [.varKeyword, .forKeyword, .readKeyword, .printKeyword, .assertKeyword]

/-- What comes after a statement. -/
def statementFollow : List TokenKind :=
  [.semicolon, .endKeyword]

/-- What an operand begins with. -/
def operandFirst : List TokenKind :=
  [.integerLiteral, .stringLiteral, .booleanLiteral, .identifier, .leftBracket]

/-- What an expression begins with. -/
def expressionFirst : List TokenKind :=
  operandFirst ++ [.unaryOperator]

/-- What comes after an expression. -/
def expressionFollow : List TokenKind :=
  [.semicolon, .range, .doKeyword, .rightBracket, .endKeyword]

/-- The keywords of the types. -/
def types : List TokenKind :=
  [.intType, .stringType, .boolType]

/-- What comes after the head of a loop: its body, or the word that ends it. -/
def bodyFirst : List TokenKind :=
  statementFirst ++ [.endKeyword]

end Grammar

end LoopLang
