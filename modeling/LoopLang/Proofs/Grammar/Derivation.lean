import LoopLang.Grammar.Kinds

/-!
# Derivations

The grammar of the language as a relation on rows of token categories.  It says
which rows are programs and knows nothing of reading, recovery and trees.

Main definitions:

- `Phrase`: the parts of a program that the grammar has a rule for.
- `Derives`: the rows of categories that a phrase stands for.
-/

namespace LoopLang

namespace Grammar

/-- A part of a program that the grammar has a rule for.  A whole program is a
phrase `statements`. -/
inductive Phrase where
  | statements
  | statement
  | expression
  | term
  | operand
deriving DecidableEq, Repr

/-- The rows of categories that a phrase stands for, one constructor for each
alternative of a rule. -/
inductive Derives : Phrase → List TokenKind → Prop where
  -- statements := [statement (';' statement)* [';']]
  | empty : Derives .statements []
  | last {stmt : List TokenKind} (hstmt : Derives .statement stmt) : Derives .statements stmt
  | separated {stmt rest : List TokenKind} (hstmt : Derives .statement stmt)
      (hrest : Derives .statements rest) : Derives .statements (stmt ++ .semicolon :: rest)
  -- statement := 'var' id ':' type [':=' expr] | id ':=' expr
  | declaration {ty : TokenKind} (hty : ty ∈ types) :
      Derives .statement [.varKeyword, .identifier, .colon, ty]
  | initialised {ty : TokenKind} {value : List TokenKind} (hty : ty ∈ types)
      (hvalue : Derives .expression value) :
      Derives .statement (.varKeyword :: .identifier :: .colon :: ty :: .assignment :: value)
  | assignment {value : List TokenKind} (hvalue : Derives .expression value) :
      Derives .statement (.identifier :: .assignment :: value)
  -- | 'for' id 'in' expr '..' expr 'do' statements 'end' 'for'
  | loop {first last body : List TokenKind} (hfirst : Derives .expression first)
      (hlast : Derives .expression last) (hbody : Derives .statements body) :
      Derives .statement (.forKeyword :: .identifier :: .inKeyword :: (first ++ .range ::
        (last ++ .doKeyword :: (body ++ [.endKeyword, .forKeyword]))))
  -- | 'read' id | 'print' expr | 'assert' '(' expr ')'
  | read : Derives .statement [.readKeyword, .identifier]
  | print {value : List TokenKind} (hvalue : Derives .expression value) :
      Derives .statement (.printKeyword :: value)
  | assertion {condition : List TokenKind} (hcondition : Derives .expression condition) :
      Derives .statement (.assertKeyword :: .leftBracket :: (condition ++ [.rightBracket]))
  -- expr := term (binop term)*
  | single {term : List TokenKind} (hterm : Derives .term term) : Derives .expression term
  | chain {term rest : List TokenKind} (hterm : Derives .term term)
      (hrest : Derives .expression rest) : Derives .expression (term ++ .binaryOperator :: rest)
  -- term := unop* operand
  | bare {operand : List TokenKind} (hoperand : Derives .operand operand) : Derives .term operand
  | prefixed {term : List TokenKind} (hterm : Derives .term term) :
      Derives .term (.unaryOperator :: term)
  -- operand := literal | id | '(' expr ')'
  | literal {kind : TokenKind} (hkind : kind.isLiteral = true) : Derives .operand [kind]
  | identifier : Derives .operand [.identifier]
  | group {inner : List TokenKind} (hinner : Derives .expression inner) :
      Derives .operand (.leftBracket :: (inner ++ [.rightBracket]))

end Grammar

end LoopLang
