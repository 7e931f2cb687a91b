import LoopLang.Grammar.Expression
import LoopLang.Stmt

/-!
# Reading statements

One reader for each form of statement.  A statement that lacks a part is read on
to its end, so that its remaining parts are not taken for statements of their
own, and then left out.

Main definitions:

- `statement`: the statement that begins at the cursor.
- `statements`: the statements up to a token that begins none.
-/

namespace LoopLang

namespace Grammar

/-- Reads `'var' id ':' type [':=' expr]`. -/
def declaration : Parse Stmt := do
  let _ ← accept [.varKeyword]
  let name ← expectPart [.identifier] [.colon]
  let colon ← expectPart [.colon] types
  let typeToken ← skippable (expect types [.assignment])
  let initial ← if ← accept [.assignment] then some <$> expression else pure none
  match name, colon, typeToken with
  | some name, some _, some typeToken =>
    match typeToken.kind.namedType? with
    | some ty => return .declare name typeToken ty initial
    | none => throw (.fatal (.unknownType typeToken.text))
  | _, _, _ => throw .skip

/-- Reads `id ':=' expr`. -/
def assignment : Parse Stmt := do
  let _ ← accept [.identifier]
  let name := (← get).accepted
  let sign ← expectPart [.assignment] expressionFirst
  let value ← expression
  match sign with
  | some _ => return .assign name value
  | none => throw .skip

/-- Reads `'for' id 'in' expr '..' expr 'do' statements 'end' 'for'`, given the
reader of its body. -/
def loop (body : Parse Program) : Parse Stmt := do
  let _ ← accept [.forKeyword]
  let counter ← expectPart [.identifier] [.inKeyword]
  let inWord ← expectPart [.inKeyword] expressionFirst
  let first ← skippable expression
  let first ← resume first
  let range ← expectPart [.range] expressionFirst
  let last ← skippable expression
  let last ← resume last
  let doWord ← skippable (expect [.doKeyword] bodyFirst)
  let body ← body
  let endWord ← skippable (expect [.endKeyword] [.forKeyword])
  let forWord ← skippable (expect [.forKeyword] [])
  match counter, inWord, first, range, last, doWord, endWord, forWord with
  | some counter, some _, some first, some _, some last, some _, some _, some _ =>
    return .loop counter first last body
  | _, _, _, _, _, _, _, _ => throw .skip

/-- Reads `'read' id`. -/
def readStatement : Parse Stmt := do
  let _ ← accept [.readKeyword]
  let name ← expect [.identifier] []
  return .read name

/-- Reads `'print' expr`. -/
def printStatement : Parse Stmt := do
  let _ ← accept [.printKeyword]
  let value ← expression
  return .print value

/-- Reads `'assert' '(' expr ')'`. -/
def assertion : Parse Stmt := do
  let _ ← accept [.assertKeyword]
  let keyword := (← get).accepted
  let opening ← expectPart [.leftBracket] expressionFirst
  let firstToken := (← get).current
  let condition ← skippable expression
  let condition ← resume condition
  let lastToken := (← get).accepted
  let closing ← skippable (expect [.rightBracket] [])
  match opening, condition, closing with
  | some _, some condition, some _ =>
    return .assert keyword condition ((← get).quote firstToken lastToken)
  | _, _, _ => throw .skip

/-- Reads the statement that the next token begins, given the reader of a loop's
body. -/
def statementWith (body : Parse Program) : Parse Stmt := do
  match (← get).current.kind with
  | .varKeyword => declaration
  | .identifier => assignment
  | .forKeyword => loop body
  | .readKeyword => readStatement
  | .printKeyword => printStatement
  | .assertKeyword => assertion
  | _ =>
    unexpected statementFirst
    throw .skip

/-! ### Lists of statements -/

/-- How the reading of a statement in a list ended. -/
inductive Attempt where
  | complete (stmt : Stmt)
  | skipped
  | halted
deriving DecidableEq, Repr

namespace Attempt

/-- The statement that was read, as a list. -/
def toList : Attempt → List Stmt
  | complete stmt => [stmt]
  | _ => []

/-- Whether the reading ended before the end of the statement. -/
def isHalted : Attempt → Bool
  | halted => true
  | _ => false

end Attempt

/-- Reads a statement of a list.  The list goes on where the statement does not
get to its end. -/
def attempt (statement : Parse Stmt) : Parse Attempt := fun cursor =>
  match statement cursor with
  | .ok stmt cursor => .ok (.complete stmt) cursor
  | .error .skip cursor => .ok .skipped cursor
  | .error .halt cursor => .ok .halted cursor
  | .error (.fatal fault) cursor => .error (.fatal fault) cursor

/-- Reads statements while the next token can begin one.  A semicolon that is
missing between two statements is recorded.  Every statement takes a token, so
as many statements as there are tokens to read are enough. -/
def statementsWithin : Nat → Parse Program
  | 0 => return []
  | bound + 1 => do
    if (← get).sees statementFirst then
      let result ← attempt (statementWith (statementsWithin bound))
      let separated ← accept [.semicolon]
      if separated || result.isHalted then
        return result.toList ++ (← statementsWithin bound)
      else if (← get).sees statementFirst then
        unexpected [.semicolon]
        return result.toList ++ (← statementsWithin bound)
      else
        return result.toList
    else
      return []

/-- Reads the statements that begin at the cursor. -/
def statements : Parse Program := do
  statementsWithin (← get).pending.length

/-- Reads the statement that begins at the cursor. -/
def statement : Parse Stmt := do
  statementWith (statementsWithin (← get).pending.length)

end Grammar

end LoopLang
