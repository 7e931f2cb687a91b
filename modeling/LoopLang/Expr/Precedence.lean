import LoopLang.Expr
import LoopLang.Fault

/-!
# Expressions from token lists

A flat list of operands, operators and brackets becomes a tree in two steps.
First the tokens are put into Polish order, every operator before its operands
and without brackets.  This goes from the last token to the first, with a stack
of operators and closing brackets that still wait for what stands to their left.
Then the tree is read off that order.

An operator with a higher precedence binds tighter, and of two with the same
precedence the right one is nearer to the root.  An operator in front of its
operand belongs to the operand at once: coming from the right, that operand is
complete when the operator is met.

Main definitions:

- `Yard.ofTokens`, `Yard.polish`: the two lists while the tokens are ordered,
  and the finished order.
- `Expr.ofPolish`: the tree of a list in Polish order.
- `Expr.ofTokens`: the tree of a token list.
-/

namespace LoopLang

/-- The operator that a token spells; it is a fault if it spells none. -/
def Token.operatorOrFault (token : Token) : Except Fault Operator :=
  match token.operator? with
  | some op => .ok op
  | none => .error (.unknownOperator token.text)

/-- Tokens on their way into Polish order. -/
structure Yard where
  /-- The tokens that have their place, in Polish order. -/
  settled : List Token
  /-- The operators and closing brackets that have no place yet, the leftmost
  first. -/
  waiting : List Token
deriving DecidableEq, Repr

namespace Yard

/-- An opening bracket settles the operators of its group and takes the closing
bracket away. -/
def closeGroup (settled : List Token) : List Token → Except Fault Yard
  | [] => .error .unbalancedBrackets
  | top :: rest =>
    if top.kind = .rightBracket then .ok ⟨settled, rest⟩ else closeGroup (top :: settled) rest

/-- A binary operator settles the operators of its group that bind tighter. -/
def settleTighter (precedence : Nat) (settled : List Token) : List Token → Except Fault Yard
  | [] => .ok ⟨settled, []⟩
  | top :: rest =>
    if top.kind = .rightBracket then .ok ⟨settled, top :: rest⟩
    else do
      let op ← top.operatorOrFault
      if op.precedence ≤ precedence then .ok ⟨settled, top :: rest⟩
      else settleTighter precedence (top :: settled) rest

/-- Takes up the token to the left of those that were taken up before. -/
def place (yard : Yard) (token : Token) : Except Fault Yard :=
  match token.kind with
  | .rightBracket => .ok { yard with waiting := token :: yard.waiting }
  | .leftBracket => closeGroup yard.settled yard.waiting
  | .unaryOperator => .ok { yard with settled := token :: yard.settled }
  | .binaryOperator => do
    let op ← token.operatorOrFault
    let yard ← settleTighter op.precedence yard.settled yard.waiting
    .ok { yard with waiting := token :: yard.waiting }
  | _ =>
    if token.isOperand then .ok { yard with settled := token :: yard.settled }
    else .error (.invalidLeaf token.text)

/-- Takes up all tokens, the last one first. -/
def ofTokens : List Token → Except Fault Yard
  | [] => .ok ⟨[], []⟩
  | token :: rest => do
    let yard ← ofTokens rest
    yard.place token

/-- Settles everything that waits.  A bracket that is left was never opened. -/
def settleAll (settled : List Token) : List Token → Except Fault (List Token)
  | [] => .ok settled
  | top :: rest =>
    if top.kind = .rightBracket then .error .unbalancedBrackets else settleAll (top :: settled) rest

/-- The Polish order of a token list. -/
def polish (tokens : List Token) : Except Fault (List Token) := do
  let yard ← ofTokens tokens
  settleAll yard.settled yard.waiting

end Yard

namespace Expr

/-- Reads one tree off the front of a list in Polish order and returns it with
the tokens after it.  The tree has at most `size` levels; the length of the list
is always enough.  A list that ends too early is the fault `malformed`. -/
def ofPolish (malformed : Fault) : Nat → List Token → Except Fault (Expr × List Token)
  | _, [] => .error malformed
  | 0, _ :: _ => .error malformed
  | size + 1, token :: rest =>
    match token.kind with
    | .unaryOperator => do
      let op ← token.operatorOrFault
      let (operand, rest) ← ofPolish malformed size rest
      .ok (.unary op token operand, rest)
    | .binaryOperator => do
      let op ← token.operatorOrFault
      let (left, rest) ← ofPolish malformed size rest
      let (right, rest) ← ofPolish malformed size rest
      .ok (.binary op token left right, rest)
    | _ => if token.isOperand then .ok (.leaf token, rest) else .error (.invalidLeaf token.text)

/-- The fault of an expression whose operators and operands do not fit, at the
place of its first token. -/
def malformedAt : List Token → Fault
  | [] => .malformedExpression (-1) (-1)
  | token :: _ => .malformedExpression token.line token.column

/-- The tree of a token list.  All tokens have to belong to one tree. -/
def ofTokens (tokens : List Token) : Except Fault Expr := do
  let order ← Yard.polish tokens
  let (expr, rest) ← ofPolish (malformedAt tokens) order.length order
  if rest.isEmpty then .ok expr else .error (malformedAt tokens)

end Expr

end LoopLang
