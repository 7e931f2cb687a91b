import LoopLang.Proofs.Grammar.Tree
import LoopLang.Proofs.Token.Spelling

/-!
# The shape of expressions

What is true of every expression that is read from a source: its leaves are
names and literals that denote a value, a node with one operand is a negation,
and a node with two operands is not.

Main definitions:

- `Expr.Shaped`: the expressions of this shape.
- `Stmt.All`, `Program.All`: all expressions of a program have a property.

Main results:

- Theorem `Expr.IsExpression.shaped`: a reference tree has this shape.
- Theorem `Grammar.IsProgram.shaped`: so have all expressions of a program.
-/

namespace LoopLang

namespace Expr

/-- The expressions that the operations of the machine are made for. -/
inductive Shaped : Expr → Prop where
  | identifier {token : Token} (hkind : token.kind = .identifier) : Shaped (.leaf token)
  | literal {token : Token} {ty : Ty} {value : Value} (hty : token.kind.literalType? = some ty)
      (hvalue : Value.ofText? token.text ty = some value) : Shaped (.leaf token)
  | unary {token : Token} {operand : Expr} (hoperand : Shaped operand) :
      Shaped (.unary .not token operand)
  | binary {op : Operator} {token : Token} {left right : Expr} (hop : op ≠ .not)
      (hleft : Shaped left) (hright : Shaped right) : Shaped (.binary op token left right)

/-- The tree of a chain has the shape if its operands have it and no operator of
the chain is the negation. -/
theorem Resolves.shaped {first expr : Expr} {links : List Link}
    (hresolves : Resolves first links expr) (hfirst : first.Shaped)
    (hlinks : ∀ link ∈ links, link.operator ≠ .not ∧ link.operand.Shaped) : expr.Shaped := by
  induction hresolves with
  | operand first => exact hfirst
  | @root first left right before after link _ _ _ _ ihleft ihright =>
    have hlink : link.operator ≠ .not ∧ link.operand.Shaped := hlinks link (by simp)
    refine .binary hlink.1 (ihleft hfirst ?_) (ihright hlink.2 ?_)
    · intro other hother
      exact hlinks other (List.mem_append_left _ hother)
    · intro other hother
      exact hlinks other (List.mem_append_right _ (List.mem_cons_of_mem link hother))

/-- A token that can be an operand is a leaf of this shape. -/
theorem shaped_leaf {token : Token} (hoperand : token.isOperand = true)
    (hscanned : token.Scanned) : (Expr.leaf token).Shaped := by
  rw [Token.isOperand, Bool.or_eq_true] at hoperand
  rcases hoperand with hname | hliteral
  · exact .identifier (beq_iff_eq.1 hname)
  · rw [← TokenKind.isSome_literalType?] at hliteral
    rcases Option.isSome_iff_exists.1 hliteral with ⟨ty, hty⟩
    rcases hscanned.literal hty with ⟨value, hvalue⟩
    exact .literal hty hvalue

mutual

/-- The tree of a term has the shape. -/
theorem IsTerm.shaped {tokens : List Token} {expr : Expr} :
    IsTerm tokens expr → (∀ token ∈ tokens, token.Scanned) → expr.Shaped
  | .operand hoperand, hscanned => shaped_leaf hoperand (hscanned _ (by simp))
  | .prefixed hkind hop hterm, hscanned => by
    have hnot := (hscanned _ List.mem_cons_self).unary hkind
    rw [hop] at hnot
    cases hnot
    exact .unary (hterm.shaped fun token htoken => hscanned token (List.mem_cons_of_mem _ htoken))
  | .group _ _ hchain hresolves, hscanned => by
    have hparts := hchain.shaped fun token htoken => hscanned token (by simp [htoken])
    exact hresolves.shaped hparts.1 hparts.2

/-- The operands of a chain have the shape, and none of its operators is the
negation. -/
theorem IsChain.shaped {tokens : List Token} {first : Expr} {links : List Link} :
    IsChain tokens first links → (∀ token ∈ tokens, token.Scanned) →
      first.Shaped ∧ ∀ link ∈ links, link.operator ≠ .not ∧ link.operand.Shaped
  | .single hterm, hscanned => ⟨hterm.shaped hscanned, by simp⟩
  | .link hkind hop hterm hchain, hscanned => by
    rcases (hscanned _ (by simp)).binary hkind with ⟨other, hother, hnot⟩
    rw [hop] at hother
    cases hother
    have hrest := hchain.shaped fun token htoken => hscanned token (by simp [htoken])
    refine ⟨hterm.shaped fun token htoken => hscanned token (by simp [htoken]), ?_⟩
    intro link hlink
    rcases List.mem_cons.1 hlink with rfl | hlink
    · exact ⟨hnot, hrest.1⟩
    · exact hrest.2 link hlink

end

/-- A reference tree has the shape. -/
theorem IsExpression.shaped {tokens : List Token} {expr : Expr}
    (hexpr : IsExpression tokens expr) (hscanned : ∀ token ∈ tokens, token.Scanned) :
    expr.Shaped := by
  rcases hexpr with ⟨first, links, hchain, hresolves⟩
  have hparts := hchain.shaped hscanned
  exact hresolves.shaped hparts.1 hparts.2

end Expr

/-! ## All expressions of a program -/

mutual

/-- All expressions of a statement, at any depth, have the property. -/
def Stmt.All (p : Expr → Prop) : Stmt → Prop
  | .declare _ _ _ initial => ∀ value, initial = some value → p value
  | .assign _ value => p value
  | .loop _ first last body => p first ∧ p last ∧ Program.All p body
  | .print value => p value
  | .read _ => True
  | .assert _ condition _ => p condition

/-- All expressions of a list of statements have the property. -/
def Program.All (p : Expr → Prop) : List Stmt → Prop
  | [] => True
  | stmt :: rest => stmt.All p ∧ Program.All p rest

end

namespace Grammar

mutual

/-- The expressions of a statement have the shape. -/
theorem IsStatement.shaped {source : String} {tokens : List Token} {stmt : Stmt} :
    IsStatement source tokens stmt → (∀ token ∈ tokens, token.Scanned) → stmt.All Expr.Shaped
  | .declaration _ _ _ _, _ => by
    unfold Stmt.All
    intro value hvalue
    cases hvalue
  | .initialised _ _ _ _ _ hvalue, hscanned => by
    unfold Stmt.All
    intro value hsome
    cases hsome
    exact hvalue.shaped fun token htoken => hscanned token (by simp [htoken])
  | .assignment _ _ hvalue, hscanned => by
    unfold Stmt.All
    exact hvalue.shaped fun token htoken => hscanned token (by simp [htoken])
  | .loop _ _ _ hfirst _ hlast _ hbody _ _, hscanned => by
    unfold Stmt.All
    refine ⟨?_, ?_, ?_⟩
    · exact hfirst.shaped fun token htoken => hscanned token (by simp [htoken])
    · exact hlast.shaped fun token htoken => hscanned token (by simp [htoken])
    · exact hbody.shaped fun token htoken => hscanned token (by simp [htoken])
  | .read _ _, _ => by
    unfold Stmt.All
    trivial
  | .print _ hvalue, hscanned => by
    unfold Stmt.All
    exact hvalue.shaped fun token htoken => hscanned token (by simp [htoken])
  | .assertion _ _ hcondition _, hscanned => by
    unfold Stmt.All
    exact hcondition.shaped fun token htoken => hscanned token (by simp [htoken])

/-- The expressions of a program have the shape. -/
theorem IsProgram.shaped {source : String} {tokens : List Token} {program : Program} :
    IsProgram source tokens program → (∀ token ∈ tokens, token.Scanned) →
      Program.All Expr.Shaped program
  | .empty, _ => by
    unfold Program.All
    trivial
  | .last hstmt, hscanned => by
    unfold Program.All Program.All
    exact ⟨hstmt.shaped hscanned, trivial⟩
  | .separated hstmt _ hrest, hscanned => by
    unfold Program.All
    constructor
    · exact hstmt.shaped fun token htoken => hscanned token (by simp [htoken])
    · exact hrest.shaped fun token htoken => hscanned token (by simp [htoken])

end

end Grammar

end LoopLang
