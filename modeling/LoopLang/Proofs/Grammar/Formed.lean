import LoopLang.Proofs.Expr.Precedence
import LoopLang.Stmt

/-!
# Well-formed trees

The tokens of a tree, and what the tree takes for granted about them.  A tree
keeps the tokens that carry its meaning: names, literals, operators, types and
the word that an assertion is placed at.

Main definitions:

- `Expr.tokens`, `Stmt.tokens`, `Program.tokens`: the tokens of a tree in the
  order of the source.
- `Stmt.Formed`, `Program.Formed`: every token is of the category that its place
  in the tree asks for.
- `Expr.MadeOf`, `Program.MadeOf`: a well-formed tree of some of the given
  tokens, in their order.

Main results:

- Theorem `Expr.IsExpression.madeOf`: a reference tree is made of its tokens.
-/

namespace LoopLang

/-! ## Tokens -/

/-- The tokens of an expression in the order of the source. -/
def Expr.tokens : Expr → List Token
  | leaf token => [token]
  | unary _ token operand => token :: operand.tokens
  | binary _ token left right => left.tokens ++ token :: right.tokens

mutual

/-- The tokens of a statement in the order of the source. -/
def Stmt.tokens : Stmt → List Token
  | .declare name typeToken _ none => [name, typeToken]
  | .declare name typeToken _ (some value) => name :: typeToken :: value.tokens
  | .assign name value => name :: value.tokens
  | .loop counter first last body =>
    counter :: (first.tokens ++ (last.tokens ++ Program.tokens body))
  | .print value => value.tokens
  | .read name => [name]
  | .assert keyword condition _ => keyword :: condition.tokens

/-- The tokens of a list of statements in the order of the source. -/
def Program.tokens : List Stmt → List Token
  | [] => []
  | stmt :: rest => stmt.tokens ++ Program.tokens rest

end

theorem Program.tokens_append (front rest : Program) :
    Program.tokens (front ++ rest) = Program.tokens front ++ Program.tokens rest := by
  induction front with
  | nil => simp [Program.tokens]
  | cons stmt front ih => simp [Program.tokens, ih]

/-! ## Categories -/

mutual

/-- The tokens of a statement are of the categories that their places ask for. -/
def Stmt.Formed : Stmt → Prop
  | .declare name typeToken ty initial =>
    name.kind = .identifier ∧ typeToken.kind.namedType? = some ty ∧
      ∀ value, initial = some value → value.Spelled
  | .assign name value => name.kind = .identifier ∧ value.Spelled
  | .loop counter first last body =>
    counter.kind = .identifier ∧ first.Spelled ∧ last.Spelled ∧ Program.Formed body
  | .print value => value.Spelled
  | .read name => name.kind = .identifier
  | .assert keyword condition _ => keyword.kind = .assertKeyword ∧ condition.Spelled

/-- The tokens of all statements of a list are of these categories. -/
def Program.Formed : List Stmt → Prop
  | [] => True
  | stmt :: rest => stmt.Formed ∧ Program.Formed rest

end

/-- A list is well formed exactly if both of its parts are. -/
theorem Program.formed_append {front rest : Program} :
    Program.Formed (front ++ rest) ↔ Program.Formed front ∧ Program.Formed rest := by
  induction front with
  | nil => simp [Program.Formed]
  | cons stmt front ih => simp [Program.Formed, ih, and_assoc]

/-! ## Trees of some tokens -/

/-- A well-formed expression of some of the tokens. -/
structure Expr.MadeOf (tokens : List Token) (expr : Expr) : Prop where
  spelled : expr.Spelled
  sublist : expr.tokens.Sublist tokens

/-- A well-formed statement of some of the tokens. -/
structure Stmt.MadeOf (tokens : List Token) (stmt : Stmt) : Prop where
  formed : stmt.Formed
  sublist : stmt.tokens.Sublist tokens

/-- Well-formed statements of some of the tokens. -/
structure Program.MadeOf (tokens : List Token) (program : Program) : Prop where
  formed : Program.Formed program
  sublist : (Program.tokens program).Sublist tokens

theorem Program.madeOf_nil (tokens : List Token) : Program.MadeOf tokens [] := by
  refine ⟨by simp [Program.Formed], ?_⟩
  simp [Program.tokens]

/-- A statement that is made of the tokens, as a list. -/
theorem Program.madeOf_singleton {tokens : List Token} {stmt : Stmt}
    (hstmt : stmt.MadeOf tokens) : Program.MadeOf tokens [stmt] := by
  constructor
  · simpa [Program.Formed] using hstmt.formed
  · simpa [Program.tokens] using hstmt.sublist

/-- Statements of some tokens and statements of the tokens after them. -/
theorem Program.MadeOf.append {tokens more : List Token} {front rest : Program}
    (hfront : Program.MadeOf tokens front) (hrest : Program.MadeOf more rest) :
    Program.MadeOf (tokens ++ more) (front ++ rest) := by
  constructor
  · exact Program.formed_append.2 ⟨hfront.formed, hrest.formed⟩
  · rw [Program.tokens_append]
    exact hfront.sublist.append hrest.sublist

/-- Programs made of some tokens are made of any longer row of them. -/
theorem Program.MadeOf.mono {tokens more : List Token} {program : Program}
    (hprogram : Program.MadeOf tokens program) (hsub : tokens.Sublist more) :
    Program.MadeOf more program :=
  ⟨hprogram.formed, hprogram.sublist.trans hsub⟩

/-! ## Reference trees -/

namespace Expr

/-- The tokens of the links of a chain. -/
def linkTokens (links : List Link) : List Token :=
  links.flatMap fun link => link.token :: link.operand.tokens

/-- The tree of a chain has the tokens of the chain. -/
theorem Resolves.tokens_eq {first expr : Expr} {links : List Link}
    (hresolves : Resolves first links expr) : expr.tokens = first.tokens ++ linkTokens links := by
  induction hresolves with
  | operand first => simp [linkTokens]
  | root _ _ _ _ ihleft ihright => simp [linkTokens, tokens, ihleft, ihright]

mutual

/-- The tokens of a term are those of its tree and brackets. -/
theorem IsTerm.tokens_sublist {tokens : List Token} {expr : Expr} :
    IsTerm tokens expr → expr.tokens.Sublist tokens
  | .operand _ => List.Sublist.refl _
  | .prefixed _ _ hterm => hterm.tokens_sublist.cons_cons _
  | .group _ _ hchain hresolves => by
    rw [hresolves.tokens_eq]
    exact (hchain.tokens_sublist.trans (List.sublist_append_left _ _)).cons _

/-- The tokens of a chain are those of its operands and links, and brackets. -/
theorem IsChain.tokens_sublist {tokens : List Token} {first : Expr} {links : List Link} :
    IsChain tokens first links → (first.tokens ++ linkTokens links).Sublist tokens
  | .single hterm => by
    simpa [linkTokens] using hterm.tokens_sublist
  | .link _ _ hterm hchain => by
    have hrest := hchain.tokens_sublist
    simpa [linkTokens] using hterm.tokens_sublist.append (hrest.cons_cons _)

end

/-- A reference tree is made of its tokens. -/
theorem IsExpression.madeOf {tokens : List Token} {expr : Expr}
    (hexpr : IsExpression tokens expr) : expr.MadeOf tokens := by
  rcases hexpr with ⟨first, links, hchain, hresolves⟩
  constructor
  · exact hresolves.spelled hchain.spelled.1 hchain.spelled.2
  · rw [hresolves.tokens_eq]
    exact hchain.tokens_sublist

end Expr

end LoopLang
