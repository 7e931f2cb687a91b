import LoopLang.Expr.Precedence
import LoopLang.Proofs.Grammar.Derivation

/-!
# Reference trees

The tree that a token list of the grammar stands for, said without reading it in
any order.  A chain of operands is split at the rightmost one of its operators
with the lowest precedence; the two halves are split in the same way.  A prefix
operator belongs to the operand after it, whatever its precedence, and a
bracketed group is an operand.

Main definitions:

- `Expr.Resolves`: the tree of a chain whose operands are trees.
- `Expr.IsTerm`, `Expr.IsChain`, `Expr.IsExpression`: the tokens of a term, of a
  chain and of an expression, with their trees.

Main results:

- Theorem `Expr.exists_resolves`: every chain has a tree.
- Theorem `Expr.exists_isExpression`: tokens that derive from an expression have
  a reference tree if their operators are known.
- Theorem `Expr.IsExpression.derives`: the tokens of a reference tree derive
  from an expression.
-/

namespace LoopLang

namespace Expr

/-! ## Chains -/

/-- A binary operator with the operand to its right, as a member of a chain. -/
structure Link where
  operator : Operator
  /-- The token that spells the operator. -/
  token : Token
  operand : Expr
deriving DecidableEq, Repr

/-- How tightly the operator of the link binds. -/
def Link.precedence (link : Link) : Nat :=
  link.operator.precedence

/-- The tree of a chain that begins with the operand `first`.  Its root is the
rightmost operator among those of the lowest precedence. -/
inductive Resolves : Expr → List Link → Expr → Prop where
  | operand (first : Expr) : Resolves first [] first
  | root {first left right : Expr} {before after : List Link} {link : Link}
      (hbefore : ∀ other ∈ before, link.precedence ≤ other.precedence)
      (hafter : ∀ other ∈ after, link.precedence < other.precedence)
      (hleft : Resolves first before left) (hright : Resolves link.operand after right) :
      Resolves first (before ++ link :: after) (.binary link.operator link.token left right)

/-- A chain with an operator has a rightmost operator of the lowest precedence. -/
theorem exists_root (link : Link) (links : List Link) :
    ∃ before root after, link :: links = before ++ root :: after ∧
      (∀ other ∈ before, root.precedence ≤ other.precedence) ∧
      ∀ other ∈ after, root.precedence < other.precedence := by
  induction links generalizing link with
  | nil => exact ⟨[], link, [], rfl, by simp, by simp⟩
  | cons next rest ih =>
    rcases ih next with ⟨before, root, after, hsplit, hbefore, hafter⟩
    by_cases hlower : link.precedence < root.precedence
    · refine ⟨[], link, next :: rest, rfl, by simp, ?_⟩
      intro other hother
      rw [hsplit, List.mem_append, List.mem_cons] at hother
      rcases hother with hother | rfl | hother
      · exact Nat.lt_of_lt_of_le hlower (hbefore other hother)
      · exact hlower
      · exact Nat.lt_trans hlower (hafter other hother)
    · refine ⟨link :: before, root, after, by rw [hsplit, List.cons_append], ?_, hafter⟩
      intro other hother
      rcases List.mem_cons.1 hother with rfl | hother
      · exact Nat.le_of_not_lt hlower
      · exact hbefore other hother

/-- Every chain has a tree. -/
theorem exists_resolves (first : Expr) (links : List Link) :
    ∃ expr, Resolves first links expr := by
  induction hlength : links.length using Nat.strongRecOn generalizing first links with
  | _ length ih =>
    cases links with
    | nil => exact ⟨first, .operand first⟩
    | cons link links =>
      rcases exists_root link links with ⟨before, root, after, hsplit, hbefore, hafter⟩
      have hsum : before.length + (after.length + 1) = length := by
        rw [← hlength, hsplit, List.length_append, List.length_cons]
      rcases ih before.length (by omega) first before rfl with ⟨left, hleft⟩
      rcases ih after.length (by omega) root.operand after rfl with ⟨right, hright⟩
      rw [hsplit]
      exact ⟨_, .root hbefore hafter hleft hright⟩

/-! ## Tokens with their trees -/

mutual

/-- The tokens of a term and its tree. -/
inductive IsTerm : List Token → Expr → Prop where
  | operand {token : Token} (hoperand : token.isOperand = true) : IsTerm [token] (.leaf token)
  | prefixed {token : Token} {op : Operator} {tokens : List Token} {expr : Expr}
      (hkind : token.kind = .unaryOperator) (hop : token.operator? = some op)
      (hterm : IsTerm tokens expr) : IsTerm (token :: tokens) (.unary op token expr)
  | group {opening closing : Token} {tokens : List Token} {first expr : Expr} {links : List Link}
      (hopening : opening.kind = .leftBracket) (hclosing : closing.kind = .rightBracket)
      (hchain : IsChain tokens first links) (hresolves : Resolves first links expr) :
      IsTerm (opening :: (tokens ++ [closing])) expr

/-- The tokens of a chain, the tree of its first operand, and its links. -/
inductive IsChain : List Token → Expr → List Link → Prop where
  | single {tokens : List Token} {expr : Expr} (hterm : IsTerm tokens expr) :
      IsChain tokens expr []
  | link {token : Token} {op : Operator} {tokens rest : List Token} {first second : Expr}
      {links : List Link} (hkind : token.kind = .binaryOperator)
      (hop : token.operator? = some op) (hterm : IsTerm tokens first)
      (hchain : IsChain rest second links) :
      IsChain (tokens ++ token :: rest) first (⟨op, token, second⟩ :: links)

end

/-- The tokens of an expression and its reference tree. -/
def IsExpression (tokens : List Token) (expr : Expr) : Prop :=
  ∃ first links, IsChain tokens first links ∧ Resolves first links expr

mutual

theorem IsTerm.ne_nil {tokens : List Token} {expr : Expr} : IsTerm tokens expr → tokens ≠ []
  | .operand _ => by simp
  | .prefixed _ _ _ => by simp
  | .group _ _ _ _ => by simp

theorem IsChain.ne_nil {tokens : List Token} {first : Expr} {links : List Link} :
    IsChain tokens first links → tokens ≠ []
  | .single hterm => hterm.ne_nil
  | .link _ _ _ _ => by simp

end

/-- An expression has at least one token. -/
theorem IsExpression.ne_nil {tokens : List Token} {expr : Expr}
    (hexpr : IsExpression tokens expr) : tokens ≠ [] := by
  rcases hexpr with ⟨first, links, hchain, -⟩
  exact hchain.ne_nil

/-! ## Reference trees and derivations -/

mutual

/-- The tokens of a term derive from a term. -/
theorem IsTerm.derives {tokens : List Token} {expr : Expr} :
    IsTerm tokens expr → Grammar.Derives .term (tokens.map Token.kind)
  | .operand hoperand => by
    rcases Bool.or_eq_true_iff.1 hoperand with hname | hliteral
    · have hkind := eq_of_beq hname
      rw [List.map_singleton, hkind]
      exact .bare .identifier
    · exact .bare (.literal hliteral)
  | .prefixed hkind _ hterm => by
    rw [List.map_cons, hkind]
    exact .prefixed hterm.derives
  | .group hopening hclosing hchain _ => by
    rw [List.map_cons, List.map_append, List.map_singleton, hopening, hclosing]
    exact .bare (.group hchain.derives)

/-- The tokens of a chain derive from an expression. -/
theorem IsChain.derives {tokens : List Token} {first : Expr} {links : List Link} :
    IsChain tokens first links → Grammar.Derives .expression (tokens.map Token.kind)
  | .single hterm => .single hterm.derives
  | .link hkind _ hterm hchain => by
    rw [List.map_append, List.map_cons, hkind]
    exact .chain hterm.derives hchain.derives

end

/-- The tokens of a reference tree derive from an expression. -/
theorem IsExpression.derives {tokens : List Token} {expr : Expr}
    (hexpr : IsExpression tokens expr) : Grammar.Derives .expression (tokens.map Token.kind) := by
  rcases hexpr with ⟨first, links, hchain, -⟩
  exact hchain.derives

/-- What a phrase inside an expression has to give for its tokens. -/
def HasTree (tokens : List Token) : Grammar.Phrase → Prop
  | .expression => ∃ first links, IsChain tokens first links
  | .term | .operand => ∃ expr, IsTerm tokens expr
  | .statements | .statement => True

end Expr

/-- A token that is no operator, or spells one of the operators. -/
def Token.Known (token : Token) : Prop :=
  token.kind = .binaryOperator ∨ token.kind = .unaryOperator → token.operator?.isSome = true

instance (token : Token) : Decidable token.Known :=
  inferInstanceAs (Decidable (_ ∨ _ → _))

namespace Expr

/-- Tokens that derive from a phrase inside an expression have a tree if their
operators are known. -/
theorem hasTree_of_derives {phrase : Grammar.Phrase} {kinds : List TokenKind}
    (hderives : Grammar.Derives phrase kinds) {tokens : List Token}
    (hkinds : tokens.map Token.kind = kinds) (hknown : ∀ token ∈ tokens, token.Known) :
    HasTree tokens phrase := by
  induction hderives generalizing tokens with
  | single hterm ih =>
    rcases ih hkinds hknown with ⟨expr, hexpr⟩
    exact ⟨expr, [], .single hexpr⟩
  | chain hterm hrest ihterm ihrest =>
    rcases List.map_eq_append_iff.1 hkinds with ⟨front, others, rfl, hfront, hothers⟩
    rcases List.map_eq_cons_iff.1 hothers with ⟨token, rest, rfl, htoken, hrest⟩
    obtain ⟨first, hfirst⟩ := ihterm hfront fun t ht => hknown t (by simp [ht])
    obtain ⟨second, links, hchain⟩ := ihrest hrest fun t ht => hknown t (by simp [ht])
    rcases Option.isSome_iff_exists.1 (hknown token (by simp) (.inl htoken)) with ⟨op, hop⟩
    exact ⟨first, _, .link htoken hop hfirst hchain⟩
  | bare hoperand ih => exact ih hkinds hknown
  | prefixed hterm ih =>
    rcases List.map_eq_cons_iff.1 hkinds with ⟨token, rest, rfl, htoken, hrest⟩
    obtain ⟨expr, hexpr⟩ := ih hrest fun t ht => hknown t (by simp [ht])
    rcases Option.isSome_iff_exists.1 (hknown token (by simp) (.inr htoken)) with ⟨op, hop⟩
    exact ⟨_, .prefixed htoken hop hexpr⟩
  | literal hkind =>
    rcases List.map_eq_singleton_iff.1 hkinds with ⟨token, rfl, rfl⟩
    exact ⟨_, .operand (Bool.or_eq_true_iff.2 (.inr hkind))⟩
  | identifier =>
    rcases List.map_eq_singleton_iff.1 hkinds with ⟨token, rfl, htoken⟩
    exact ⟨_, .operand (Bool.or_eq_true_iff.2 (.inl (beq_iff_eq.2 htoken)))⟩
  | group hinner ih =>
    rcases List.map_eq_cons_iff.1 hkinds with ⟨opening, others, rfl, hopening, hothers⟩
    rcases List.map_eq_append_iff.1 hothers with ⟨inner, last, rfl, hinside, hlast⟩
    rcases List.map_eq_singleton_iff.1 hlast with ⟨closing, rfl, hclosing⟩
    obtain ⟨first, links, hchain⟩ := ih hinside fun t ht => hknown t (by simp [ht])
    rcases exists_resolves first links with ⟨expr, hresolves⟩
    exact ⟨expr, .group hopening hclosing hchain hresolves⟩
  | empty | last | separated | declaration | initialised | assignment | loop | read | print
  | assertion => trivial

/-- Tokens that derive from an expression have a reference tree if their
operators are known. -/
theorem exists_isExpression {tokens : List Token}
    (hderives : Grammar.Derives .expression (tokens.map Token.kind))
    (hknown : ∀ token ∈ tokens, token.Known) : ∃ expr, IsExpression tokens expr := by
  rcases hasTree_of_derives hderives rfl hknown with ⟨first, links, hchain⟩
  rcases exists_resolves first links with ⟨expr, hresolves⟩
  exact ⟨expr, first, links, hchain, hresolves⟩

end Expr

end LoopLang
