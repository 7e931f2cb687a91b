import LoopLang.Proofs.Expr.Shape
import LoopLang.Proofs.Grammar.Recovery
import LoopLang.Proofs.Token.Spans

/-!
# Recovered trees

However broken a source is, the tree that is read from it is made of its tokens:
each stands where its category belongs, and in the order of the source.

Main definitions:

- `Expr.WellFormed`: every node of an expression has a token that fits it.

Main results:

- Theorem `Program.Formed.wellFormed`: the expressions of a program that is made
  of tokens of a source are well formed.
- Theorem `Grammar.ofStream_tree_wellFormed`: so is the tree of every source, and
  its tokens come in the order of the source.
-/

namespace LoopLang

namespace Expr

/-- Leaves are names and literals, and the token of an operator spells it.  The
negation is the operator of the nodes with one operand, and of no other. -/
def WellFormed : Expr → Prop
  | leaf token => token.kind = .identifier ∨ token.kind.isLiteral = true
  | unary op token operand =>
    op = .not ∧ token.kind = .unaryOperator ∧ token.text = op.lexeme ∧ operand.WellFormed
  | binary op token left right =>
    op ≠ .not ∧ token.kind = .binaryOperator ∧ token.text = op.lexeme ∧ left.WellFormed ∧
      right.WellFormed

/-- An expression that agrees with its tokens is well formed if these come from a
source. -/
theorem Spelled.wellFormed {expr : Expr} (hspelled : expr.Spelled)
    (hscanned : ∀ token ∈ expr.tokens, token.Scanned) : expr.WellFormed := by
  induction expr with
  | leaf token =>
    rcases Bool.or_eq_true_iff.1 hspelled with hname | hliteral
    · exact .inl (beq_iff_eq.1 hname)
    · exact .inr hliteral
  | unary op token operand ih =>
    rcases hspelled with ⟨hkind, hop, hoperand⟩
    have hnot : op = .not := by
      have hunary := (hscanned token (by simp [tokens])).unary hkind
      rw [hop] at hunary
      exact Option.some.inj hunary
    have hmore : ∀ other ∈ operand.tokens, other.Scanned :=
      fun other hother => hscanned other (by simp [tokens, hother])
    exact ⟨hnot, hkind, (Token.lexeme_of_operator? hop).symm, ih hoperand hmore⟩
  | binary op token left right ihleft ihright =>
    rcases hspelled with ⟨hkind, hop, hleft, hright⟩
    have hnot : op ≠ .not := by
      rcases (hscanned token (by simp [tokens])).binary hkind with ⟨other, hother, hnot⟩
      rw [hop] at hother
      rwa [Option.some.inj hother]
    have hleftTokens : ∀ other ∈ left.tokens, other.Scanned :=
      fun other hother => hscanned other (by simp [tokens, hother])
    have hrightTokens : ∀ other ∈ right.tokens, other.Scanned :=
      fun other hother => hscanned other (by simp [tokens, hother])
    exact ⟨hnot, hkind, (Token.lexeme_of_operator? hop).symm, ihleft hleft hleftTokens,
      ihright hright hrightTokens⟩

end Expr

mutual

/-- The expressions of a statement of tokens of a source are well formed. -/
theorem Stmt.Formed.wellFormed : {stmt : Stmt} → stmt.Formed →
    (∀ token ∈ stmt.tokens, token.Scanned) → stmt.All Expr.WellFormed
  | .declare name typeToken _ initial, hformed, hscanned => by
    unfold Stmt.All
    rintro value rfl
    exact (hformed.2.2 value rfl).wellFormed fun token htoken =>
      hscanned token (by simp [Stmt.tokens, htoken])
  | .assign _ _, hformed, hscanned =>
    hformed.2.wellFormed fun token htoken => hscanned token (by simp [Stmt.tokens, htoken])
  | .loop _ _ _ _, hformed, hscanned => by
    rcases hformed with ⟨-, hfirst, hlast, hbody⟩
    refine ⟨?_, ?_, ?_⟩
    · exact hfirst.wellFormed fun token htoken =>
        hscanned token (by simp [Stmt.tokens, htoken])
    · exact hlast.wellFormed fun token htoken =>
        hscanned token (by simp [Stmt.tokens, htoken])
    · exact Program.Formed.wellFormed hbody fun token htoken =>
        hscanned token (by simp [Stmt.tokens, htoken])
  | .print value, hformed, hscanned => by
    have hspelled : value.Spelled := hformed
    exact hspelled.wellFormed hscanned
  | .read _, _, _ => trivial
  | .assert _ _ _, hformed, hscanned =>
    hformed.2.wellFormed fun token htoken => hscanned token (by simp [Stmt.tokens, htoken])

/-- The expressions of a program of tokens of a source are well formed. -/
theorem Program.Formed.wellFormed : {program : List Stmt} → Program.Formed program →
    (∀ token ∈ Program.tokens program, token.Scanned) → Program.All Expr.WellFormed program
  | [], _, _ => trivial
  | _ :: _, hformed, hscanned =>
    ⟨Stmt.Formed.wellFormed hformed.1 fun token htoken =>
        hscanned token (by simp [Program.tokens, htoken]),
      Program.Formed.wellFormed hformed.2 fun token htoken =>
        hscanned token (by simp [Program.tokens, htoken])⟩

end

namespace Grammar

/-- Every source is read as a tree that is well formed, however many mistakes
there are.  Names are identifiers, a declaration has the type that its type token
names, and no token marks an end or an absence.  The tokens of the tree are tokens
of the source in their order, and none occurs twice. -/
theorem ofStream_tree_wellFormed (source : String) :
    ∃ program mistakes, Program.ofStream (.ofSource source) = .ok (program, mistakes) ∧
      Program.Formed program ∧ Program.All Expr.WellFormed program ∧
      (∀ token ∈ Program.tokens program,
        token.kind ≠ .endOfFile ∧ token.kind ≠ .missing) ∧
      (Program.tokens program).Sublist (TokenStream.ofSource source).pending ∧
      ((Program.tokens program).Pairwise fun token later => token.start < later.start) ∧
      (Program.tokens program).Nodup := by
  rcases exists_ofStream_madeOf source with ⟨program, mistakes, hread, hformed, hsublist⟩
  have hscanned : ∀ token ∈ Program.tokens program, token.Scanned := by
    intro token htoken
    exact TokenStream.scanned_ofSource source token (hsublist.subset htoken)
  have hordered : (Program.tokens program).Pairwise fun token later =>
      token.start < later.start := by
    refine List.Pairwise.imp_of_mem ?_ ((TokenStream.pairwise_pending source).sublist hsublist)
    intro token later htoken _ hstop
    exact Nat.lt_of_lt_of_le
      (TokenStream.start_lt_stop_of_mem_pending (hsublist.subset htoken)) hstop
  have hdistinct : (Program.tokens program).Nodup := by
    refine hordered.imp ?_
    rintro token later hbefore rfl
    exact Nat.lt_irrefl _ hbefore
  refine ⟨program, mistakes, hread, hformed, hformed.wellFormed hscanned, ?_, hsublist, hordered,
    hdistinct⟩
  intro token htoken
  exact ⟨(hscanned token htoken).not_endOfFile, (hscanned token htoken).not_missing⟩

end Grammar

end LoopLang
