import LoopLang.Proofs.Grammar.Completeness
import LoopLang.Proofs.Grammar.Printing
import LoopLang.Proofs.Grammar.Recovery

/-!
# Printing and reading again

The tokens of a printed tree have the tree they were printed from, up to places
and quotations: every compound operand is printed between brackets, so no
operator takes an operand of another.  With the scanning of printed texts this
makes printing and reading again the identity on all programs that reading gives,
also on those of a source with mistakes.

Main results:

- Theorem `Expr.exists_isExpression_of_printed`: the tokens of a printed
  expression have its tree.
- Theorem `Grammar.exists_isProgram_of_printed`: the tokens of a printed program
  have its trees.
- Theorem `Grammar.ofStream_text`: a program is read again from its printed form.
-/

namespace LoopLang

namespace Token

variable {token other : Token}

/-- A token that is a given one up to its place has its category. -/
theorem kind_of_unplaced {kind : TokenKind} {text : String}
    (htoken : token.unplaced = .bare kind text) : token.kind = kind :=
  congrArg Token.kind htoken

theorem kind_eq_of_unplaced (hsame : token.unplaced = other.unplaced) : token.kind = other.kind :=
  (unplaced_eq_iff.1 hsame).1

theorem isOperand_eq_of_unplaced (hsame : token.unplaced = other.unplaced) :
    token.isOperand = other.isOperand := by
  rw [isOperand, isOperand, kind_eq_of_unplaced hsame]

/-- Tokens that differ only in their places spell the same operator. -/
theorem operator?_eq_of_unplaced (hsame : token.unplaced = other.unplaced) :
    token.operator? = other.operator? := by
  rcases unplaced_eq_iff.1 hsame with ⟨hkind, htext⟩
  rw [operator?, operator?, hkind, htext]

end Token

/-! ## Expressions -/

namespace Expr

/-- The token of a printed leaf is a term of its tree. -/
theorem exists_isTerm_of_leaf {token : Token} (hoperand : token.isOperand = true)
    {tokens : List Token} (htokens : tokens.map Token.unplaced = [token.unplaced]) :
    ∃ again, IsTerm tokens again ∧ again.unplaced = .leaf token.unplaced := by
  rcases List.map_eq_singleton_iff.1 htokens with ⟨other, rfl, hother⟩
  exact ⟨.leaf other, .operand ((Token.isOperand_eq_of_unplaced hother).trans hoperand),
    congrArg leaf hother⟩

/-- The tokens of a printed operand are a term of its tree, if those of the printed
expression have the tree. -/
theorem exists_isTerm_of_bracketed {operand : Expr} (hspelled : operand.Spelled)
    (htree : ∀ {tokens : List Token}, tokens.map Token.unplaced = operand.printed →
      ∃ again, IsExpression tokens again ∧ again.unplaced = operand.unplaced)
    {tokens : List Token}
    (htokens : tokens.map Token.unplaced = operand.bracketed operand.printed) :
    ∃ again, IsTerm tokens again ∧ again.unplaced = operand.unplaced := by
  cases operand with
  | leaf token => exact exists_isTerm_of_leaf hspelled htokens
  | unary | binary =>
    rcases List.map_eq_cons_iff.1 htokens with ⟨opening, more, rfl, hopening, hmore⟩
    rcases List.map_eq_append_iff.1 hmore with ⟨inner, closing, rfl, hinner, hlast⟩
    rcases List.map_eq_singleton_iff.1 hlast with ⟨closing, rfl, hclosing⟩
    rcases htree hinner with ⟨again, ⟨first, links, hchain, hresolves⟩, hsame⟩
    exact ⟨again, .group (Token.kind_of_unplaced hopening) (Token.kind_of_unplaced hclosing)
      hchain hresolves, hsame⟩

/-- A term by itself is an expression. -/
theorem IsTerm.isExpression {tokens : List Token} {expr : Expr} (hterm : IsTerm tokens expr) :
    IsExpression tokens expr :=
  ⟨expr, [], .single hterm, .operand expr⟩

/-- Two terms with an operator between them are an expression. -/
theorem IsTerm.isExpression_binary {token : Token} {op : Operator} {tokens others : List Token}
    {left right : Expr} (hleft : IsTerm tokens left) (hkind : token.kind = .binaryOperator)
    (hop : token.operator? = some op) (hright : IsTerm others right) :
    IsExpression (tokens ++ token :: others) (.binary op token left right) := by
  refine ⟨left, [⟨op, token, right⟩], .link hkind hop hleft (.single hright), ?_⟩
  exact .root (by simp) (by simp) (.operand left) (.operand right)

/-- The tokens of a printed expression have its tree. -/
theorem exists_isExpression_of_printed {expr : Expr} (hspelled : expr.Spelled)
    {tokens : List Token} (htokens : tokens.map Token.unplaced = expr.printed) :
    ∃ again, IsExpression tokens again ∧ again.unplaced = expr.unplaced := by
  induction expr generalizing tokens with
  | leaf token =>
    rcases exists_isTerm_of_leaf hspelled htokens with ⟨again, hterm, hsame⟩
    exact ⟨again, hterm.isExpression, hsame⟩
  | unary op token operand ih =>
    rcases hspelled with ⟨hkind, hop, hoperand⟩
    rcases List.map_eq_cons_iff.1 htokens with ⟨other, more, rfl, hother, hmore⟩
    rcases exists_isTerm_of_bracketed hoperand (ih hoperand) hmore with ⟨again, hterm, hsame⟩
    have hterm : IsTerm (other :: more) (.unary op other again) :=
      .prefixed ((Token.kind_eq_of_unplaced hother).trans hkind)
        ((Token.operator?_eq_of_unplaced hother).trans hop) hterm
    refine ⟨.unary op other again, hterm.isExpression, ?_⟩
    rw [unplaced, unplaced, hother, hsame]
  | binary op token left right ihleft ihright =>
    rcases hspelled with ⟨hkind, hop, hleft, hright⟩
    rcases List.map_eq_append_iff.1 htokens with ⟨front, more, rfl, hfront, hmore⟩
    rcases List.map_eq_cons_iff.1 hmore with ⟨other, back, rfl, hother, hback⟩
    rcases exists_isTerm_of_bracketed hleft (ihleft hleft) hfront with ⟨first, htermLeft, hfirst⟩
    rcases exists_isTerm_of_bracketed hright (ihright hright) hback
      with ⟨second, htermRight, hsecond⟩
    refine ⟨.binary op other first second, htermLeft.isExpression_binary
      ((Token.kind_eq_of_unplaced hother).trans hkind)
      ((Token.operator?_eq_of_unplaced hother).trans hop) htermRight, ?_⟩
    rw [unplaced, unplaced, hother, hfirst, hsecond]

end Expr

/-! ## Statements -/

namespace Grammar

open Token (kind_of_unplaced kind_eq_of_unplaced)

mutual

/-- The tokens of a printed statement have its tree. -/
theorem exists_isStatement_of_printed (source : String) : ∀ {stmt : Stmt}, stmt.Formed →
    (∀ token ∈ stmt.tokens, token.Legible) → ∀ {tokens : List Token},
      tokens.map Token.unplaced = stmt.printed →
        ∃ again, IsStatement source tokens again ∧ again.unplaced = stmt.unplaced
  | .declare name typeToken ty none, hformed, _, tokens, htokens => by
    rcases hformed with ⟨hname, hty, -⟩
    simp only [Stmt.printed, List.map_eq_cons_iff, List.map_eq_nil_iff] at htokens
    obtain ⟨keyword, _, rfl, hkeyword, other, _, rfl, hother, colon, _, rfl, hcolon,
      otherType, _, rfl, hotherType, rfl⟩ := htokens
    refine ⟨.declare other otherType ty none, .declaration (kind_of_unplaced hkeyword)
      ((kind_eq_of_unplaced hother).trans hname) (kind_of_unplaced hcolon) ?_, ?_⟩
    · rw [kind_eq_of_unplaced hotherType, hty]
    · simp [Stmt.unplaced, hother, hotherType]
  | .declare name typeToken ty (some value), hformed, _, tokens, htokens => by
    rcases hformed with ⟨hname, hty, hvalue⟩
    simp only [Stmt.printed, List.map_eq_cons_iff] at htokens
    obtain ⟨keyword, _, rfl, hkeyword, other, _, rfl, hother, colon, _, rfl, hcolon,
      otherType, _, rfl, hotherType, sign, _, rfl, hsign, hmore⟩ := htokens
    rcases Expr.exists_isExpression_of_printed (hvalue value rfl) hmore with ⟨again, hagain, hsame⟩
    refine ⟨.declare other otherType ty (some again), .initialised (kind_of_unplaced hkeyword)
      ((kind_eq_of_unplaced hother).trans hname) (kind_of_unplaced hcolon) ?_
      (kind_of_unplaced hsign) hagain, ?_⟩
    · rw [kind_eq_of_unplaced hotherType, hty]
    · simp [Stmt.unplaced, hother, hotherType, hsame]
  | .assign name value, hformed, _, tokens, htokens => by
    rcases hformed with ⟨hname, hvalue⟩
    simp only [Stmt.printed, List.map_eq_cons_iff] at htokens
    obtain ⟨other, _, rfl, hother, sign, _, rfl, hsign, hmore⟩ := htokens
    rcases Expr.exists_isExpression_of_printed hvalue hmore with ⟨again, hagain, hsame⟩
    refine ⟨.assign other again, .assignment ((kind_eq_of_unplaced hother).trans hname)
      (kind_of_unplaced hsign) hagain, ?_⟩
    simp [Stmt.unplaced, hother, hsame]
  | .loop counter first last body, hformed, hlegible, tokens, htokens => by
    rcases hformed with ⟨hcounter, hfirst, hlast, hbody⟩
    simp only [Stmt.tokens, List.forall_mem_cons, List.forall_mem_append] at hlegible
    simp only [Stmt.printed, List.map_eq_cons_iff, List.map_eq_append_iff, List.map_eq_nil_iff]
      at htokens
    obtain ⟨keyword, _, rfl, hkeyword, other, _, rfl, hother, inWord, _, rfl, hin,
      firstTokens, _, rfl, hfirstTokens, range, _, rfl, hrange,
      lastTokens, _, rfl, hlastTokens, doWord, _, rfl, hdo,
      bodyTokens, _, rfl, hbodyTokens, endWord, _, rfl, hend, forWord, _, rfl, hfor, rfl⟩ :=
      htokens
    rcases Expr.exists_isExpression_of_printed hfirst hfirstTokens
      with ⟨first', hfirst', hsameFirst⟩
    rcases Expr.exists_isExpression_of_printed hlast hlastTokens
      with ⟨last', hlast', hsameLast⟩
    rcases exists_isProgram_of_printed source hbody hlegible.2.2.2 hbodyTokens
      with ⟨body', hbody', hsameBody⟩
    refine ⟨.loop other first' last' body', .loop (kind_of_unplaced hkeyword)
      ((kind_eq_of_unplaced hother).trans hcounter) (kind_of_unplaced hin) hfirst'
      (kind_of_unplaced hrange) hlast' (kind_of_unplaced hdo) hbody' (kind_of_unplaced hend)
      (kind_of_unplaced hfor), ?_⟩
    simp [Stmt.unplaced, hother, hsameFirst, hsameLast, hsameBody]
  | .print value, hformed, _, tokens, htokens => by
    simp only [Stmt.printed, List.map_eq_cons_iff] at htokens
    obtain ⟨keyword, _, rfl, hkeyword, hmore⟩ := htokens
    rcases Expr.exists_isExpression_of_printed hformed hmore with ⟨again, hagain, hsame⟩
    refine ⟨.print again, .print (kind_of_unplaced hkeyword) hagain, ?_⟩
    simp [Stmt.unplaced, hsame]
  | .read name, hformed, _, tokens, htokens => by
    simp only [Stmt.printed, List.map_eq_cons_iff, List.map_eq_nil_iff] at htokens
    obtain ⟨keyword, _, rfl, hkeyword, other, _, rfl, hother, rfl⟩ := htokens
    refine ⟨.read other, .read (kind_of_unplaced hkeyword)
      ((kind_eq_of_unplaced hother).trans hformed), ?_⟩
    simp [Stmt.unplaced, hother]
  | .assert keyword condition quotation, hformed, hlegible, tokens, htokens => by
    rcases hformed with ⟨hkeyword, hcondition⟩
    simp only [Stmt.tokens, List.forall_mem_cons] at hlegible
    simp only [Stmt.printed, List.map_eq_cons_iff, List.map_eq_append_iff, List.map_eq_nil_iff]
      at htokens
    obtain ⟨other, _, rfl, hother, opening, _, rfl, hopening, inner, _, rfl, hinner,
      closing, _, rfl, hclosing, rfl⟩ := htokens
    have hword : keyword.unplaced = .bare .assertKeyword "assert" := by
      rw [Token.unplaced, hkeyword, hlegible.1.assertion hkeyword]
    rcases Expr.exists_isExpression_of_printed hcondition hinner with ⟨again, hagain, hsame⟩
    refine ⟨.assert other again (Grammar.quotation source inner),
      .assertion (kind_of_unplaced hother) (kind_of_unplaced hopening) hagain
        (kind_of_unplaced hclosing), ?_⟩
    simp [Stmt.unplaced, hother, hword, hsame]

/-- The tokens of a printed program have its trees. -/
theorem exists_isProgram_of_printed (source : String) : ∀ {program : List Stmt},
    Program.Formed program → (∀ token ∈ Program.tokens program, token.Legible) →
      ∀ {tokens : List Token}, tokens.map Token.unplaced = Program.printed program →
        ∃ again, IsProgram source tokens again ∧
          Program.unplaced again = Program.unplaced program
  | [], _, _, tokens, htokens => by
    rw [Program.printed, List.map_eq_nil_iff] at htokens
    exact ⟨[], htokens ▸ .empty, rfl⟩
  | stmt :: others, hformed, hlegible, tokens, htokens => by
    simp only [Program.tokens, List.forall_mem_append] at hlegible
    simp only [Program.printed, List.map_eq_cons_iff, List.map_eq_append_iff] at htokens
    obtain ⟨front, _, rfl, hfront, separator, back, rfl, hseparator, hback⟩ := htokens
    rcases exists_isStatement_of_printed source hformed.1 hlegible.1 hfront
      with ⟨first, hfirst, hsame⟩
    rcases exists_isProgram_of_printed source hformed.2 hlegible.2 hback
      with ⟨rest, hrest, hsameRest⟩
    refine ⟨first :: rest, .separated hfirst (kind_of_unplaced hseparator) hrest, ?_⟩
    rw [Program.unplaced, Program.unplaced, hsame, hsameRest]

end

/-! ## Programs -/

/-- The printed form of a program that was read from a source is read without
mistakes, as the same trees up to places and quotations. -/
theorem exists_ofStream_text {source : String} {program : Program} {mistakes : List Diagnostic}
    (hread : Program.ofStream (.ofSource source) = .ok (program, mistakes))
    (hstrings : ∀ token ∈ Program.tokens program, token.kind = .stringLiteral →
      ∀ c ∈ token.text.toList, Quoted.Faithful c) :
    (TokenStream.ofSource (Program.text program)).diagnostics = [] ∧
      ∃ again, Program.ofStream (.ofSource (Program.text program)) = .ok (again, []) ∧
        Program.unplaced again = Program.unplaced program := by
  have hmade := madeOf_of_ofStream hread
  have hlegible : ∀ token ∈ Program.tokens program, token.Legible := by
    intro token htoken
    exact Token.legible_of_mem (hmade.sublist.subset htoken) (hstrings token htoken)
  have hgives := Program.gives_text hmade.formed hlegible []
  rcases TokenStream.ofSource_of_gives hgives with ⟨hpending, hdiagnostics⟩
  obtain ⟨again, hagain, hsame⟩ :=
    exists_isProgram_of_printed (Program.text program) hmade.formed hlegible hpending
  exact ⟨hdiagnostics, again, ofStream_of_isProgram hagain, hsame⟩

/-- A program that was read from a source, with mistakes or without, is read again
from its printed form, without mistakes and up to places and quotations, if its
string literals are made of faithful characters. -/
theorem ofStream_text {source : String} {program : Program} {mistakes : List Diagnostic}
    (hread : Program.ofStream (.ofSource source) = .ok (program, mistakes))
    (hstrings : ∀ token ∈ Program.tokens program, token.kind = .stringLiteral →
      ∀ c ∈ token.text.toList, Quoted.Faithful c) :
    (TokenStream.ofSource (Program.text program)).diagnostics = [] ∧
      ∃ again, Program.ofStream (.ofSource (Program.text program)) = .ok (again, []) ∧
        Program.unplaced again = Program.unplaced program ∧
        Program.text again = Program.text program := by
  rcases exists_ofStream_text hread hstrings with ⟨hdiagnostics, again, hagain, hsame⟩
  refine ⟨hdiagnostics, again, hagain, hsame, ?_⟩
  rw [← Program.text_unplaced again, hsame, Program.text_unplaced]

/-- A source with mistakes in its characters, its declaration and its brackets,
around a loop, a string literal and a chain of operators. -/
def muddled : String :=
  "var s : string := \"a\\t\\\"b\"; var ; " ++
    "for i in 1..(n-@1) do print !(i<3)&(s=\"\") end for; assert (1+2*i = 7); print )7"

/-- Three statements are left of this source, and they are read again as they are. -/
theorem ofStream_text_muddled :
    ∃ program mistakes, Program.ofStream (.ofSource muddled) = .ok (program, mistakes) ∧
      mistakes ≠ [] ∧ program.length = 3 ∧
      ∃ again, Program.ofStream (.ofSource (Program.text program)) = .ok (again, []) ∧
        Program.unplaced again = Program.unplaced program := by
  have hany : (Program.ofStream (.ofSource muddled)).toOption.any (fun (program, mistakes) =>
      decide (mistakes ≠ [] ∧ program.length = 3 ∧
        ∀ token ∈ Program.tokens program, token.kind = .stringLiteral →
          token.text.toList.all (fun c => decide (Quoted.Faithful c)) = true)) = true := by
    decide +kernel
  rcases exists_ofStream_madeOf muddled with ⟨program, mistakes, hread, -⟩
  rw [hread] at hany
  rcases of_decide_eq_true hany with ⟨hmistakes, hlength, hall⟩
  have hstrings : ∀ token ∈ Program.tokens program, token.kind = .stringLiteral →
      ∀ c ∈ token.text.toList, Quoted.Faithful c := by
    intro token htoken hkind c hc
    exact of_decide_eq_true (List.all_eq_true.1 (hall token htoken hkind) c hc)
  rcases ofStream_text hread hstrings with ⟨-, again, hagain, hsame, -⟩
  exact ⟨program, mistakes, hread, hmistakes, hlength, again, hagain, hsame⟩

end Grammar

end LoopLang
