import LoopLang.Proofs.Expr.Places
import LoopLang.Proofs.Grammar.Completeness
import LoopLang.Proofs.Token.Slices

/-!
# Quotations

An assertion keeps the source text of its condition.  The tokens of every statement
of a program stand in a row in the source, however deep the loops are in which it
occurs, and those of a condition are a slice of the source between two brackets.  The
slice has no other tokens in it, so the condition can be read again from the
quotation alone.

Main definitions:

- `Stmt.nested`, `Program.nested`: the statements of a program at any depth.
- `QuotedBy`: a text is the slice of a source that an expression was read from.

Main results:

- Theorem `IsProgram.exists_row`: the tokens of every statement stand in a row.
- Theorem `quotedBy_quotation`: the quotation of an expression says all of it.
- Theorem `ofStream_quotes_assertions`: so it is for the assertions of a program.
-/

namespace LoopLang

/-- Tokens that differ from those of an expression only in their places are read as the
same tree, up to places. -/
theorem Expr.IsExpression.exists_again {tokens others : List Token} {expr : Expr}
    (hexpr : Expr.IsExpression tokens expr) (hknown : ∀ token ∈ others, token.Known)
    (hsame : others.map Token.unplaced = tokens.map Token.unplaced) :
    ∃ again, Expr.IsExpression others again ∧ again.unplaced = expr.unplaced := by
  have hkinds : others.map Token.kind = tokens.map Token.kind := by
    have hunplaced := congrArg (List.map Token.kind) hsame
    simpa only [List.map_map, Function.comp_def, Token.kind_unplaced] using hunplaced
  have hderives : Grammar.Derives .expression (others.map Token.kind) := by
    rw [hkinds]
    exact hexpr.derives
  rcases Expr.exists_isExpression hderives hknown with ⟨again, hagain⟩
  have htree := Expr.toOption_ofTokens_unplaced others
  rw [hsame, Expr.toOption_ofTokens_unplaced, Expr.ofTokens_of_isExpression hexpr,
    Expr.ofTokens_of_isExpression hagain] at htree
  exact ⟨again, hagain, (Option.some.inj htree).symm⟩

mutual

/-- The statements in the body of a statement, at any depth. -/
def Stmt.nested : Stmt → List Stmt
  | .loop _ _ _ body => Program.nested body
  | .declare .. | .assign .. | .print .. | .read .. | .assert .. => []

/-- The statements of a list and of their bodies, at any depth. -/
def Program.nested : List Stmt → List Stmt
  | [] => []
  | stmt :: rest => stmt :: (stmt.nested ++ Program.nested rest)

end

namespace Grammar

/-! ## The tokens of a nested statement -/

mutual

/-- The tokens of a statement in the body of a statement stand in a row. -/
theorem IsStatement.exists_row {source : String} {tokens : List Token} {stmt : Stmt} :
    IsStatement source tokens stmt → ∀ {inner : Stmt}, inner ∈ stmt.nested →
      ∃ own, own <:+: tokens ∧ IsStatement source own inner
  | @IsStatement.loop _ keyword counter inWord range doWord endWord forWord firstTokens lastTokens
      bodyTokens _ _ _ _ _ _ _ _ _ _ hbody _ _, inner, hinner => by
    rcases hbody.exists_row hinner with ⟨own, hown, hstmt⟩
    refine ⟨own, hown.trans ?_, hstmt⟩
    refine ⟨keyword :: counter :: inWord :: (firstTokens ++ range :: (lastTokens ++ [doWord])),
      [endWord, forWord], ?_⟩
    simp
  | .declaration .., _, hinner | .initialised .., _, hinner | .assignment .., _, hinner
  | .read .., _, hinner | .print .., _, hinner | .assertion .., _, hinner => nomatch hinner

/-- The tokens of a statement in a program stand in a row. -/
theorem IsProgram.exists_row {source : String} {tokens : List Token} {program : Program} :
    IsProgram source tokens program → ∀ {inner : Stmt}, inner ∈ Program.nested program →
      ∃ own, own <:+: tokens ∧ IsStatement source own inner
  | .empty, _, hinner => nomatch hinner
  | .last hstmt, inner, hinner => by
    rw [Program.nested, Program.nested, List.append_nil] at hinner
    rcases List.mem_cons.1 hinner with rfl | hinner
    · exact ⟨_, List.infix_rfl, hstmt⟩
    · exact hstmt.exists_row hinner
  | @IsProgram.separated _ separator tokens rest _ _ hstmt hseparator hrest, inner, hinner => by
    have hfront : tokens <:+: tokens ++ separator :: rest := (List.prefix_append _ _).isInfix
    have hback : rest <:+: tokens ++ separator :: rest :=
      ((List.suffix_cons separator rest).trans (List.suffix_append _ _)).isInfix
    rw [Program.nested, List.mem_cons, List.mem_append] at hinner
    rcases hinner with rfl | hinner | hinner
    · exact ⟨tokens, hfront, hstmt⟩
    · rcases hstmt.exists_row hinner with ⟨own, hown, hinner⟩
      exact ⟨own, hown.trans hfront, hinner⟩
    · rcases hrest.exists_row hinner with ⟨own, hown, hinner⟩
      exact ⟨own, hown.trans hback, hinner⟩

end

/-! ## The tokens of a condition -/

/-- The text is the slice of the source from the first to the last token of an
expression, and the expression can be read from it alone. -/
structure QuotedBy (source : String) (first last : Token) (tokens : List Token) (expr : Expr)
    (text : String) : Prop where
  nonempty : text ≠ ""
  head_eq : tokens.head? = some first
  last_eq : tokens.getLast? = some last
  slice_eq : Source.slice? source first.start last.stop = some text
  quiet : (TokenStream.ofSource text).diagnostics = []
  tokens_eq : (TokenStream.ofSource text).pending.map Token.unplaced = tokens.map Token.unplaced
  read_again : ∃ again after, Expr.ofTokens (TokenStream.ofSource text).pending = .ok again ∧
    expression (.ofStream (.ofSource text)) = .ok again after ∧ after.pending = [] ∧
    after.diagnostics = [] ∧ again.unplaced = expr.unplaced

/-- The quotation of an expression of a source says all of it. -/
theorem quotedBy_quotation {source : String} {front tokens back : List Token} {expr : Expr}
    (hquiet : (TokenStream.ofSource source).diagnostics = [])
    (hpending : (TokenStream.ofSource source).pending = front ++ tokens ++ back)
    (hexpr : Expr.IsExpression tokens expr) :
    ∃ first last, QuotedBy source first last tokens expr (quotation source tokens) := by
  rcases List.exists_cons_of_ne_nil hexpr.ne_nil with ⟨first, others, hfirst⟩
  rcases TokenStream.exists_slice hquiet hexpr.ne_nil hpending with
    ⟨text, hnonempty, hslice, hdiagnostics, hsame⟩
  have hquotation : quotation source tokens = text := by
    rw [quotation, hslice, Option.getD_some]
  have hknown : ∀ token ∈ (TokenStream.ofSource text).pending, token.Known := by
    intro token htoken
    exact (TokenStream.scanned_ofSource text token htoken).known
  rcases hexpr.exists_again hknown hsame with ⟨again, hagain, hunplaced⟩
  let before := Cursor.ofStream (.ofSource text)
  let after := before.past before.pending []
  have htook : before.Took before.pending after := ⟨(List.append_nil _).symm, rfl⟩
  have hread : expression before = .ok again after := by
    apply expression_of_isExpression hagain htook
    intro hkind
    cases hkind
  rw [hquotation]
  refine ⟨tokens.headD .missing, tokens.getLastD .missing, hnonempty, ?_, ?_, hslice, hdiagnostics,
    hsame, again, after, Expr.ofTokens_of_isExpression hagain, hread, rfl, rfl, hunplaced⟩
  · rw [hfirst]
    rfl
  · rw [hfirst]
    simp [List.getLast?_cons]

/-! ## Assertions -/

/-- An assertion is read from its keyword and an expression between brackets. -/
theorem IsStatement.exists_condition {source : String} {own : List Token} {keyword : Token}
    {condition : Expr} {quoted : String}
    (hstmt : IsStatement source own (.assert keyword condition quoted)) :
    ∃ opening tokens closing, own = keyword :: opening :: (tokens ++ [closing]) ∧
      keyword.kind = .assertKeyword ∧ opening.kind = .leftBracket ∧
      closing.kind = .rightBracket ∧ Expr.IsExpression tokens condition ∧
      quoted = quotation source tokens := by
  cases hstmt with
  | @assertion _ opening closing tokens _ hkeyword hopening hcondition hclosing =>
    exact ⟨opening, tokens, closing, rfl, hkeyword, hopening, hclosing, hcondition, rfl⟩

/-- An assertion quotes exactly its condition.  In a source that is read without
mistakes, each assertion, at any depth, comes from its keyword and the tokens of its
condition between two brackets.  Its quotation is the slice of the source between the
brackets that goes from the first to the last of these tokens, and scanned by itself
it gives these tokens again and the same tree, up to places. -/
theorem ofStream_quotes_assertions {source : String} {program : Program}
    (hquiet : (TokenStream.ofSource source).diagnostics = [])
    (hread : Program.ofStream (.ofSource source) = .ok (program, []))
    {keyword : Token} {condition : Expr} {quoted : String}
    (hassert : .assert keyword condition quoted ∈ Program.nested program) :
    ∃ front opening tokens closing back first last,
      (TokenStream.ofSource source).pending =
        front ++ keyword :: opening :: (tokens ++ closing :: back) ∧
      keyword.kind = .assertKeyword ∧ opening.kind = .leftBracket ∧
      closing.kind = .rightBracket ∧ Expr.IsExpression tokens condition ∧
      opening.stop ≤ first.start ∧ last.stop ≤ closing.start ∧
      QuotedBy source first last tokens condition quoted := by
  rcases (isProgram_of_ofStream hread).exists_row hassert with ⟨own, ⟨front, back, hown⟩, hstmt⟩
  rcases hstmt.exists_condition with
    ⟨opening, tokens, closing, rfl, hkeyword, hopening, hclosing, hcondition, rfl⟩
  have hpending : (TokenStream.ofSource source).pending =
      front ++ keyword :: opening :: (tokens ++ closing :: back) := by
    simp [← hown]
  have hrow : (TokenStream.ofSource source).pending =
      (front ++ [keyword, opening]) ++ tokens ++ closing :: back := by
    simp [hpending]
  rcases quotedBy_quotation hquiet hrow hcondition with ⟨first, last, hquoted⟩
  have hordered := TokenStream.pairwise_pending source
  rw [hpending, List.pairwise_append, List.pairwise_cons, List.pairwise_cons,
    List.pairwise_append] at hordered
  rcases hordered with ⟨-, ⟨-, hafter, -, -, hbefore⟩, -⟩
  have hfirst : first ∈ tokens := List.mem_of_head? hquoted.head_eq
  have hlast : last ∈ tokens := List.mem_of_getLast? hquoted.last_eq
  refine ⟨front, opening, tokens, closing, back, first, last, hpending, hkeyword, hopening,
    hclosing, hcondition, ?_, ?_, hquoted⟩
  · exact hafter first (List.mem_append_left _ hfirst)
  · exact hbefore last hlast closing List.mem_cons_self

/-- An assertion in a loop, behind a character of several bytes.  Its condition has
brackets, and a string literal with a bracket and the end of a line in it. -/
def sheltered : String :=
  "print \"€\"; for i in 1..2 do assert ( (s = \")é\n\") & !(i = 2) ) end for"

/-- The condition of the assertion. -/
def shelteredCondition : Expr :=
  .binary .and ⟨.binaryOperator, "&", 2, 4, 52, 53⟩
    (.binary .equality ⟨.binaryOperator, "=", 1, 41, 42, 43⟩
      (.leaf ⟨.identifier, "s", 1, 39, 40, 41⟩)
      (.leaf ⟨.stringLiteral, ")é\n", 1, 43, 44, 50⟩))
    (.unary .not ⟨.unaryOperator, "!", 2, 6, 54, 55⟩
      (.binary .equality ⟨.binaryOperator, "=", 2, 10, 58, 59⟩
        (.leaf ⟨.identifier, "i", 2, 8, 56, 57⟩)
        (.leaf ⟨.integerLiteral, "2", 2, 12, 60, 61⟩)))

/-- A bracket inside a string and a newline belong to the quotation of the condition. -/
theorem ofStream_quotes_sheltered :
    (TokenStream.ofSource sheltered).diagnostics = [] ∧
      (∃ program, Program.ofStream (.ofSource sheltered) = .ok (program, []) ∧
        .assert ⟨.assertKeyword, "assert", 1, 29, 30, 36⟩ shelteredCondition
          "(s = \")é\n\") & !(i = 2)" ∈ Program.nested program) ∧
      ∃ tokens first last, tokens <:+: (TokenStream.ofSource sheltered).pending ∧
        QuotedBy sheltered first last tokens shelteredCondition
          "(s = \")é\n\") & !(i = 2)" := by
  let assertion : Stmt := .assert ⟨.assertKeyword, "assert", 1, 29, 30, 36⟩ shelteredCondition
    "(s = \")é\n\") & !(i = 2)"
  let program : Program :=
    [.print (.leaf ⟨.stringLiteral, "€", 1, 7, 6, 11⟩),
      .loop ⟨.identifier, "i", 1, 16, 17, 18⟩ (.leaf ⟨.integerLiteral, "1", 1, 21, 22, 23⟩)
        (.leaf ⟨.integerLiteral, "2", 1, 24, 25, 26⟩) [assertion]]
  have hquiet : (TokenStream.ofSource sheltered).diagnostics = [] := by decide +kernel
  have hanswer : (Program.ofStream (.ofSource sheltered)).toOption = some (program, []) := by
    decide +kernel
  have hread : Program.ofStream (.ofSource sheltered) = .ok (program, []) := by
    cases hrun : Program.ofStream (.ofSource sheltered) with
    | error fault =>
      rw [hrun] at hanswer
      cases hanswer
    | ok answer =>
      rw [hrun] at hanswer
      exact congrArg Except.ok (Option.some.inj hanswer)
  have hassert : assertion ∈ Program.nested program := by
    simp [program, Program.nested, Stmt.nested]
  rcases ofStream_quotes_assertions hquiet hread hassert with
    ⟨front, opening, tokens, closing, back, first, last, hpending, -, -, -, -, -, -, hquoted⟩
  refine ⟨hquiet, ⟨program, hread, hassert⟩, tokens, first, last, ?_, hquoted⟩
  refine ⟨front ++ [⟨.assertKeyword, "assert", 1, 29, 30, 36⟩, opening], closing :: back, ?_⟩
  simp [hpending]

end Grammar

end LoopLang
