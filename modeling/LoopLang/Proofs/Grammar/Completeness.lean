import LoopLang.Proofs.Grammar.Separators
import LoopLang.Proofs.Grammar.Soundness

/-!
# Reading what the grammar derives

In front of the tokens of a phrase, the reader of the phrase takes exactly these
tokens, makes no complaint and gives the tree of their derivation.  For this the
token after them has to be one that cannot go on with the phrase.  In a list of
statements, separators may be missing: there is a complaint about each of them,
and the trees are the same.

Main definitions:

- `Cursor.EndsStatement`, `Cursor.EndsList`: what may come after a statement and
  after a list of statements.
- `Cursor.TookOver`: the cursor has taken the given tokens and complained about
  the given gaps.

Main results:

- Theorem `expression_of_isExpression`: an expression is read as its reference
  tree.
- Theorem `statementsWithin_readsLists`: a list of statements is read as its
  trees, whether its separators are there or not.
- Theorem `program_of_omits`: so is a program.
- Theorem `ofStream_of_isProgram`: a source whose tokens have a tree is read as
  this tree, without mistakes.
- Theorem `ofStream_accepts_exactly_grammar`: no other source is read without
  mistakes.
- Theorem `ofStream_of_missing_separators`: where only separators are missing, the
  mistakes are the gaps, and the tree is that of the whole program.
-/

namespace LoopLang

namespace Grammar

/-! ## Tokens that come next -/

namespace Cursor

/-- Tokens that are taken together can be taken one part after the other. -/
theorem Took.split {first third : Cursor} {tokens others : List Token}
    (htook : Took first (tokens ++ others) third) :
    ∃ second, Took first tokens second ∧ Took second others third := by
  have hpending : first.pending = tokens ++ (others ++ third.pending) := by
    rw [← List.append_assoc]
    exact htook.pending_eq
  refine ⟨first.past tokens (others ++ third.pending), ⟨hpending, rfl⟩, ⟨rfl, ?_⟩⟩
  rw [htook.after_eq]
  simp [past]

/-- The first token can be taken before the others. -/
theorem Took.uncons {first third : Cursor} {token : Token} {others : List Token}
    (htook : Took first (token :: others) third) :
    ∃ second, Took first [token] second ∧ Took second others third := by
  exact htook.split

/-- The token that comes next. -/
theorem Took.current_eq_of_cons {first second : Cursor} {token : Token} {others : List Token}
    (htook : Took first (token :: others) second) : first.current = token := by
  exact htook.current_eq (List.cons_ne_nil token others)

/-- A row of one token is taken in one step. -/
theorem Took.take_eq {first second : Cursor} {token : Token} (htook : Took first [token] second) :
    first.take = second := by
  rw [htook.after_eq, Cursor.take, htook.current_eq_of_cons, htook.pending_eq]
  rfl

/-- A cursor that has taken nothing is where it was. -/
theorem Took.eq_of_nil {first second : Cursor} (htook : Took first [] second) :
    second = first := by
  rw [htook.after_eq, past, ← List.nil_append second.pending, ← htook.pending_eq]
  rfl

/-- The cursor has taken the given tokens and complained that separators are missing
in front of the given ones. -/
structure TookOver (before : Cursor) (tokens gaps : List Token) (after : Cursor) : Prop where
  pending_eq : before.pending = tokens ++ after.pending
  after_eq : after = { before.past tokens after.pending with
    diagnostics := before.diagnostics ++ gaps.map missingSeparator }

/-- Without gaps nothing is recorded on the way. -/
theorem tookOver_nil_iff {before after : Cursor} {tokens : List Token} :
    TookOver before tokens [] after ↔ Took before tokens after := by
  constructor
  · rintro ⟨hpending, hafter⟩
    refine ⟨hpending, ?_⟩
    rw [List.map_nil, List.append_nil] at hafter
    exact hafter
  · rintro ⟨hpending, hafter⟩
    refine ⟨hpending, ?_⟩
    rw [List.map_nil, List.append_nil]
    exact hafter

namespace TookOver

variable {first third : Cursor} {token : Token} {tokens others gaps more : List Token}

/-- Tokens that are taken together can be taken one part after the other. -/
theorem split (htook : TookOver first (tokens ++ others) (gaps ++ more) third) :
    ∃ second, TookOver first tokens gaps second ∧ TookOver second others more third := by
  have hpending : first.pending = tokens ++ (others ++ third.pending) := by
    rw [← List.append_assoc]
    exact htook.pending_eq
  refine ⟨{ first.past tokens (others ++ third.pending) with
    diagnostics := first.diagnostics ++ gaps.map missingSeparator }, ⟨hpending, rfl⟩, ⟨rfl, ?_⟩⟩
  rw [htook.after_eq]
  simp [past]

/-- Tokens without gaps can be taken before the others. -/
theorem splitTook (htook : TookOver first (tokens ++ others) gaps third) :
    ∃ second, Took first tokens second ∧ TookOver second others gaps third := by
  have hparts : TookOver first (tokens ++ others) ([] ++ gaps) third := htook
  rcases hparts.split with ⟨second, hfront, hrest⟩
  exact ⟨second, tookOver_nil_iff.1 hfront, hrest⟩

/-- The first token can be taken before the others. -/
theorem uncons (htook : TookOver first (token :: others) gaps third) :
    ∃ second, Took first [token] second ∧ TookOver second others gaps third :=
  splitTook htook

/-- The token that comes next. -/
theorem current_eq_of_cons (htook : TookOver first (token :: others) gaps third) :
    first.current = token := by
  rw [current, htook.pending_eq]
  rfl

theorem source_eq (htook : TookOver first tokens gaps third) : third.source = first.source := by
  rw [htook.after_eq]
  rfl

/-- The complaint about the first gap comes before all that is taken after it. -/
theorem complain (htook : TookOver first (token :: others) (token :: gaps) third) :
    TookOver (first.complain [.semicolon]) (token :: others) gaps third := by
  refine ⟨htook.pending_eq, ?_⟩
  rw [htook.after_eq]
  simp [past, Cursor.complain, htook.current_eq_of_cons, missingSeparator]

end TookOver

/-- A token of another category comes next. -/
theorem sees_eq_false {cursor : Cursor} {kinds : List TokenKind}
    (hkind : cursor.current.kind ∉ kinds) : cursor.sees kinds = false := by
  rw [Bool.eq_false_iff]
  intro hsees
  exact hkind (List.contains_iff_mem.1 hsees)

/-- What comes next can come after a statement, another statement included. -/
def EndsStatement (cursor : Cursor) : Prop :=
  cursor.current.kind ∈ TokenKind.endOfFile :: (statementFollow ++ statementFirst)

/-- What comes next can come after a list of statements. -/
def EndsList (cursor : Cursor) : Prop :=
  cursor.current.kind ∈ [TokenKind.endOfFile, TokenKind.endKeyword]

/-- No other category comes after a statement. -/
theorem EndsStatement.not_mem {cursor : Cursor} (hends : cursor.EndsStatement)
    {kinds : List TokenKind}
    (hkinds : ∀ kind ∈ TokenKind.endOfFile :: (statementFollow ++ statementFirst), kind ∉ kinds) :
    cursor.current.kind ∉ kinds := by
  exact hkinds cursor.current.kind hends

/-- No chain of operands goes on after the end of a statement. -/
theorem EndsStatement.not_binaryOperator {cursor : Cursor} (hends : cursor.EndsStatement) :
    cursor.current.kind ≠ .binaryOperator := by
  have hnot : cursor.current.kind ∉ [TokenKind.binaryOperator] := hends.not_mem (by decide)
  simpa using hnot

/-- The end of the source ends a list. -/
theorem EndsList.of_endOfFile {cursor : Cursor} (hkind : cursor.current.kind = .endOfFile) :
    cursor.EndsList := by
  rw [EndsList, hkind]
  decide

theorem sees_endOfFile {cursor : Cursor} (hkind : cursor.current.kind = .endOfFile) :
    cursor.sees [.endOfFile] = true := by
  rw [sees, Token.isOneOf, hkind]
  decide

/-- What ends a list ends its last statement. -/
theorem EndsList.endsStatement {cursor : Cursor} (hends : cursor.EndsList) :
    cursor.EndsStatement := by
  have hsub : ∀ kind ∈ [TokenKind.endOfFile, TokenKind.endKeyword],
      kind ∈ TokenKind.endOfFile :: (statementFollow ++ statementFirst) := by decide
  exact hsub cursor.current.kind hends

/-- No other category comes after a list of statements. -/
theorem EndsList.sees_eq_false {cursor : Cursor} (hends : cursor.EndsList)
    {kinds : List TokenKind}
    (hkinds : ∀ kind ∈ [TokenKind.endOfFile, TokenKind.endKeyword], kind ∉ kinds) :
    cursor.sees kinds = false := by
  exact Cursor.sees_eq_false (hkinds cursor.current.kind hends)

end Cursor

section Readers

variable {α β : Type} {before after : Cursor} {token : Token} {kinds : List TokenKind}

/-- Two readers that end well, one after the other. -/
theorem bind_ok {reader : Parse α} {next : α → Parse β} {middle : Cursor} {a : α} {b : β}
    (hreader : reader before = .ok a middle) (hnext : next a middle = .ok b after) :
    (reader >>= next) before = .ok b after := by
  rw [bind_eq_of_ok hreader]
  exact hnext

/-- A token that comes next and is expected is accepted. -/
theorem accept_of_took (htook : before.Took [token] after) (hkind : token.kind ∈ kinds) :
    accept kinds before = .ok true after := by
  have hsees : before.sees kinds = true := by
    rw [Cursor.sees, htook.current_eq_of_cons]
    exact List.contains_iff_mem.2 hkind
  rw [accept, if_pos hsees, htook.take_eq]

theorem accept_of_sees_eq_false (hsees : before.sees kinds = false) :
    accept kinds before = .ok false before := by
  rw [accept, hsees]
  rfl

/-- An expected token that comes next is taken without a complaint. -/
theorem expect_of_took (follow : List TokenKind) (htook : before.Took [token] after)
    (hkind : token.kind ∈ kinds) : expect kinds follow before = .ok token after := by
  have hsees : before.sees kinds = true := by
    rw [Cursor.sees, htook.current_eq_of_cons]
    exact List.contains_iff_mem.2 hkind
  rw [expect_apply, if_pos hsees, htook.current_eq_of_cons, htook.take_eq]

/-- A part that is read in full is not skipped. -/
theorem skippable_ok {reader : Parse α} {a : α} (hreader : reader before = .ok a after) :
    skippable reader before = .ok (some a) after := by
  rw [skippable, hreader]

theorem map_ok {f : α → β} {reader : Parse α} {a : α} (hreader : reader before = .ok a after) :
    (f <$> reader) before = .ok (f a) after := by
  simp only [Functor.map, EStateM.map, hreader]

/-- A part that is there, after which the statement goes on. -/
theorem part_bind_ok {reader : Parse α} {next : Option α → Parse β} {middle : Cursor} {a : α}
    {b : β} (hreader : reader before = .ok a middle)
    (hnext : next (some a) middle = .ok b after) :
    (skippable reader >>= fun part => resume part >>= next) before = .ok b after := by
  exact bind_ok (skippable_ok hreader) (bind_ok rfl hnext)

/-- A keyword or sign that comes next is taken as a part of the statement. -/
theorem expectPart_of_took (follow : List TokenKind) (htook : before.Took [token] after)
    (hkind : token.kind ∈ kinds) : expectPart kinds follow before = .ok (some token) after := by
  exact bind_ok (skippable_ok (expect_of_took follow htook hkind)) rfl

end Readers

/-! ## Expressions -/

/-- What an operand can be if it is not a term of more than one token. -/
inductive IsOperand : List Token → Prop where
  | single {token : Token} (hoperand : token.isOperand = true) : IsOperand [token]
  | group {opening closing : Token} {tokens : List Token} {first : Expr} {links : List Expr.Link}
      (hopening : opening.kind = .leftBracket) (hclosing : closing.kind = .rightBracket)
      (hchain : Expr.IsChain tokens first links) : IsOperand (opening :: (tokens ++ [closing]))

/-- The prefix operators of a term stand together in front of its operand. -/
theorem exists_operators_of_isTerm {tokens : List Token} {expr : Expr}
    (hterm : Expr.IsTerm tokens expr) :
    ∃ operators operand, tokens = operators ++ operand ∧
      (∀ token ∈ operators, token.kind = .unaryOperator) ∧ IsOperand operand := by
  induction tokens generalizing expr with
  | nil => exact absurd rfl hterm.ne_nil
  | cons token rest ih =>
    cases hterm with
    | operand hoperand => exact ⟨[], [token], rfl, by simp, .single hoperand⟩
    | group hopening hclosing hchain _ =>
      exact ⟨[], _, rfl, by simp, .group hopening hclosing hchain⟩
    | prefixed hkind _ hterm =>
      rcases ih hterm with ⟨operators, operand, rfl, hoperators, hoperand⟩
      refine ⟨token :: operators, operand, rfl, ?_, hoperand⟩
      intro other hother
      rcases List.mem_cons.1 hother with rfl | hother
      · exact hkind
      · exact hoperators other hother

/-- The first token of an operand is one that an operand can begin with. -/
theorem IsOperand.exists_first {tokens : List Token} (hoperand : IsOperand tokens) :
    ∃ token rest, tokens = token :: rest ∧ token.kind ∈ operandFirst := by
  cases hoperand with
  | @single token hoperand =>
    refine ⟨token, [], rfl, ?_⟩
    revert hoperand
    rw [Token.isOperand]
    cases token.kind <;> decide
  | @group opening closing inner _ _ hopening _ _ =>
    refine ⟨opening, inner ++ [closing], rfl, ?_⟩
    rw [hopening]
    decide

/-- All prefix operators at the front are taken. -/
theorem unaryOperators_of_took {before middle after : Cursor} {operators rest : List Token}
    {token : Token} (hoperators : ∀ token ∈ operators, token.kind = .unaryOperator)
    (htook : before.Took operators middle) (hnext : middle.Took (token :: rest) after)
    (hkind : token.kind ≠ .unaryOperator) : unaryOperators before = .ok operators middle := by
  have hall : ∀ other ∈ operators, (other.kind == .unaryOperator) = true := by
    intro other hother
    exact beq_iff_eq.2 (hoperators other hother)
  have hnot : (token.kind == .unaryOperator) = false := beq_eq_false_iff_ne.2 hkind
  have htake : before.pending.takeWhile (fun token => token.kind == .unaryOperator) =
      operators := by
    rw [htook.pending_eq, hnext.pending_eq, List.takeWhile_append_of_pos hall, List.cons_append,
      List.takeWhile_cons, hnot]
    exact List.append_nil operators
  have hdrop : before.pending.dropWhile (fun token => token.kind == .unaryOperator) =
      middle.pending := by
    rw [htook.pending_eq, hnext.pending_eq, List.dropWhile_append_of_pos hall, List.cons_append,
      List.dropWhile_cons, hnot]
    rfl
  rw [unaryOperators, Cursor.takeWhile, htake, hdrop, htook.after_eq]
  rfl

/-- In front of the tokens of a chain, these are collected if no operator comes
after them. -/
def Collects (bound : Nat) : Prop :=
  ∀ {before after : Cursor} {tokens : List Token} {first : Expr} {links : List Expr.Link},
    Expr.IsChain tokens first links → before.Took tokens after →
      after.current.kind ≠ .binaryOperator → tokens.length ≤ bound →
        expressionTokensWithin bound before = .ok tokens after

/-- The tokens of a term are collected before the reading goes on. -/
theorem expressionTokensWithin_of_isTerm {bound : Nat} (hcollects : Collects bound)
    {tokens : List Token} {expr : Expr} (hterm : Expr.IsTerm tokens expr)
    (hbound : tokens.length ≤ bound + 1) {before middle after : Cursor}
    (htook : before.Took tokens middle) {result : List Token}
    (hnext : chainFrom (expressionTokensWithin bound) tokens middle = .ok result after) :
    expressionTokensWithin (bound + 1) before = .ok result after := by
  rw [expressionTokensWithin_succ]
  rcases exists_operators_of_isTerm hterm with ⟨operators, operand, rfl, hoperators, hoperand⟩
  rcases htook.split with ⟨c₁, htook₁, htook⟩
  rcases hoperand.exists_first with ⟨token, rest, rfl, hfirst⟩
  have hunary : token.kind ≠ .unaryOperator := by
    intro hkind
    rw [hkind] at hfirst
    exact absurd hfirst (by decide)
  apply bind_ok (unaryOperators_of_took hoperators htook₁ htook hunary)
  rcases htook.uncons with ⟨c₂, htook₂, htook⟩
  apply bind_ok (expect_of_took expressionFollow htook₂ hfirst)
  cases hoperand with
  | single hoperand =>
    have hbracket : token.kind ≠ .leftBracket := by
      intro hkind
      rw [Token.isOperand, hkind] at hoperand
      cases hoperand
    rw [if_neg hbracket]
    rw [htook.eq_of_nil] at hnext
    exact hnext
  | group hopening hclosing hchain =>
    rw [if_pos hopening]
    rcases htook.split with ⟨c₃, htook₃, htook⟩
    simp only [List.length_append, List.length_cons, List.length_nil] at hbound
    refine bind_ok (hcollects hchain htook₃ ?_ (by omega)) ?_
    · rw [htook.current_eq_of_cons, hclosing]
      decide
    · exact bind_ok (expect_of_took expressionFollow htook (by simp [hclosing])) hnext

/-- The tokens of a chain are collected. -/
theorem expressionTokensWithin_of_isChain (bound : Nat) : Collects bound := by
  induction bound with
  | zero =>
    intro before after tokens first links hchain _ _ hbound
    have hempty : tokens = [] := List.length_eq_zero_iff.1 (Nat.le_zero.1 hbound)
    exact absurd hempty hchain.ne_nil
  | succ bound ih =>
    intro before after tokens first links hchain htook hfollow hbound
    cases hchain with
    | single hterm =>
      apply expressionTokensWithin_of_isTerm ih hterm hbound htook
      have hsees : after.sees [.binaryOperator] = false :=
        Cursor.sees_eq_false (by simpa using hfollow)
      exact bind_ok (accept_of_sees_eq_false hsees) rfl
    | @link token _ term rest _ _ _ hkind _ hterm hchain =>
      have hpositive : 0 < term.length := List.length_pos_iff.2 hterm.ne_nil
      simp only [List.length_append, List.length_cons] at hbound
      rcases htook.split with ⟨c₁, htook₁, htook⟩
      rcases htook.uncons with ⟨c₂, htook₂, htook⟩
      apply expressionTokensWithin_of_isTerm ih hterm (by omega) htook₁
      apply bind_ok (accept_of_took htook₂ (by simp [hkind]))
      refine bind_ok rfl (bind_ok (ih hchain htook hfollow (by omega)) ?_)
      rw [htook₂.accepted_eq]
      rfl

/-- In front of an expression, its reference tree is read. -/
theorem expression_of_isExpression {tokens : List Token} {expr : Expr} {before after : Cursor}
    (hexpr : Expr.IsExpression tokens expr) (htook : before.Took tokens after)
    (hfollow : after.current.kind ≠ .binaryOperator) : expression before = .ok expr after := by
  have htree : Expr.ofTokens tokens = .ok expr := Expr.ofTokens_of_isExpression hexpr
  rcases hexpr with ⟨first, links, hchain, -⟩
  have hbound : tokens.length ≤ before.pending.length := by
    rw [htook.length_eq]
    omega
  have htokens : expressionTokens before = .ok tokens after :=
    bind_ok rfl (expressionTokensWithin_of_isChain _ hchain htook hfollow hbound)
  apply bind_ok htokens
  rw [htree]
  rfl

/-! ## Statements -/

section Statements

variable {before after : Cursor}

/-- The tokens of a read statement are read as one. -/
theorem readStatement_of_took {keyword name : Token} (hkeyword : keyword.kind = .readKeyword)
    (hname : name.kind = .identifier) (htook : before.Took [keyword, name] after) :
    readStatement before = .ok (.read name) after := by
  rcases htook.uncons with ⟨c₁, htook₁, htook⟩
  apply bind_ok (accept_of_took htook₁ (by simp [hkeyword]))
  exact bind_ok (expect_of_took [] htook (by simp [hname])) rfl

theorem printStatement_of_took {keyword : Token} {tokens : List Token} {value : Expr}
    (hkeyword : keyword.kind = .printKeyword) (hvalue : Expr.IsExpression tokens value)
    (htook : before.Took (keyword :: tokens) after) (hends : after.EndsStatement) :
    printStatement before = .ok (.print value) after := by
  rcases htook.uncons with ⟨c₁, htook₁, htook⟩
  apply bind_ok (accept_of_took htook₁ (by simp [hkeyword]))
  exact bind_ok (expression_of_isExpression hvalue htook hends.not_binaryOperator) rfl

theorem assignment_of_took {name sign : Token} {tokens : List Token} {value : Expr}
    (hname : name.kind = .identifier) (hsign : sign.kind = .assignment)
    (hvalue : Expr.IsExpression tokens value) (htook : before.Took (name :: sign :: tokens) after)
    (hends : after.EndsStatement) : assignment before = .ok (.assign name value) after := by
  rcases htook.uncons with ⟨c₁, htook₁, htook⟩
  rcases htook.uncons with ⟨c₂, htook₂, htook⟩
  apply bind_ok (accept_of_took htook₁ (by simp [hname]))
  refine bind_ok rfl (bind_ok (expectPart_of_took expressionFirst htook₂ (by simp [hsign])) ?_)
  apply bind_ok (expression_of_isExpression hvalue htook hends.not_binaryOperator)
  rw [htook₁.accepted_eq]
  rfl

/-- In front of a declaration, its head is read and then its initial value, if it
has one. -/
theorem declaration_of_took {keyword name colon typeToken : Token} {ty : Ty}
    (hkeyword : keyword.kind = .varKeyword) (hname : name.kind = .identifier)
    (hcolon : colon.kind = .colon) (hty : typeToken.kind.namedType? = some ty) {middle : Cursor}
    (htook : before.Took [keyword, name, colon, typeToken] middle) {initial : Option Expr}
    (hinitial : (initial = none ∧ after = middle) ∨
      ∃ sign tokens value, initial = some value ∧ sign.kind = .assignment ∧
        Expr.IsExpression tokens value ∧ middle.Took (sign :: tokens) after)
    (hends : after.EndsStatement) :
    declaration before = .ok (.declare name typeToken ty initial) after := by
  rcases htook.uncons with ⟨c₁, htook₁, htook⟩
  rcases htook.uncons with ⟨c₂, htook₂, htook⟩
  rcases htook.uncons with ⟨c₃, htook₃, htook⟩
  apply bind_ok (accept_of_took htook₁ (by simp [hkeyword]))
  apply bind_ok (expectPart_of_took [.colon] htook₂ (by simp [hname]))
  apply bind_ok (expectPart_of_took types htook₃ (by simp [hcolon]))
  refine bind_ok (skippable_ok (expect_of_took [.assignment] htook (mem_types_iff.2 ⟨ty, hty⟩))) ?_
  rcases hinitial with ⟨rfl, rfl⟩ | ⟨sign, tokens, value, rfl, hsign, hvalue, hrest⟩
  · have hsees : after.sees [.assignment] = false :=
      Cursor.sees_eq_false (hends.not_mem (by decide))
    refine bind_ok (accept_of_sees_eq_false hsees) (bind_ok rfl ?_)
    simp only [hty]
    rfl
  · rcases hrest.uncons with ⟨c₅, htook₅, hrest⟩
    have hexpr := expression_of_isExpression hvalue hrest hends.not_binaryOperator
    refine bind_ok (accept_of_took htook₅ (by simp [hsign])) (bind_ok (map_ok hexpr) ?_)
    simp only [hty]
    rfl

/-- The tokens of an assertion are read as one, with the text between its brackets. -/
theorem assertion_of_took {keyword opening closing : Token} {tokens : List Token} {condition : Expr}
    (hkeyword : keyword.kind = .assertKeyword) (hopening : opening.kind = .leftBracket)
    (hcondition : Expr.IsExpression tokens condition) (hclosing : closing.kind = .rightBracket)
    (htook : before.Took (keyword :: opening :: (tokens ++ [closing])) after) :
    assertion before =
      .ok (.assert keyword condition (quotation before.source tokens)) after := by
  have hsource : after.source = before.source := htook.source_eq
  rcases htook.uncons with ⟨c₁, htook₁, htook⟩
  rcases htook.uncons with ⟨c₂, htook₂, htook⟩
  rcases htook.split with ⟨c₃, htook₃, htook⟩
  have hfollow : c₃.current.kind ≠ .binaryOperator := by
    rw [htook.current_eq_of_cons, hclosing]
    decide
  refine bind_ok (accept_of_took htook₁ (by simp [hkeyword])) (bind_ok rfl ?_)
  refine bind_ok (expectPart_of_took expressionFirst htook₂ (by simp [hopening])) (bind_ok rfl ?_)
  refine part_bind_ok (expression_of_isExpression hcondition htook₃ hfollow) (bind_ok rfl ?_)
  apply bind_ok (skippable_ok (expect_of_took [] htook (by simp [hclosing])))
  have hquote : after.quote c₂.current c₃.accepted = quotation before.source tokens := by
    rw [Cursor.quote, quotation, hsource, htook₃.current_eq hcondition.ne_nil,
      htook₃.accepted_eq_getLastD hcondition.ne_nil]
  rw [← hquote, htook₁.accepted_eq]
  rfl

/-- In front of a list of statements from which separators may be missing, it is
read as its trees, if what is left is not longer than the bound. -/
def ReadsLists (source : String) (reader : Parse Program) (bound : Nat) : Prop :=
  ∀ {before after : Cursor} {tokens left gaps : List Token} {program : Program},
    IsProgram source tokens program → Omits tokens left gaps → before.source = source →
      before.TookOver left gaps after → after.EndsList → left.length ≤ bound →
        reader before = .ok program after

/-- The tokens of a loop are read as one if those of its body are. -/
theorem loop_of_tookOver {source : String} {body : Parse Program} {bound : Nat}
    (hreads : ReadsLists source body bound)
    {keyword counter inWord range doWord endWord forWord : Token}
    {firstTokens lastTokens bodyTokens left gaps : List Token} {first last : Expr}
    {program : Program}
    (hkeyword : keyword.kind = .forKeyword) (hcounter : counter.kind = .identifier)
    (hin : inWord.kind = .inKeyword) (hfirst : Expr.IsExpression firstTokens first)
    (hrange : range.kind = .range) (hlast : Expr.IsExpression lastTokens last)
    (hdo : doWord.kind = .doKeyword) (hbody : IsProgram source bodyTokens program)
    (homits : Omits bodyTokens left gaps) (hend : endWord.kind = .endKeyword)
    (hfor : forWord.kind = .forKeyword) (hbound : left.length ≤ bound)
    (hsource : before.source = source)
    (htook : before.TookOver (keyword :: counter :: inWord :: (firstTokens ++ range ::
      (lastTokens ++ doWord :: (left ++ [endWord, forWord])))) gaps after) :
    loop body before = .ok (.loop counter first last program) after := by
  rcases htook.uncons with ⟨c₁, htook₁, htook⟩
  rcases htook.uncons with ⟨c₂, htook₂, htook⟩
  rcases htook.uncons with ⟨c₃, htook₃, htook⟩
  rcases htook.splitTook with ⟨c₄, htook₄, htook⟩
  have hfollow₄ : c₄.current.kind ≠ .binaryOperator := by
    rw [htook.current_eq_of_cons, hrange]
    decide
  rcases htook.uncons with ⟨c₅, htook₅, htook⟩
  rcases htook.splitTook with ⟨c₆, htook₆, htook⟩
  have hfollow₆ : c₆.current.kind ≠ .binaryOperator := by
    rw [htook.current_eq_of_cons, hdo]
    decide
  rcases htook.uncons with ⟨c₇, htook₇, htook⟩
  rw [← List.append_nil gaps] at htook
  rcases htook.split with ⟨c₈, htook₈, hclosing⟩
  have hends : c₈.EndsList := by
    rw [Cursor.EndsList, hclosing.current_eq_of_cons, hend]
    decide
  rcases (Cursor.tookOver_nil_iff.1 hclosing).uncons with ⟨c₉, htook₉, htook₁₀⟩
  have hsource₇ : c₇.source = source := by
    rw [htook₇.source_eq, htook₆.source_eq, htook₅.source_eq, htook₄.source_eq, htook₃.source_eq,
      htook₂.source_eq, htook₁.source_eq, hsource]
  apply bind_ok (accept_of_took htook₁ (by simp [hkeyword]))
  apply bind_ok (expectPart_of_took [.inKeyword] htook₂ (by simp [hcounter]))
  apply bind_ok (expectPart_of_took expressionFirst htook₃ (by simp [hin]))
  apply part_bind_ok (expression_of_isExpression hfirst htook₄ hfollow₄)
  apply bind_ok (expectPart_of_took expressionFirst htook₅ (by simp [hrange]))
  apply part_bind_ok (expression_of_isExpression hlast htook₆ hfollow₆)
  apply bind_ok (skippable_ok (expect_of_took bodyFirst htook₇ (by simp [hdo])))
  apply bind_ok (hreads hbody homits hsource₇ htook₈ hends hbound)
  apply bind_ok (skippable_ok (expect_of_took [.forKeyword] htook₉ (by simp [hend])))
  exact bind_ok (skippable_ok (expect_of_took [] htook₁₀ (by simp [hfor]))) rfl

/-- In front of a statement, it is read as its tree.  Separators can be missing
from it only if it is a loop. -/
theorem statementWith_of_isStatement {source : String} {body : Parse Program} {bound : Nat}
    (hreads : ReadsLists source body bound) {tokens left gaps : List Token} {stmt : Stmt}
    (hstmt : IsStatement source tokens stmt) (homits : Omits tokens left gaps)
    (hsource : before.source = source) (htook : before.TookOver left gaps after)
    (hends : after.EndsStatement) (hbound : left.length ≤ bound + 1) :
    statementWith body before = .ok stmt after := by
  have hwhole : TokenKind.semicolon ∉ tokens.map Token.kind → before.Took tokens after := by
    intro hnone
    rcases homits.eq_of_semicolon_not_mem hnone with ⟨rfl, rfl⟩
    exact Cursor.tookOver_nil_iff.1 htook
  apply bind_ok rfl
  cases hstmt with
  | @declaration keyword name colon typeToken ty hkeyword hname hcolon hty =>
    have htype : TokenKind.semicolon ≠ typeToken.kind := by
      intro hkind
      rw [← hkind] at hty
      cases hty
    have htook := hwhole (by simp [hkeyword, hname, hcolon, htype])
    rw [htook.current_eq_of_cons, hkeyword]
    exact declaration_of_took hkeyword hname hcolon hty htook (.inl ⟨rfl, rfl⟩) hends
  | @initialised keyword name colon typeToken sign ty tokens value hkeyword hname hcolon hty hsign
      hvalue =>
    have htype : TokenKind.semicolon ≠ typeToken.kind := by
      intro hkind
      rw [← hkind] at hty
      cases hty
    have hnone := hvalue.semicolon_not_mem
    have hparts : before.Took ([keyword, name, colon, typeToken] ++ sign :: tokens) after :=
      hwhole (by simpa [hkeyword, hname, hcolon, htype, hsign] using hnone)
    rw [Cursor.Took.current_eq_of_cons hparts, hkeyword]
    rcases hparts.split with ⟨middle, hhead, hinitial⟩
    exact declaration_of_took hkeyword hname hcolon hty hhead
      (.inr ⟨sign, tokens, value, rfl, hsign, hvalue, hinitial⟩) hends
  | assignment hname hsign hvalue =>
    have hnone := hvalue.semicolon_not_mem
    have htook := hwhole (by simpa [hname, hsign] using hnone)
    rw [htook.current_eq_of_cons, hname]
    exact assignment_of_took hname hsign hvalue htook hends
  | loop hkeyword hcounter hin hfirst hrange hlast hdo hbody hend hfor =>
    obtain ⟨leftBody, hleftBody, rfl⟩ :=
      homits.of_loop hkeyword hcounter hin hfirst hrange hlast hdo hend hfor
    rw [htook.current_eq_of_cons, hkeyword]
    simp only [List.length_append, List.length_cons] at hbound
    exact loop_of_tookOver hreads hkeyword hcounter hin hfirst hrange hlast hdo hbody hleftBody
      hend hfor (by omega) hsource htook
  | read hkeyword hname =>
    have htook := hwhole (by simp [hkeyword, hname])
    rw [htook.current_eq_of_cons, hkeyword]
    exact readStatement_of_took hkeyword hname htook
  | print hkeyword hvalue =>
    have hnone := hvalue.semicolon_not_mem
    have htook := hwhole (by simpa [hkeyword] using hnone)
    rw [htook.current_eq_of_cons, hkeyword]
    exact printStatement_of_took hkeyword hvalue htook hends
  | assertion hkeyword hopening hcondition hclosing =>
    have hnone := hcondition.semicolon_not_mem
    have htook := hwhole (by simpa [hkeyword, hopening, hclosing] using hnone)
    rw [htook.current_eq_of_cons, hkeyword, ← hsource]
    exact assertion_of_took hkeyword hopening hcondition hclosing htook

end Statements

/-! ## Lists of statements -/

/-- A statement begins with a token that a statement can begin with. -/
theorem IsStatement.exists_first {source : String} {tokens : List Token} {stmt : Stmt}
    (hstmt : IsStatement source tokens stmt) :
    ∃ token rest, tokens = token :: rest ∧ token.kind ∈ statementFirst := by
  cases hstmt with
  | declaration hkeyword | initialised hkeyword | loop hkeyword | read hkeyword | print hkeyword
  | assertion hkeyword =>
    refine ⟨_, _, rfl, ?_⟩
    rw [hkeyword]
    decide
  | assignment hname =>
    refine ⟨_, _, rfl, ?_⟩
    rw [hname]
    decide

/-- No semicolon begins a statement. -/
theorem ne_semicolon_of_mem {token : Token} (hfirst : token.kind ∈ statementFirst) :
    token.kind ≠ .semicolon := by
  intro hkind
  rw [hkind] at hfirst
  exact absurd hfirst (by decide)

/-- The first token of a statement is left. -/
theorem IsStatement.exists_first_of_omits {source : String} {tokens left gaps : List Token}
    {stmt : Stmt} (hstmt : IsStatement source tokens stmt) (homits : Omits tokens left gaps) :
    ∃ token rest, left = token :: rest ∧ token.kind ∈ statementFirst := by
  rcases hstmt.exists_first with ⟨token, others, rfl, hkind⟩
  rcases homits.of_cons (ne_semicolon_of_mem hkind) with ⟨rest, rfl, -⟩
  exact ⟨token, rest, rfl, hkind⟩

/-- No statement is made of no tokens. -/
theorem IsStatement.ne_nil {source : String} {tokens : List Token} {stmt : Stmt}
    (hstmt : IsStatement source tokens stmt) : tokens ≠ [] := by
  rcases hstmt.exists_first with ⟨token, rest, rfl, -⟩
  exact List.cons_ne_nil token rest

/-- No tokens are the tokens of no statements. -/
theorem IsProgram.eq_nil {source : String} {tokens : List Token} {program : Program}
    (hprogram : IsProgram source tokens program) (htokens : tokens = []) : program = [] := by
  cases hprogram with
  | empty => rfl
  | last hstmt => exact absurd htokens hstmt.ne_nil
  | separated => simp at htokens

/-- In front of a statement of a list, it is read to its end. -/
theorem attempt_of_isStatement {source : String} {bound : Nat}
    (hreads : ReadsLists source (statementsWithin bound) bound) {tokens left gaps : List Token}
    {stmt : Stmt} (hstmt : IsStatement source tokens stmt) (homits : Omits tokens left gaps)
    {before after : Cursor} (hsource : before.source = source)
    (htook : before.TookOver left gaps after) (hends : after.EndsStatement)
    (hbound : left.length ≤ bound + 1) :
    before.sees statementFirst = true ∧
      attempt (statementWith (statementsWithin bound)) before = .ok (.complete stmt) after := by
  have hrun := statementWith_of_isStatement hreads hstmt homits hsource htook hends hbound
  rcases hstmt.exists_first_of_omits homits with ⟨token, rest, rfl, hkind⟩
  constructor
  · rw [Cursor.sees, htook.current_eq_of_cons]
    exact List.contains_iff_mem.2 hkind
  · rw [attempt, hrun]

/-- A list of statements is read as its trees, whether its separators are there or
not. -/
theorem statementsWithin_readsLists (source : String) (bound : Nat) :
    ReadsLists source (statementsWithin bound) bound := by
  induction bound with
  | zero =>
    intro before after tokens left gaps program hprogram homits _ htook _ hbound
    have hleft : left = [] := List.length_eq_zero_iff.1 (Nat.le_zero.1 hbound)
    rcases homits.eq_nil hleft with ⟨htokens, rfl⟩
    rw [hleft, Cursor.tookOver_nil_iff] at htook
    rw [hprogram.eq_nil htokens, htook.eq_of_nil]
    rfl
  | succ bound ih =>
    intro before after tokens left gaps program hprogram homits hsource htook hends hbound
    have hnone : after.sees statementFirst = false := hends.sees_eq_false (by decide)
    apply bind_ok rfl
    cases hprogram with
    | empty =>
      cases homits
      rw [(Cursor.tookOver_nil_iff.1 htook).eq_of_nil] at hnone ⊢
      rw [hnone]
      rfl
    | last hstmt =>
      have hseparated : after.sees [.semicolon] = false := hends.sees_eq_false (by decide)
      obtain ⟨hfirst, hrun⟩ :=
        attempt_of_isStatement ih hstmt homits hsource htook hends.endsStatement hbound
      rw [if_pos hfirst]
      refine bind_ok hrun (bind_ok (accept_of_sees_eq_false hseparated) (bind_ok rfl ?_))
      rw [hnone]
      rfl
    | @separated separator front rest _ _ hstmt hseparator hrest =>
      have hbegins : separator.kind ∉ statementFirst := by
        rw [hseparator]
        decide
      rcases homits.append hbegins with ⟨left, others, gaps, more, rfl, rfl, hleft, hothers⟩
      have hpositive : 0 < left.length := by
        rcases hstmt.exists_first_of_omits hleft with ⟨token, _, rfl, -⟩
        exact Nat.succ_pos _
      rw [List.length_append] at hbound
      rcases htook.split with ⟨c₁, htook₁, htook⟩
      have hsource₁ : c₁.source = source := by
        rw [htook₁.source_eq, hsource]
      cases hothers with
      | @keep _ _ others _ hothers =>
        have hends₁ : c₁.EndsStatement := by
          rw [Cursor.EndsStatement, htook.current_eq_of_cons, hseparator]
          decide
        rcases htook.uncons with ⟨c₂, htook₂, htook⟩
        rw [List.length_cons] at hbound
        obtain ⟨hfirst, hrun⟩ :=
          attempt_of_isStatement ih hstmt hleft hsource htook₁ hends₁ (by omega)
        rw [if_pos hfirst]
        refine bind_ok hrun (bind_ok (accept_of_took htook₂ (by simp [hseparator])) ?_)
        have hsource₂ : c₂.source = source := by
          rw [htook₂.source_eq, hsource₁]
        exact bind_ok (ih hrest hothers hsource₂ htook hends (by omega)) rfl
      | @gap _ next tokens _ more _ hnext hothers =>
        rcases hothers.of_cons (ne_semicolon_of_mem hnext) with ⟨others, rfl, -⟩
        have hcurrent : c₁.current = next := htook.current_eq_of_cons
        have hends₁ : c₁.EndsStatement := by
          rw [Cursor.EndsStatement, hcurrent]
          exact List.mem_cons_of_mem _ (List.mem_append_right _ hnext)
        have hseparated : c₁.sees [.semicolon] = false := by
          apply Cursor.sees_eq_false
          rw [hcurrent, List.mem_singleton]
          exact ne_semicolon_of_mem hnext
        have hnext₁ : c₁.sees statementFirst = true := by
          rw [Cursor.sees, hcurrent]
          exact List.contains_iff_mem.2 hnext
        obtain ⟨hfirst, hrun⟩ :=
          attempt_of_isStatement ih hstmt hleft hsource htook₁ hends₁ (by omega)
        rw [if_pos hfirst]
        refine bind_ok hrun (bind_ok (accept_of_sees_eq_false hseparated) (bind_ok rfl ?_))
        rw [if_pos hnext₁]
        exact bind_ok rfl (bind_ok (ih hrest hothers hsource₁ htook.complain hends (by omega)) rfl)

/-- In front of a list of statements, it is read as its trees. -/
theorem statementsWithin_of_isProgram {bound : Nat} {before after : Cursor} {tokens : List Token}
    {program : Program} (hprogram : IsProgram before.source tokens program)
    (htook : before.Took tokens after) (hends : after.EndsList) (hbound : tokens.length ≤ bound) :
    statementsWithin bound before = .ok program after :=
  statementsWithin_readsLists _ bound hprogram (.refl tokens) rfl
    (Cursor.tookOver_nil_iff.2 htook) hends hbound

/-- A list of statements that takes all tokens is the whole program. -/
theorem programWithin_of_statements {cursor after : Cursor} {program : Program} {bound : Nat}
    (hstatements : statements cursor = .ok program after)
    (hend : after.sees [.endOfFile] = true) (hbound : cursor.pending.length ≤ bound) :
    programWithin bound cursor = .ok program after := by
  cases bound with
  | zero =>
    have hnone : statements cursor = statementsWithin 0 cursor := by
      rw [← Nat.le_zero.1 hbound]
      rfl
    rw [← hstatements, hnone]
    rfl
  | succ bound =>
    have hfront : statementsOrNone cursor = .ok program after := by
      rw [statementsOrNone, hstatements]
    refine bind_ok hfront (bind_ok rfl ?_)
    rw [if_pos hend]
    rfl

/-- In front of the tokens of a whole source, all of them are read as one list, with
a complaint about each missing separator. -/
theorem program_of_omits {cursor : Cursor} {tokens gaps : List Token} {program : Program}
    (hended : cursor.endToken.kind = .endOfFile) (hprogram : IsProgram cursor.source tokens program)
    (homits : Omits tokens cursor.pending gaps) :
    Grammar.program cursor = .ok program { cursor.past cursor.pending [] with
      diagnostics := cursor.diagnostics ++ gaps.map missingSeparator } := by
  generalize hafter : ({ cursor.past cursor.pending [] with
    diagnostics := cursor.diagnostics ++ gaps.map missingSeparator } : Cursor) = after
  have htook : cursor.TookOver cursor.pending gaps after := by
    rw [← hafter]
    exact ⟨(List.append_nil _).symm, rfl⟩
  have hkind : after.current.kind = .endOfFile := by
    rw [← hafter]
    exact hended
  have hstatements : statements cursor = .ok program after :=
    bind_ok rfl (statementsWithin_readsLists _ _ hprogram homits rfl htook (.of_endOfFile hkind)
      (Nat.le_refl _))
  have hsees : after.sees [.endOfFile] = true := Cursor.sees_endOfFile hkind
  exact bind_ok rfl (programWithin_of_statements hstatements hsees (Nat.le_refl _))

/-- A source whose tokens have a tree is read as this tree, without mistakes. -/
theorem ofStream_of_isProgram {source : String} {program : Program}
    (hprogram : IsProgram source (TokenStream.ofSource source).pending program) :
    Program.ofStream (.ofSource source) = .ok (program, []) := by
  have hrun : Grammar.program (.ofStream (.ofSource source)) = .ok program _ :=
    program_of_omits (Cursor.sound_ofStream source).ended hprogram (.refl _)
  rw [Program.ofStream, hrun]
  rfl

/-! ## The language that is read -/

/-- A source is read without mistakes exactly if the categories of its tokens
derive from the grammar, and what is read is then the tree of the derivation: it
has all tokens of the source, each at its place. -/
theorem ofStream_accepts_exactly_grammar (source : String) :
    ((∃ program, Program.ofStream (.ofSource source) = .ok (program, [])) ↔
      Derives .statements ((TokenStream.ofSource source).pending.map Token.kind)) ∧
    ∀ program, Program.ofStream (.ofSource source) = .ok (program, []) ↔
      IsProgram source (TokenStream.ofSource source).pending program := by
  have htree : ∀ program, Program.ofStream (.ofSource source) = .ok (program, []) ↔
      IsProgram source (TokenStream.ofSource source).pending program := by
    intro program
    exact ⟨isProgram_of_ofStream, ofStream_of_isProgram⟩
  refine ⟨?_, htree⟩
  constructor
  · intro hread
    rcases hread with ⟨program, hread⟩
    exact ((htree program).1 hread).derives
  · intro hderives
    have hknown : ∀ token ∈ (TokenStream.ofSource source).pending, token.Known := by
      intro token htoken
      exact (TokenStream.scanned_ofSource source token htoken).known
    rcases exists_isProgram source hderives hknown with ⟨program, hprogram⟩
    exact ⟨program, (htree program).2 hprogram⟩

/-! ## Sources with missing separators -/

/-- Missing separators lose nothing.  If the tokens of a stream are those of a
program from which some separators between statements were left out, they are
read as the tree of the whole program, and the mistakes are the gaps: one for
each, in order, about the token that begins the statement after the gap. -/
theorem ofStream_of_missing_separators {stream : TokenStream} {tokens gaps : List Token}
    (hended : stream.endToken.kind = .endOfFile)
    (hderives : Derives .statements (tokens.map Token.kind))
    (hknown : ∀ token ∈ tokens, token.Known) (homits : Omits tokens stream.pending gaps) :
    ∃ program, IsProgram stream.source tokens program ∧
      Program.ofStream { stream with pending := tokens } = .ok (program, []) ∧
      Program.ofStream stream = .ok (program, gaps.map missingSeparator) := by
  rcases exists_isProgram stream.source hderives hknown with ⟨program, hprogram⟩
  have hread : ∀ {left gaps : List Token}, Omits tokens left gaps →
      Program.ofStream { stream with pending := left } =
        .ok (program, gaps.map missingSeparator) := by
    intro left gaps homits
    have hrun : Grammar.program (.ofStream { stream with pending := left }) = .ok program _ :=
      program_of_omits hended hprogram homits
    rw [Program.ofStream, hrun]
    rfl
  exact ⟨program, hprogram, hread (.refl tokens), hread homits⟩

/-- A source without the separators in the body of its loop and after the loop. -/
def runTogether : String := "for i in 1..2 do read x print i end for print x"

/-- The tokens of the source with its separators. -/
def setApart : List Token :=
  [⟨.forKeyword, "for", 1, 1, 0, 3⟩, ⟨.identifier, "i", 1, 5, 4, 5⟩,
    ⟨.inKeyword, "in", 1, 7, 6, 8⟩, ⟨.integerLiteral, "1", 1, 10, 9, 10⟩,
    ⟨.range, "..", 1, 11, 10, 12⟩, ⟨.integerLiteral, "2", 1, 13, 12, 13⟩,
    ⟨.doKeyword, "do", 1, 15, 14, 16⟩, ⟨.readKeyword, "read", 1, 18, 17, 21⟩,
    ⟨.identifier, "x", 1, 23, 22, 23⟩, ⟨.semicolon, ";", 1, 24, 23, 23⟩,
    ⟨.printKeyword, "print", 1, 25, 24, 29⟩, ⟨.identifier, "i", 1, 31, 30, 31⟩,
    ⟨.endKeyword, "end", 1, 33, 32, 35⟩, ⟨.forKeyword, "for", 1, 37, 36, 39⟩,
    ⟨.semicolon, ";", 1, 40, 39, 39⟩, ⟨.printKeyword, "print", 1, 41, 40, 45⟩,
    ⟨.identifier, "x", 1, 47, 46, 47⟩]

/-- Both gaps are found, and the loop and the statement after it are read. -/
theorem ofStream_runTogether :
    ∃ program, IsProgram runTogether setApart program ∧
      Program.ofStream (.ofSource runTogether) =
        .ok (program, [missingSeparator ⟨.printKeyword, "print", 1, 25, 24, 29⟩,
          missingSeparator ⟨.printKeyword, "print", 1, 41, 40, 45⟩]) := by
  have hname : Derives .expression [.identifier] := .single (.bare .identifier)
  have hnumber : Derives .expression [.integerLiteral] := .single (.bare (.literal rfl))
  have hbody : Derives .statements
      [.readKeyword, .identifier, .semicolon, .printKeyword, .identifier] :=
    .separated .read (.last (.print hname))
  have hderives : Derives .statements (setApart.map Token.kind) :=
    .separated (.loop hnumber hnumber hbody) (.last (.print hname))
  have hpending : (TokenStream.ofSource runTogether).pending =
      setApart.filter fun token => token.kind != .semicolon := by
    decide +kernel
  have homits : Omits setApart (TokenStream.ofSource runTogether).pending
      [⟨.printKeyword, "print", 1, 25, 24, 29⟩, ⟨.printKeyword, "print", 1, 41, 40, 45⟩] := by
    rw [hpending]
    repeat first
      | exact .nil
      | apply Omits.gap rfl (by decide)
      | apply Omits.keep
  obtain ⟨program, hprogram, -, hread⟩ :=
    ofStream_of_missing_separators rfl hderives (by decide) homits
  exact ⟨program, hprogram, hread⟩

end Grammar

end LoopLang
