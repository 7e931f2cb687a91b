import LoopLang.Grammar.Program
import LoopLang.Proofs.Expr.Precedence
import LoopLang.Proofs.Grammar.Reading
import LoopLang.Proofs.Grammar.Tree

/-!
# Reading without a complaint

Each reader that makes no complaint has taken the tokens of its phrase and gives
the tree of their derivation.  The readers of statements are followed step by
step; the readers of lists and groups by induction on the bound of their
recursion.

Main results:

- Theorem `Reads.expression`: an expression is read as its reference tree.
- Theorem `Reads.statementWith`: a statement is read as its tree.
- Theorem `Reads.statementsWithin`: so is a list of statements.
- Theorem `isProgram_of_ofStream`: a program without mistakes is the tree of all
  tokens of its source.
-/

namespace LoopLang

/-- The operators of a source are known. -/
theorem Token.Scanned.known {token : Token} (hscanned : token.Scanned) : token.Known := by
  rintro (hkind | hkind)
  · rcases hscanned.binary hkind with ⟨op, hop, -⟩
    rw [hop]
    rfl
  · rw [hscanned.unary hkind]
    rfl

namespace Grammar

/-! ## Expressions -/

/-- Goes on after the tokens of a term: an operator leads to more terms. -/
def chainFrom (terms : Parse (List Token)) (term : List Token) : Parse (List Token) := do
  if ← accept [.binaryOperator] then
    let operator := (← get).accepted
    let more ← terms
    return term ++ operator :: more
  else
    return term

/-- A term, and what comes after it. -/
theorem expressionTokensWithin_succ (bound : Nat) :
    expressionTokensWithin (bound + 1) = (do
      let operators ← unaryOperators
      let operand ← expect operandFirst expressionFollow
      let group ←
        if operand.kind = .leftBracket then do
          let inner ← expressionTokensWithin bound
          let close ← expect [.rightBracket] expressionFollow
          pure (inner ++ [close])
        else pure []
      chainFrom (expressionTokensWithin bound) (operators ++ operand :: group)) := by
  rfl

/-- Any number of prefix operators may stand in front of an operand. -/
theorem derives_term_of_operand {operators : List Token}
    (hoperators : ∀ token ∈ operators, token.kind = .unaryOperator) {kinds : List TokenKind}
    (hoperand : Derives .operand kinds) :
    Derives .term (operators.map Token.kind ++ kinds) := by
  induction operators with
  | nil => exact .bare hoperand
  | cons token rest ih =>
    have hrest := ih fun other hother => hoperators other (List.mem_cons_of_mem token hother)
    rw [List.map_cons, hoperators token List.mem_cons_self]
    exact .prefixed hrest

/-- A category that can begin an operand and opens no group is one. -/
theorem derives_operand_of_mem {kind : TokenKind} (hmem : kind ∈ operandFirst)
    (hbracket : kind ≠ .leftBracket) : Derives .operand [kind] := by
  simp only [operandFirst, List.mem_cons, List.not_mem_nil, or_false] at hmem
  rcases hmem with rfl | rfl | rfl | rfl | rfl
  · exact .literal rfl
  · exact .literal rfl
  · exact .literal rfl
  · exact .identifier
  · exact absurd rfl hbracket

namespace Reads

variable {condition : Prop} {cursor : Cursor}

/-- All prefix operators at the front are taken. -/
theorem unaryOperators (hsound : condition → cursor.Sound) :
    Reads condition Grammar.unaryOperators cursor fun operators after =>
      condition ∧ after.Sound ∧ cursor.Took operators after ∧
        ∀ token ∈ operators, token.kind = .unaryOperator := by
  refine ⟨.takeWhile cursor _, fun hcondition _ => ?_⟩
  have htook : cursor.Took (cursor.pending.takeWhile fun token => token.kind == .unaryOperator)
      (cursor.takeWhile fun token => token.kind == .unaryOperator) :=
    ⟨(List.takeWhile_append_dropWhile).symm, rfl⟩
  refine ⟨hcondition, (hsound hcondition).took htook, htook, ?_⟩
  intro token htoken
  exact eq_of_beq (List.all_eq_true.1 List.all_takeWhile token htoken)

/-- Without a complaint, the collected tokens are those of an expression. -/
def CollectsWithin (bound : Nat) : Prop :=
  ∀ {condition : Prop} {cursor : Cursor},
    (condition → cursor.Sound ∧ cursor.pending.length ≤ bound) →
      Reads condition (Grammar.expressionTokensWithin bound) cursor fun tokens after =>
        condition ∧ after.Sound ∧ cursor.Took tokens after ∧
          Derives .expression (tokens.map Token.kind)

/-- After a term, an operator leads to more terms. -/
theorem chainFrom (start : Cursor) {bound : Nat} (hmore : CollectsWithin bound)
    {term : List Token} (hterm : term ≠ [])
    (hstart : condition → start.pending.length ≤ bound + 1 ∧ cursor.Sound ∧
      start.Took term cursor ∧ Derives .term (term.map Token.kind)) :
    Reads condition (Grammar.chainFrom (Grammar.expressionTokensWithin bound) term) cursor
      fun tokens after =>
        condition ∧ after.Sound ∧ start.Took tokens after ∧
          Derives .expression (tokens.map Token.kind) := by
  refine bind (accept (by decide) fun h => (hstart h).2.1) fun accepted c₁ => ?_
  cases accepted with
  | false =>
    apply pure
    rintro ⟨hcondition, hsound, ⟨hfalse, -⟩ | ⟨-, rfl, -⟩⟩
    · cases hfalse
    · rcases hstart hcondition with ⟨-, -, htook, hderives⟩
      exact ⟨hcondition, hsound, htook, .single hderives⟩
  | true =>
    refine get_bind (bind (hmore ?_) fun terms c₂ => pure ?_)
    · rintro ⟨hcondition, hsound, ⟨-, token, hoperator, -⟩ | ⟨hfalse, -⟩⟩
      · rcases hstart hcondition with ⟨hbound, -, htook, -⟩
        have hlength := (htook.trans hoperator).length_eq
        have hpositive := List.length_pos_iff.2 hterm
        simp only [List.length_append, List.length_singleton] at hlength
        exact ⟨hsound, by omega⟩
      · cases hfalse
    · intro hparts
      rcases hparts with ⟨⟨hcondition, -, haccepted⟩, hsound, hterms, hexpression⟩
      rcases haccepted with ⟨-, token, hoperator, hkind⟩ | ⟨hfalse, -⟩
      · rcases hstart hcondition with ⟨-, -, htook, hderives⟩
        rw [hoperator.accepted_eq, List.map_append, List.map_cons, List.mem_singleton.1 hkind]
        refine ⟨hcondition, hsound, ?_, .chain hderives hexpression⟩
        simpa using (htook.trans hoperator).trans hterms
      · cases hfalse

/-- The tokens that were collected are those of an expression. -/
theorem expressionTokensWithin (bound : Nat) : CollectsWithin bound := by
  induction bound with
  | zero =>
    intro condition cursor hcursor
    unfold Grammar.expressionTokensWithin
    refine bind (expect expressionFollow (by decide) fun h => (hcursor h).1) fun operand c₁ => ?_
    apply pure
    rintro ⟨hcondition, -, htook, -⟩
    have hlength := htook.length_eq
    have hbound := (hcursor hcondition).2
    simp only [List.length_singleton] at hlength
    omega
  | succ bound ih =>
    intro condition cursor hcursor
    rw [expressionTokensWithin_succ]
    refine bind (unaryOperators fun h => (hcursor h).1) fun operators c₁ => ?_
    refine bind (expect expressionFollow (by decide) fun h => h.2.1) fun operand c₂ => ?_
    by_cases hbracket : operand.kind = .leftBracket
    · rw [if_pos hbracket]
      refine bind (ih ?_) fun inner c₃ => ?_
      · rintro ⟨⟨hcondition, -, hoperators, -⟩, hsound, hoperand, -⟩
        have hlength := (hoperators.trans hoperand).length_eq
        have hbound := (hcursor hcondition).2
        simp only [List.length_append, List.length_singleton] at hlength
        exact ⟨hsound, by omega⟩
      · refine bind (expect expressionFollow (by decide) fun h => h.2.1) fun closing c₄ => ?_
        refine mono (chainFrom cursor ih (by simp) ?_) fun tokens c₅ h => ⟨h.1.1.1.1.1, h.2⟩
        intro hparts
        rcases hparts with ⟨hparts, hsound, hclosing, hkind⟩
        rcases hparts with ⟨hparts, -, hinner, hderives⟩
        rcases hparts with ⟨⟨hcondition, -, hoperators, hunary⟩, -, hoperand, -⟩
        refine ⟨(hcursor hcondition).2, hsound, ?_, ?_⟩
        · simpa using ((hoperators.trans hoperand).trans hinner).trans hclosing
        · have hgroup := derives_term_of_operand hunary (.group hderives)
          simpa [hbracket, List.mem_singleton.1 hkind] using hgroup
    · rw [if_neg hbracket]
      refine mono (chainFrom cursor ih (by simp) ?_) fun tokens c₃ h => ⟨h.1.1.1, h.2⟩
      rintro ⟨⟨hcondition, -, hoperators, hunary⟩, hsound, hoperand, hkind⟩
      refine ⟨(hcursor hcondition).2, hsound, hoperators.trans hoperand, ?_⟩
      have hsingle := derives_term_of_operand hunary (derives_operand_of_mem hkind hbracket)
      simpa using hsingle

/-- Without a complaint, an expression is read as its reference tree. -/
theorem expression (hsound : condition → cursor.Sound) :
    Reads condition Grammar.expression cursor fun expr after =>
      condition ∧ after.Sound ∧
        ∃ tokens, cursor.Took tokens after ∧ Expr.IsExpression tokens expr := by
  refine bind (get_bind (expressionTokensWithin _ fun h => ⟨hsound h, Nat.le_refl _⟩))
    fun tokens after => ?_
  cases htree : Expr.ofTokens tokens with
  | error fault => exact throw fun _ => ⟨fault, rfl⟩
  | ok expr =>
    apply pure
    rintro ⟨hcondition, hafter, htook, hderives⟩
    have hscanned := (hsound hcondition).scanned_taken htook
    obtain ⟨reference, hreference⟩ :=
      Expr.exists_isExpression hderives fun token htoken => (hscanned token htoken).known
    rw [Expr.ofTokens_of_isExpression hreference] at htree
    cases htree
    exact ⟨hcondition, hafter, tokens, htook, hreference⟩

/-! ## Statements -/

/-- Without a complaint, a reader of statements gives the tree of the tokens that
it takes. -/
def ReadsStatement (condition : Prop) (reader : Parse Stmt) (cursor : Cursor) : Prop :=
  Reads condition reader cursor fun stmt after =>
    condition ∧ after.Sound ∧
      ∃ tokens, cursor.Took tokens after ∧ IsStatement cursor.source tokens stmt

/-- A read statement that is read without a complaint is one. -/
theorem readStatement
    (hcursor : condition → cursor.Sound ∧ cursor.current.kind = .readKeyword) :
    ReadsStatement condition Grammar.readStatement cursor := by
  refine bind (acceptNext (by decide) hcursor) fun _ c₁ => ?_
  refine bind (expect [] (by decide) fun h => h.2.1) fun name c₂ => pure ?_
  rintro ⟨⟨hcondition, -, keyword, hkeyword, hread⟩, hsound, hname, hkind⟩
  exact ⟨hcondition, hsound, _, hkeyword.trans hname, .read hread (List.mem_singleton.1 hkind)⟩

theorem printStatement
    (hcursor : condition → cursor.Sound ∧ cursor.current.kind = .printKeyword) :
    ReadsStatement condition Grammar.printStatement cursor := by
  refine bind (acceptNext (by decide) hcursor) fun _ c₁ => ?_
  refine bind (expression fun h => h.2.1) fun value c₂ => pure ?_
  rintro ⟨⟨hcondition, -, keyword, hkeyword, hprint⟩, hsound, tokens, hvalue, hexpr⟩
  exact ⟨hcondition, hsound, _, hkeyword.trans hvalue, .print hprint hexpr⟩

theorem assignment
    (hcursor : condition → cursor.Sound ∧ cursor.current.kind = .identifier) :
    ReadsStatement condition Grammar.assignment cursor := by
  refine bind (acceptNext (by decide) hcursor) fun _ c₁ => ?_
  refine get_bind (bind (expectPart expressionFirst (by decide) fun h => h.2.1) fun sign c₂ => ?_)
  refine bind (expression fun h => h.2.1) fun value c₃ => ?_
  cases sign with
  | none =>
    apply throw
    rintro ⟨⟨-, -, token, hnone, -⟩, -⟩
    cases hnone
  | some sign =>
    apply pure
    intro hparts
    rcases hparts with ⟨hparts, hsound, tokens, hvalue, hexpr⟩
    rcases hparts with ⟨hparts, -, token, -, hsign, hkind⟩
    rcases hparts with ⟨hcondition, -, name, hname, hidentifier⟩
    rw [hname.accepted_eq]
    refine ⟨hcondition, hsound, _, (hname.trans hsign).trans hvalue, ?_⟩
    exact .assignment hidentifier (List.mem_singleton.1 hkind) hexpr

theorem declaration
    (hcursor : condition → cursor.Sound ∧ cursor.current.kind = .varKeyword) :
    ReadsStatement condition Grammar.declaration cursor := by
  refine bind (acceptNext (by decide) hcursor) fun _ c₁ => ?_
  refine bind (expectPart [.colon] (by decide) fun h => h.2.1) fun name c₂ => ?_
  refine bind (expectPart types (by decide) fun h => h.2.1) fun colon c₃ => ?_
  refine bind (skippable (expect [.assignment] (by decide) fun h => h.2.1)) fun typeToken c₄ => ?_
  refine bind (accept (by decide) fun h => h.2.1) fun accepted c₅ => ?_
  refine ite_bind (fun initial c₆ => (initial = none ∧ c₄.Took [] c₆) ∨
      ∃ sign tokens value, initial = some value ∧ c₄.Took (sign :: tokens) c₆ ∧
        sign.kind = .assignment ∧ Expr.IsExpression tokens value) ?_ ?_ fun initial c₆ => ?_
  · rintro rfl
    refine map (mono (expression fun h => h.2.1) ?_)
    rintro value c₆ ⟨hbefore, hsound, tokens, hvalue, hexpr⟩
    rcases hbefore.2.2 with ⟨-, sign, hsign, hkind⟩ | ⟨hfalse, -⟩
    · exact ⟨hbefore, hsound, .inr ⟨sign, tokens, value, rfl, hsign.trans hvalue,
        List.mem_singleton.1 hkind, hexpr⟩⟩
    · cases hfalse
  · rintro rfl
    refine pure fun hbefore => ?_
    rcases hbefore.2.2 with ⟨hfalse, -⟩ | ⟨-, rfl, -⟩
    · cases hfalse
    · exact ⟨hbefore, hbefore.2.1, .inl ⟨rfl, .refl c₅⟩⟩
  split
  · split
    · next ty hty =>
      apply pure
      intro hparts
      rcases hparts with ⟨⟨hparts, -⟩, hsound, hinitial⟩
      rcases hparts with ⟨hparts, -, _, ⟨⟩, htype, -⟩
      rcases hparts with ⟨hparts, -, colon, -, hcolon, hcolonKind⟩
      rcases hparts with ⟨hparts, -, _, ⟨⟩, hname, hidentifier⟩
      rcases hparts with ⟨hcondition, -, keyword, hkeyword, hvar⟩
      have hhead := ((hkeyword.trans hname).trans hcolon).trans htype
      rcases hinitial with ⟨rfl, hnone⟩ | ⟨sign, tokens, value, rfl, hvalue, hsign, hexpr⟩
      · refine ⟨hcondition, hsound, _, hhead.trans hnone, ?_⟩
        exact .declaration hvar (List.mem_singleton.1 hidentifier) (List.mem_singleton.1 hcolonKind)
          hty
      · refine ⟨hcondition, hsound, _, hhead.trans hvalue, ?_⟩
        exact .initialised hvar (List.mem_singleton.1 hidentifier) (List.mem_singleton.1 hcolonKind)
          hty hsign hexpr
    · exact throw fun _ => ⟨_, rfl⟩
  · next hparts =>
    apply throw
    intro hthere
    rcases hthere with ⟨⟨hthere, -⟩, -⟩
    rcases hthere with ⟨hthere, -, typeToken, htype, -⟩
    rcases hthere with ⟨⟨-, -, name, hname, -⟩, -, colon, hcolon, -⟩
    exact (hparts name colon typeToken hname hcolon htype).elim

theorem assertion
    (hcursor : condition → cursor.Sound ∧ cursor.current.kind = .assertKeyword) :
    ReadsStatement condition Grammar.assertion cursor := by
  refine bind (acceptNext (by decide) hcursor) fun _ c₁ => get_bind ?_
  refine bind (expectPart expressionFirst (by decide) fun h => h.2.1) fun opening c₂ => ?_
  refine get_bind (part_bind (expression fun h => h.2.1) fun tested c₃ => get_bind ?_)
  refine bind (skippable (expect [] (by decide) fun h => h.2.1)) fun closing c₄ => ?_
  split
  · refine get_bind (pure ?_)
    intro hparts
    rcases hparts with ⟨hparts, hsound, closing, -, hclosing, hright⟩
    rcases hparts with ⟨hparts, -, _, ⟨⟩, tokens, htested, hexpr⟩
    rcases hparts with ⟨hparts, -, opening, -, hopening, hleft⟩
    rcases hparts with ⟨hcondition, -, keyword, hkeyword, hassert⟩
    have hwhole := ((hkeyword.trans hopening).trans htested).trans hclosing
    have hquote : c₄.quote c₂.current c₃.accepted = quotation cursor.source tokens := by
      rw [Cursor.quote, quotation, hwhole.source_eq, htested.current_eq hexpr.ne_nil,
        htested.accepted_eq_getLastD hexpr.ne_nil]
    rw [hkeyword.accepted_eq, hquote]
    refine ⟨hcondition, hsound, _, by simpa using hwhole, ?_⟩
    exact .assertion hassert (List.mem_singleton.1 hleft) hexpr (List.mem_singleton.1 hright)
  · next hparts =>
    apply throw
    intro hthere
    rcases hthere with ⟨hthere, -, closing, hclosing, -⟩
    rcases hthere with ⟨⟨-, -, opening, hopening, -⟩, -, tested, htested, -⟩
    exact (hparts opening tested closing hopening htested hclosing).elim

/-- Without a complaint, a reader of lists gives the trees of the tokens that it
takes. -/
def ReadsProgram (condition : Prop) (reader : Parse Program) (cursor : Cursor) : Prop :=
  Reads condition reader cursor fun program after =>
    condition ∧ after.Sound ∧
      ∃ tokens, cursor.Took tokens after ∧ IsProgram cursor.source tokens program

/-- A loop that is read without a complaint is one, if this is so of its body. -/
theorem loop {body : Parse Program}
    (hbody : ∀ {condition : Prop} {cursor : Cursor},
      (condition → cursor.Sound) → ReadsProgram condition body cursor)
    (hcursor : condition → cursor.Sound ∧ cursor.current.kind = .forKeyword) :
    ReadsStatement condition (Grammar.loop body) cursor := by
  refine bind (acceptNext (by decide) hcursor) fun _ c₁ => ?_
  refine bind (expectPart [.inKeyword] (by decide) fun h => h.2.1) fun counter c₂ => ?_
  refine bind (expectPart expressionFirst (by decide) fun h => h.2.1) fun inWord c₃ => ?_
  refine part_bind (expression fun h => h.2.1) fun first c₄ => ?_
  refine bind (expectPart expressionFirst (by decide) fun h => h.2.1) fun range c₅ => ?_
  refine part_bind (expression fun h => h.2.1) fun last c₆ => ?_
  refine bind (skippable (expect bodyFirst (by decide) fun h => h.2.1)) fun doWord c₇ => ?_
  refine bind (hbody fun h => h.2.1) fun program c₈ => ?_
  refine bind (skippable (expect [.forKeyword] (by decide) fun h => h.2.1)) fun endWord c₉ => ?_
  refine bind (skippable (expect [] (by decide) fun h => h.2.1)) fun forWord c₁₀ => ?_
  split
  · apply pure
    intro hparts
    rcases hparts with ⟨hparts, hsound, forWord, -, hclose, hcloseKind⟩
    rcases hparts with ⟨hparts, -, endWord, -, hend, hendKind⟩
    rcases hparts with ⟨hparts, -, bodyTokens, hbody, hbodyTree⟩
    rcases hparts with ⟨hparts, -, doWord, -, hdo, hdoKind⟩
    rcases hparts with ⟨hparts, -, _, ⟨⟩, lastTokens, hlast, hlastExpr⟩
    rcases hparts with ⟨hparts, -, range, -, hrange, hrangeKind⟩
    rcases hparts with ⟨hparts, -, _, ⟨⟩, firstTokens, hfirst, hfirstExpr⟩
    rcases hparts with ⟨hparts, -, inWord, -, hin, hinKind⟩
    rcases hparts with ⟨hparts, -, _, ⟨⟩, hcounter, hidentifier⟩
    rcases hparts with ⟨hcondition, -, keyword, hkeyword, hfor⟩
    have hhead := ((((((hkeyword.trans hcounter).trans hin).trans hfirst).trans hrange).trans
      hlast).trans hdo)
    have hwhole := ((hhead.trans hbody).trans hend).trans hclose
    rw [hhead.source_eq] at hbodyTree
    refine ⟨hcondition, hsound, _, by simpa using hwhole, ?_⟩
    exact .loop hfor (List.mem_singleton.1 hidentifier) (List.mem_singleton.1 hinKind) hfirstExpr
      (List.mem_singleton.1 hrangeKind) hlastExpr (List.mem_singleton.1 hdoKind) hbodyTree
      (List.mem_singleton.1 hendKind) (List.mem_singleton.1 hcloseKind)
  · next hparts =>
    apply throw
    intro hthere
    rcases hthere with ⟨hthere, -, forWord, hfor, -⟩
    rcases hthere with ⟨⟨hthere, -⟩, -, endWord, hend, -⟩
    rcases hthere with ⟨hthere, -, doWord, hdo, -⟩
    rcases hthere with ⟨hthere, -, last, hlast, -⟩
    rcases hthere with ⟨hthere, -, range, hrange, -⟩
    rcases hthere with ⟨hthere, -, first, hfirst, -⟩
    rcases hthere with ⟨⟨-, -, counter, hcounter, -⟩, -, inWord, hin, -⟩
    exact (hparts counter inWord first range last doWord endWord forWord hcounter hin hfirst hrange
      hlast hdo hend hfor).elim

/-- Without a complaint, a statement is read as its tree. -/
theorem statementWith {body : Parse Program}
    (hbody : ∀ {condition : Prop} {cursor : Cursor},
      (condition → cursor.Sound) → ReadsProgram condition body cursor)
    (hsound : condition → cursor.Sound) :
    ReadsStatement condition (Grammar.statementWith body) cursor := by
  apply get_bind
  split
  · next hkind => exact declaration fun h => ⟨hsound h, hkind⟩
  · next hkind => exact assignment fun h => ⟨hsound h, hkind⟩
  · next hkind => exact loop hbody fun h => ⟨hsound h, hkind⟩
  · next hkind => exact readStatement fun h => ⟨hsound h, hkind⟩
  · next hkind => exact printStatement fun h => ⟨hsound h, hkind⟩
  · next hkind => exact assertion fun h => ⟨hsound h, hkind⟩
  · exact bind (unexpected statementFirst) fun _ _ => throw False.elim

/-! ## Lists of statements -/

/-- Without a complaint, a statement of a list is read to its end. -/
theorem attempt {reader : Parse Stmt} (hreader : ReadsStatement condition reader cursor) :
    Reads condition (Grammar.attempt reader) cursor fun result after =>
      condition ∧ after.Sound ∧ ∃ stmt tokens, result = .complete stmt ∧
        cursor.Took tokens after ∧ IsStatement cursor.source tokens stmt := by
  unfold ReadsStatement Reads at hreader
  unfold Reads Grammar.attempt
  cases hrun : reader cursor with
  | ok stmt after =>
    rw [hrun] at hreader
    refine ⟨hreader.1, fun hcondition hquiet => ?_⟩
    rcases hreader.2 hcondition hquiet with ⟨-, hafter, tokens, htook, hstmt⟩
    exact ⟨hcondition, hafter, stmt, tokens, rfl, htook, hstmt⟩
  | error stop after =>
    rw [hrun] at hreader
    cases stop with
    | fatal fault => exact hreader
    | skip | halt =>
      refine ⟨hreader.1, fun hcondition hquiet => ?_⟩
      rcases hreader.2 hcondition hquiet with ⟨fault, hfault⟩
      cases hfault

/-- Without a complaint, a list of statements is read as its trees. -/
theorem statementsWithin (bound : Nat) :
    ∀ {condition : Prop} {cursor : Cursor}, (condition → cursor.Sound) →
      ReadsProgram condition (Grammar.statementsWithin bound) cursor := by
  induction bound with
  | zero =>
    intro condition cursor hsound
    exact pure fun hcondition => ⟨hcondition, hsound hcondition, [], .refl cursor, .empty⟩
  | succ bound ih =>
    intro condition cursor hsound
    unfold Grammar.statementsWithin
    apply get_bind
    by_cases hfirst : cursor.sees statementFirst = true
    · rw [if_pos hfirst]
      refine bind (attempt (statementWith ih hsound)) fun result c₁ => ?_
      refine bind (accept (by decide) fun h => h.2.1) fun separated c₂ => ?_
      split
      · next hmore =>
        refine bind (ih fun h => h.2.1) fun program c₃ => pure ?_
        intro hparts
        rcases hparts with ⟨⟨hparts, -, hseparated⟩, hafter, rest, hrest, hprogram⟩
        rcases hparts with ⟨hcondition, -, stmt, tokens, rfl, htook, hstmt⟩
        rcases hseparated with ⟨-, separator, hseparator, hkind⟩ | ⟨rfl, -⟩
        · rw [(htook.trans hseparator).source_eq] at hprogram
          refine ⟨hcondition, hafter, _, (htook.trans hseparator).trans hrest, ?_⟩
          simpa [Attempt.toList] using IsProgram.separated hstmt (List.mem_singleton.1 hkind) hprogram
        · cases hmore
      · next hdone =>
        apply get_bind
        split
        · refine bind (unexpected [.semicolon]) fun _ c₃ => ?_
          exact bind (ih False.elim) fun _ _ => pure fun h => h.1.elim
        · apply pure
          rintro ⟨⟨hcondition, -, stmt, tokens, rfl, htook, hstmt⟩, hafter, hseparated⟩
          rcases hseparated with ⟨rfl, -⟩ | ⟨-, rfl, -⟩
          · exact absurd rfl hdone
          · exact ⟨hcondition, hafter, tokens, htook, .last hstmt⟩
    · rw [if_neg hfirst]
      exact pure fun hcondition => ⟨hcondition, hsound hcondition, [], .refl cursor, .empty⟩

/-- A list of statements that is read without a complaint is a program. -/
theorem statementsOrNone (hsound : condition → cursor.Sound) :
    ReadsProgram condition Grammar.statementsOrNone cursor := by
  have hstatements : ReadsProgram condition Grammar.statements cursor :=
    get_bind (statementsWithin _ hsound)
  unfold ReadsProgram Reads at hstatements ⊢
  unfold Grammar.statementsOrNone
  cases hrun : Grammar.statements cursor with
  | ok program after =>
    rw [hrun] at hstatements
    exact hstatements
  | error stop after =>
    rw [hrun] at hstatements
    cases stop with
    | fatal fault => exact hstatements
    | skip | halt =>
      refine ⟨hstatements.1, fun hcondition hquiet => ?_⟩
      rcases hstatements.2 hcondition hquiet with ⟨fault, hfault⟩
      cases hfault

/-- Without a complaint, one list of statements takes all tokens. -/
theorem programWithin (bound : Nat) : ∀ {condition : Prop} {cursor : Cursor},
    (condition → cursor.Sound ∧ cursor.pending.length ≤ bound) →
      Reads condition (Grammar.programWithin bound) cursor fun program _ =>
        condition ∧ IsProgram cursor.source cursor.pending program := by
  induction bound with
  | zero =>
    intro condition cursor hcursor
    refine pure fun hcondition => ⟨hcondition, ?_⟩
    rw [List.length_eq_zero_iff.1 (Nat.le_zero.1 (hcursor hcondition).2)]
    exact .empty
  | succ bound ih =>
    intro condition cursor hcursor
    unfold Grammar.programWithin
    refine bind (statementsOrNone fun h => (hcursor h).1) fun front c₁ => get_bind ?_
    split
    · next hend =>
      apply pure
      rintro ⟨hcondition, hsound, tokens, htook, hprogram⟩
      rw [htook.pending_eq, hsound.pending_eq_nil hend, List.append_nil]
      exact ⟨hcondition, hprogram⟩
    · refine get_bind (bind (unexpected _) fun _ c₂ => ?_)
      have hskip : Reads False (modify Cursor.skipToStatement) c₂ fun _ _ => False :=
        ⟨.discard c₂ _, False.elim⟩
      exact bind hskip fun _ _ => bind (ih False.elim) fun _ _ => pure fun h => h.1.elim

end Reads

/-- A program without mistakes is the tree of all tokens of its source. -/
theorem isProgram_of_ofStream {source : String} {program : Program}
    (hread : Program.ofStream (.ofSource source) = .ok (program, [])) :
    IsProgram source (TokenStream.ofSource source).pending program := by
  have hsound := Cursor.sound_ofStream source
  have hreads : Reads True Grammar.program (.ofStream (.ofSource source)) fun program _ =>
      True ∧ IsProgram source (TokenStream.ofSource source).pending program :=
    Reads.get_bind (Reads.programWithin _ fun _ => ⟨hsound, Nat.le_refl _⟩)
  unfold Program.ofStream at hread
  unfold Reads at hreads
  cases hrun : Grammar.program (.ofStream (.ofSource source)) with
  | ok other after =>
    rw [hrun] at hread hreads
    rcases Prod.mk.inj (Except.ok.inj hread) with ⟨rfl, hquiet⟩
    exact (hreads.2 trivial hquiet).2
  | error stop after =>
    rw [hrun] at hread hreads
    cases stop with
    | fatal fault => cases hread
    | skip | halt =>
      rcases Prod.mk.inj (Except.ok.inj hread) with ⟨-, hquiet⟩
      rcases hreads.2 trivial hquiet with ⟨fault, hfault⟩
      cases hfault

end Grammar

end LoopLang
