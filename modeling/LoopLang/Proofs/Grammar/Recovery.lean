import LoopLang.Proofs.Grammar.Formed
import LoopLang.Proofs.Grammar.Soundness

/-!
# Reading with recovery

What holds of a reading however broken the source is.  A reader goes over tokens
of the source, takes some of them and discards others.  The tokens of an
expression that it has collected derive from the grammar, whatever was discarded
between them, so that they have a tree; a type that it has taken names a type.
Hence no reader ends with a fault, and what it gives is made of the tokens that
it went over.

Main definitions:

- `Cursor.Passed`: the tokens between two places of a reading.
- `Passes`: a reader that ends without a fault, with a result as stated.

Main results:

- Theorem `Passes.bind`: two readers, one after the other.
- Theorem `Passes.expect`: an expected token is one of the tokens passed.
- Theorem `Passes.expressionTokensWithin`: collected tokens derive from an
  expression.
- Theorem `madeOf_of_ofStream`: a program is made of tokens of its source.
- Theorem `ofStream_never_faults`: every source is read without a fault.
-/

namespace LoopLang

namespace Grammar

/-! ## Passed tokens -/

namespace Cursor

/-- The cursor has gone over the given tokens, of which some were taken and the
others discarded. -/
structure Passed (before : Cursor) (tokens : List Token) (after : Cursor) : Prop where
  pending_eq : before.pending = tokens ++ after.pending
  endToken_eq : after.endToken = before.endToken

namespace Passed

variable {first second third : Cursor} {tokens others : List Token}

theorem refl (cursor : Cursor) : Passed cursor [] cursor :=
  ⟨rfl, rfl⟩

theorem trans (hfirst : Passed first tokens second) (hsecond : Passed second others third) :
    Passed first (tokens ++ others) third := by
  constructor
  · rw [hfirst.pending_eq, hsecond.pending_eq, List.append_assoc]
  · rw [hsecond.endToken_eq, hfirst.endToken_eq]

theorem of_took (htook : first.Took tokens second) : Passed first tokens second :=
  ⟨htook.pending_eq, htook.endToken_eq⟩

/-- As many tokens are passed over as are discarded. -/
theorem discard (cursor : Cursor) (n : Nat) :
    Passed cursor (cursor.pending.take n) (cursor.discard n) :=
  ⟨(List.take_append_drop n cursor.pending).symm, rfl⟩

theorem complain (cursor : Cursor) (expected : List TokenKind) :
    Passed cursor [] (cursor.complain expected) :=
  ⟨rfl, rfl⟩

/-- The tokens that are left and those that were passed are all that were there. -/
theorem length_eq (hpassed : Passed first tokens second) :
    first.pending.length = tokens.length + second.pending.length := by
  rw [hpassed.pending_eq, List.length_append]

end Passed

/-- Tokens that were passed are tokens of the source. -/
theorem Sound.scanned_passed {before after : Cursor} {tokens : List Token} (hsound : before.Sound)
    (hpassed : before.Passed tokens after) : ∀ token ∈ tokens, token.Scanned := by
  intro token htoken
  exact hsound.scanned token (by rw [hpassed.pending_eq]; exact List.mem_append_left _ htoken)

/-- What comes after tokens that were passed over is tokens of the same source. -/
theorem Sound.passed {before after : Cursor} {tokens : List Token} (hsound : before.Sound)
    (hpassed : before.Passed tokens after) : after.Sound := by
  constructor
  · rw [hpassed.endToken_eq]
    exact hsound.ended
  · intro token htoken
    exact hsound.scanned token (by rw [hpassed.pending_eq]; exact List.mem_append_right _ htoken)

/-- Whatever reading does to a cursor, it goes over tokens. -/
theorem Advances.exists_passed {before after : Cursor} (hmove : before.Advances after) :
    ∃ tokens, before.Passed tokens after := by
  induction hmove with
  | refl cursor => exact ⟨[], .refl cursor⟩
  | take cursor =>
    refine ⟨cursor.pending.take 1, ?_, rfl⟩
    cases hpending : cursor.pending <;> simp [Cursor.take, hpending]
  | takeWhile cursor p =>
    exact ⟨cursor.pending.takeWhile p, List.takeWhile_append_dropWhile.symm, rfl⟩
  | discard cursor n => exact ⟨_, .discard cursor n⟩
  | complain cursor expected => exact ⟨[], .complain cursor expected⟩
  | trans _ _ ihfirst ihsecond =>
    rcases ihfirst with ⟨tokens, hfirst⟩
    rcases ihsecond with ⟨others, hsecond⟩
    exact ⟨tokens ++ others, hfirst.trans hsecond⟩

end Cursor

/-! ## A logic of readers -/

/-- Before the tokens of a source, the reader goes over some tokens.  If it ends
well, then with a result as stated, given the tokens and the place after them; if
it stops short, then not for a fault. -/
def Passes {α : Type} (reader : Parse α) (cursor : Cursor)
    (result : α → List Token → Cursor → Prop) : Prop :=
  cursor.Sound →
    match reader cursor with
    | .ok a after => ∃ passed, cursor.Passed passed after ∧ result a passed after
    | .error stop after => (∃ passed, cursor.Passed passed after) ∧ ∀ fault, stop ≠ .fatal fault

namespace Passes

variable {α β : Type} {cursor : Cursor}

theorem of_ok {reader : Parse α} {result : α → List Token → Cursor → Prop} {a : α}
    {after : Cursor} (hreader : Passes reader cursor result) (hsound : cursor.Sound)
    (hrun : reader cursor = .ok a after) :
    ∃ passed, cursor.Passed passed after ∧ result a passed after := by
  have hends := hreader hsound
  rw [hrun] at hends
  exact hends

/-- A reader that stops short has met no fault. -/
theorem of_error {reader : Parse α} {result : α → List Token → Cursor → Prop} {stop : Stop}
    {after : Cursor} (hreader : Passes reader cursor result) (hsound : cursor.Sound)
    (hrun : reader cursor = .error stop after) :
    (∃ passed, cursor.Passed passed after) ∧ ∀ fault, stop ≠ .fatal fault := by
  have hends := hreader hsound
  rw [hrun] at hends
  exact hends

theorem pure {a : α} {result : α → List Token → Cursor → Prop} (hresult : result a [] cursor) :
    Passes (Pure.pure a) cursor result := by
  intro _
  exact ⟨[], .refl cursor, hresult⟩

/-- A stop that is no fault passes over nothing. -/
theorem throw {stop : Stop} {result : α → List Token → Cursor → Prop}
    (hstop : ∀ fault, stop ≠ .fatal fault) : Passes (MonadExcept.throw stop) cursor result := by
  intro _
  exact ⟨⟨[], .refl cursor⟩, hstop⟩

/-- Two readers, one after the other: the tokens that they pass are joined. -/
theorem bind {reader : Parse α} {next : α → Parse β} {middle : α → List Token → Cursor → Prop}
    {result : β → List Token → Cursor → Prop} (hreader : Passes reader cursor middle)
    (hnext : ∀ a passed after, cursor.Passed passed after → middle a passed after →
      Passes (next a) after fun b more final => result b (passed ++ more) final) :
    Passes (reader >>= next) cursor result := by
  intro hsound
  cases hrun : reader cursor with
  | error stop after =>
    rw [bind_eq_of_error hrun]
    exact hreader.of_error hsound hrun
  | ok a after =>
    rcases hreader.of_ok hsound hrun with ⟨passed, hpassed, hmiddle⟩
    have hrest := hnext a passed after hpassed hmiddle
    rw [bind_eq_of_ok hrun]
    cases hlast : next a after with
    | error stop final =>
      rcases hrest.of_error (hsound.passed hpassed) hlast with ⟨⟨more, hmore⟩, hstop⟩
      exact ⟨⟨passed ++ more, hpassed.trans hmore⟩, hstop⟩
    | ok b final =>
      rcases hrest.of_ok (hsound.passed hpassed) hlast with ⟨more, hmore, hresult⟩
      exact ⟨passed ++ more, hpassed.trans hmore, hresult⟩

/-- A stated result may be replaced by one that follows from it. -/
theorem mono {reader : Parse α} {result weaker : α → List Token → Cursor → Prop}
    (hreader : Passes reader cursor result)
    (hweaker : ∀ a passed after, result a passed after → weaker a passed after) :
    Passes reader cursor weaker := by
  intro hsound
  cases hrun : reader cursor with
  | error stop after => exact hreader.of_error hsound hrun
  | ok a after =>
    rcases hreader.of_ok hsound hrun with ⟨passed, hpassed, hresult⟩
    exact ⟨passed, hpassed, hweaker a passed after hresult⟩

/-- Looking at the cursor changes nothing. -/
theorem get_bind {next : Cursor → Parse β} {result : β → List Token → Cursor → Prop}
    (hnext : Passes (next cursor) cursor result) : Passes (get >>= next) cursor result :=
  hnext

/-- A result that is only passed on in another form. -/
theorem map {f : α → β} {reader : Parse α} {result : β → List Token → Cursor → Prop}
    (hreader : Passes reader cursor fun a passed after => result (f a) passed after) :
    Passes (f <$> reader) cursor result := by
  intro hsound
  cases hrun : reader cursor with
  | error stop after =>
    simp only [Functor.map, EStateM.map, hrun]
    exact hreader.of_error hsound hrun
  | ok a after =>
    simp only [Functor.map, EStateM.map, hrun]
    exact hreader.of_ok hsound hrun

/-- One of two readers, after which the reading goes on in the same way. -/
theorem ite_bind (part : α → List Token → Prop) {accepted : Bool} {left right : Parse α}
    {next : α → Parse β} {result : β → List Token → Cursor → Prop}
    (hleft : Passes left cursor fun a passed _ => part a passed)
    (hright : Passes right cursor fun a passed _ => part a passed)
    (hnext : ∀ a passed after, part a passed →
      Passes (next a) after fun b more final => result b (passed ++ more) final) :
    Passes (if accepted = true then left >>= next else right >>= next) cursor result := by
  cases accepted with
  | true => exact bind hleft fun a passed after _ hpart => hnext a passed after hpart
  | false => exact bind hright fun a passed after _ hpart => hnext a passed after hpart

/-! ### The readers of tokens -/

/-- A token that is accepted is of one of the categories. -/
theorem accept {kinds : List TokenKind} (hend : TokenKind.endOfFile ∉ kinds) :
    Passes (Grammar.accept kinds) cursor fun accepted passed after =>
      accepted = true → passed = [after.accepted] ∧ after.accepted.kind ∈ kinds := by
  intro hsound
  rw [Grammar.accept]
  by_cases hsees : cursor.sees kinds = true
  · rw [if_pos hsees]
    rcases hsound.exists_of_sees hend hsees with ⟨token, rest, hpending, hkind⟩
    have htook := Cursor.Took.take hpending
    refine ⟨[token], .of_took htook, fun _ => ?_⟩
    rw [htook.accepted_eq]
    exact ⟨rfl, hkind⟩
  · rw [if_neg hsees]
    exact ⟨[], .refl cursor, fun hfalse => by cases hfalse⟩

/-- The next token is accepted if it is known to be of the category. -/
theorem acceptNext {kind : TokenKind} (hend : kind ≠ .endOfFile)
    (hcurrent : cursor.current.kind = kind) :
    Passes (Grammar.accept [kind]) cursor fun _ passed after =>
      passed = [after.accepted] ∧ after.accepted.kind = kind := by
  have hsees : cursor.sees [kind] = true := by
    rw [Cursor.sees, Token.isOneOf, hcurrent]
    simp
  intro hsound
  rw [Grammar.accept, if_pos hsees]
  rcases hsound.exists_of_sees (by simpa using hend.symm) hsees with ⟨token, rest, hpending, hkind⟩
  have htook := Cursor.Took.take hpending
  refine ⟨[token], .of_took htook, ?_, ?_⟩
  · rw [htook.accepted_eq]
  · rw [htook.accepted_eq]
    exact List.mem_singleton.1 hkind

theorem unexpected (expected : List TokenKind) :
    Passes (Grammar.unexpected expected) cursor fun _ _ _ => True := by
  intro _
  exact ⟨[], .complain cursor expected, trivial⟩

end Passes

/-- Where recovery finds an expected token, this comes after the tokens passed. -/
theorem isOneOf_of_seek {expected follow : List TokenKind} {endToken : Token}
    {tokens : List Token} {passed : Nat}
    (hseek : seek expected follow endToken tokens = (.found, passed)) :
    ((tokens.drop passed).headD endToken).isOneOf expected = true := by
  induction tokens generalizing passed with
  | nil =>
    unfold seek at hseek
    split at hseek <;> cases hseek
  | cons token rest ih =>
    unfold seek at hseek
    split at hseek
    · cases hseek
    · split at hseek
      · cases hseek
      · split at hseek
        · next hfound =>
          cases hseek
          exact hfound
        · rcases hrest : seek expected follow endToken rest with ⟨landing, n⟩
          rw [hrest] at hseek
          cases hseek
          exact ih hrest

namespace Passes

variable {α β : Type} {cursor : Cursor}

/-- Recovery ends with an expected token, or it stops at a landing. -/
theorem recover {expected : List TokenKind} (follow : List TokenKind)
    (hend : TokenKind.endOfFile ∉ expected) :
    Passes (Grammar.recover expected follow) cursor fun token passed _ =>
      token.kind ∈ expected ∧ [token].Sublist passed := by
  intro hsound
  unfold Grammar.recover
  rcases hseek : seek expected follow cursor.endToken cursor.pending with ⟨landing, n⟩
  have hdiscard := Cursor.Passed.discard cursor n
  cases landing with
  | followed => exact ⟨⟨_, hdiscard⟩, fun fault hfault => by cases hfault⟩
  | blocked => exact ⟨⟨_, hdiscard⟩, fun fault hfault => by cases hfault⟩
  | found =>
    have hsees : (cursor.discard n).sees expected = true := isOneOf_of_seek hseek
    rcases (hsound.passed hdiscard).exists_of_sees hend hsees with ⟨token, rest, hpending, hkind⟩
    have htook := Cursor.Took.take hpending
    have hcurrent : (cursor.discard n).current = token := by rw [Cursor.current, hpending]; rfl
    refine ⟨_, hdiscard.trans (.of_took htook), ?_⟩
    rw [hcurrent]
    exact ⟨hkind, List.sublist_append_right _ _⟩

/-- An expected token is one of the tokens passed. -/
theorem expect {expected : List TokenKind} (follow : List TokenKind)
    (hend : TokenKind.endOfFile ∉ expected) :
    Passes (Grammar.expect expected follow) cursor fun token passed _ =>
      token.kind ∈ expected ∧ [token].Sublist passed := by
  refine bind (accept hend) fun accepted passed c₁ hpassed htaken => ?_
  cases accepted with
  | true =>
    rcases htaken rfl with ⟨rfl, hkind⟩
    exact get_bind (pure ⟨hkind, List.sublist_append_left _ _⟩)
  | false =>
    refine bind (unexpected expected) fun _ more c₂ _ _ => ?_
    refine mono (recover follow hend) fun token last c₃ htoken => ⟨htoken.1, ?_⟩
    exact (htoken.2.trans (List.sublist_append_right _ _)).trans (List.sublist_append_right _ _)

/-! ### Parts of a statement -/

/-- A part that was not skipped is as stated. -/
theorem skippable {reader : Parse α} {result : α → List Token → Cursor → Prop}
    (hreader : Passes reader cursor result) :
    Passes (Grammar.skippable reader) cursor fun part passed after =>
      ∀ a, part = some a → result a passed after := by
  intro hsound
  unfold Grammar.skippable
  cases hrun : reader cursor with
  | ok a after =>
    rcases hreader.of_ok hsound hrun with ⟨passed, hpassed, hresult⟩
    refine ⟨passed, hpassed, ?_⟩
    rintro _ ⟨⟩
    exact hresult
  | error stop after =>
    rcases hreader.of_error hsound hrun with ⟨⟨passed, hpassed⟩, hstop⟩
    cases stop with
    | skip => exact ⟨passed, hpassed, fun a hnone => by cases hnone⟩
    | halt => exact ⟨⟨passed, hpassed⟩, hstop⟩
    | fatal fault => exact absurd rfl (hstop fault)

/-- A part is handed on without passing over a token. -/
theorem resume (part : Option α) :
    Passes (Grammar.resume part) cursor fun again passed _ => again = part ∧ passed = [] := by
  intro _
  by_cases hgiveUp : (part.isNone && cursor.sees statementFollow) = true
  · rw [Grammar.resume, if_pos hgiveUp]
    exact ⟨⟨[], .refl cursor⟩, fun fault hfault => by cases hfault⟩
  · rw [Grammar.resume, if_neg hgiveUp]
    exact ⟨[], .refl cursor, rfl, rfl⟩

/-- A part that may be skipped, after which the statement goes on. -/
theorem part_bind {reader : Parse α} {next : Option α → Parse β} {part : α → List Token → Prop}
    {result : β → List Token → Cursor → Prop}
    (hreader : Passes reader cursor fun a passed _ => part a passed)
    (hnext : ∀ a? passed after, (∀ a, a? = some a → part a passed) →
      Passes (next a?) after fun b more final => result b (passed ++ more) final) :
    Passes (Grammar.skippable reader >>= fun a? => Grammar.resume a? >>= next) cursor result := by
  refine bind (skippable hreader) fun a? passed c₁ _ hpart => ?_
  refine bind (resume a?) fun again none c₂ _ hagain => ?_
  rcases hagain with ⟨rfl, rfl⟩
  exact hnext again passed c₂ hpart

/-- A keyword or sign of a statement is one of the tokens passed over. -/
theorem expectPart {expected : List TokenKind} (follow : List TokenKind)
    (hend : TokenKind.endOfFile ∉ expected) :
    Passes (Grammar.expectPart expected follow) cursor fun part passed _ =>
      ∀ token, part = some token → token.kind ∈ expected ∧ [token].Sublist passed := by
  refine bind (skippable (expect follow hend)) fun part passed c₁ _ hpart => ?_
  refine mono (resume part) fun again none c₂ hagain => ?_
  rcases hagain with ⟨rfl, rfl⟩
  rw [List.append_nil]
  exact hpart

/-! ## Expressions -/

/-- Exactly the prefix operators are passed over. -/
theorem unaryOperators :
    Passes Grammar.unaryOperators cursor fun operators passed _ =>
      passed = operators ∧ ∀ token ∈ operators, token.kind = .unaryOperator := by
  intro _
  refine ⟨_, ⟨List.takeWhile_append_dropWhile.symm, rfl⟩, rfl, ?_⟩
  intro token htoken
  exact eq_of_beq (List.all_eq_true.1 List.all_takeWhile token htoken)

/-- The collected tokens are those of an expression, whatever was discarded
between them. -/
def CollectsWithin (bound : Nat) : Prop :=
  ∀ {cursor : Cursor}, cursor.pending.length ≤ bound →
    Passes (Grammar.expressionTokensWithin bound) cursor fun tokens passed _ =>
      tokens.Sublist passed ∧ Derives .expression (tokens.map Token.kind)

/-- After a term, an operator leads to more terms. -/
theorem chainFrom {bound : Nat} (hmore : CollectsWithin bound) {term : List Token}
    (hterm : Derives .term (term.map Token.kind)) (hbound : cursor.pending.length ≤ bound) :
    Passes (Grammar.chainFrom (Grammar.expressionTokensWithin bound) term) cursor
      fun tokens passed _ => ∃ rest, tokens = term ++ rest ∧ rest.Sublist passed ∧
        Derives .expression (tokens.map Token.kind) := by
  refine bind (accept (by decide)) fun accepted passed c₁ hpassed haccepted => ?_
  cases accepted with
  | false => exact pure ⟨[], by simp, List.nil_sublist _, .single hterm⟩
  | true =>
    rcases haccepted rfl with ⟨rfl, hkind⟩
    have hlength := hpassed.length_eq
    refine get_bind (bind (hmore (by omega)) fun terms more c₂ _ hterms => pure ?_)
    refine ⟨c₁.accepted :: terms, rfl, ?_, ?_⟩
    · simpa using hterms.1.cons_cons c₁.accepted
    · rw [List.map_append, List.map_cons, List.mem_singleton.1 hkind]
      exact .chain hterm hterms.2

/-- The tokens that were collected are those of an expression. -/
theorem expressionTokensWithin (bound : Nat) : CollectsWithin bound := by
  induction bound with
  | zero =>
    intro cursor hbound
    unfold Grammar.expressionTokensWithin
    refine bind (expect expressionFollow (by decide)) fun operand passed c₁ hpassed hoperand => ?_
    have hlength := hpassed.length_eq
    have htaken := hoperand.2.length_le
    simp only [List.length_singleton] at htaken
    omega
  | succ bound ih =>
    intro cursor hbound
    rw [expressionTokensWithin_succ]
    refine bind unaryOperators fun operators p₁ c₁ hp₁ hoperators => ?_
    rcases hoperators with ⟨rfl, hunary⟩
    refine bind (expect expressionFollow (by decide)) fun operand p₂ c₂ hp₂ hoperand => ?_
    rcases hoperand with ⟨hfirst, htaken⟩
    have hleft : c₂.pending.length ≤ bound := by
      have hlength := (hp₁.trans hp₂).length_eq
      have hpositive := htaken.length_le
      simp only [List.length_append, List.length_singleton] at hlength hpositive
      omega
    by_cases hbracket : operand.kind = .leftBracket
    · rw [if_pos hbracket]
      refine bind (ih hleft) fun inner p₃ c₃ hp₃ hinner => ?_
      refine bind (expect expressionFollow (by decide)) fun closing p₄ c₄ hp₄ hclosing => ?_
      have hgroup := derives_term_of_operand hunary (.group hinner.2)
      have hrest : c₄.pending.length ≤ bound := by
        have hlength := (hp₃.trans hp₄).length_eq
        omega
      refine mono (chainFrom ih ?_ hrest) ?_
      · simpa [hbracket, List.mem_singleton.1 hclosing.1] using hgroup
      · rintro tokens p₅ c₅ ⟨rest, rfl, hmore, hderives⟩
        refine ⟨?_, hderives⟩
        have hall := htaken.append (hinner.1.append (hclosing.2.append hmore))
        simpa using hall
    · rw [if_neg hbracket]
      have hsingle := derives_term_of_operand hunary (derives_operand_of_mem hfirst hbracket)
      refine mono (chainFrom ih (by simpa using hsingle) hleft) ?_
      rintro tokens p₃ c₃ ⟨rest, rfl, hmore, hderives⟩
      refine ⟨?_, hderives⟩
      simpa using htaken.append hmore

/-- The tokens of an expression are among those passed over, and they derive from an
expression whatever was recovered from. -/
theorem expressionTokens :
    Passes Grammar.expressionTokens cursor fun tokens passed _ =>
      tokens.Sublist passed ∧ Derives .expression (tokens.map Token.kind) :=
  get_bind (expressionTokensWithin _ (Nat.le_refl _))

/-- Collected tokens of a source have a tree. -/
theorem exists_isExpression_of_passed {after : Cursor} {tokens passed : List Token}
    (hsound : cursor.Sound) (hpassed : cursor.Passed passed after)
    (hsub : tokens.Sublist passed) (hderives : Derives .expression (tokens.map Token.kind)) :
    ∃ expr, Expr.IsExpression tokens expr := by
  apply Expr.exists_isExpression hderives
  intro token htoken
  exact (hsound.scanned_passed hpassed token (hsub.subset htoken)).known

/-- An expression is made of tokens that were passed. -/
theorem expression :
    Passes Grammar.expression cursor fun expr passed _ => expr.MadeOf passed := by
  intro hsound
  refine bind expressionTokens (fun tokens passed after hpassed htokens => ?_) hsound
  rcases exists_isExpression_of_passed hsound hpassed htokens.1 htokens.2 with ⟨expr, hexpr⟩
  rw [Expr.ofTokens_of_isExpression hexpr]
  refine pure ⟨hexpr.madeOf.spelled, ?_⟩
  rw [List.append_nil]
  exact hexpr.madeOf.sublist.trans htokens.1

/-! ## Statements -/

/-- A read statement is made of tokens passed over. -/
theorem readStatement :
    Passes Grammar.readStatement cursor fun stmt passed _ => stmt.MadeOf passed := by
  refine bind (accept (by decide)) fun _ p₁ c₁ _ _ => ?_
  refine bind (expect [] (by decide)) fun name p₂ c₂ _ hname => pure ?_
  constructor
  · exact List.mem_singleton.1 hname.1
  · simpa [Stmt.tokens] using (List.nil_sublist p₁).append hname.2

theorem printStatement :
    Passes Grammar.printStatement cursor fun stmt passed _ => stmt.MadeOf passed := by
  refine bind (accept (by decide)) fun _ p₁ c₁ _ _ => ?_
  refine bind expression fun value p₂ c₂ _ hvalue => pure ?_
  constructor
  · exact hvalue.spelled
  · simpa [Stmt.tokens] using (List.nil_sublist p₁).append hvalue.sublist

/-- An assignment is made of tokens passed over, its name being the first of them. -/
theorem assignment (hcurrent : cursor.current.kind = .identifier) :
    Passes Grammar.assignment cursor fun stmt passed _ => stmt.MadeOf passed := by
  refine bind (acceptNext (by decide) hcurrent) fun _ p₁ c₁ _ hname => get_bind ?_
  refine bind (expectPart expressionFirst (by decide)) fun sign p₂ c₂ _ _ => ?_
  refine bind expression fun value p₃ c₃ _ hvalue => ?_
  cases sign with
  | none => exact throw fun fault hfault => by cases hfault
  | some sign =>
    rcases hname with ⟨rfl, hkind⟩
    apply pure
    constructor
    · exact ⟨hkind, hvalue.spelled⟩
    · have hrest := (List.nil_sublist p₂).append hvalue.sublist
      simpa [Stmt.tokens] using hrest

theorem declaration :
    Passes Grammar.declaration cursor fun stmt passed _ => stmt.MadeOf passed := by
  refine bind (accept (by decide)) fun _ p₁ c₁ _ _ => ?_
  refine bind (expectPart [.colon] (by decide)) fun name p₂ c₂ _ hname => ?_
  refine bind (expectPart types (by decide)) fun colon p₃ c₃ _ _ => ?_
  refine bind (skippable (expect [.assignment] (by decide))) fun typeToken p₄ c₄ _ htype => ?_
  refine bind (accept (by decide)) fun accepted p₅ c₅ _ _ => ?_
  refine ite_bind (fun initial passed => ∀ value, initial = some value → value.MadeOf passed) ?_ ?_
    fun initial p₆ c₆ hinitial => ?_
  · refine map (mono expression fun value passed _ hvalue => ?_)
    rintro _ ⟨⟩
    exact hvalue
  · exact pure fun value hnone => by cases hnone
  split
  · rcases hname _ rfl with ⟨hidentifier, hname⟩
    rcases htype _ rfl with ⟨htypes, htype⟩
    rcases mem_types_iff.1 htypes with ⟨ty, hty⟩
    simp only [hty]
    apply pure
    have hhead := (List.nil_sublist p₁).append
      (hname.append ((List.nil_sublist p₃).append htype))
    constructor
    · refine ⟨List.mem_singleton.1 hidentifier, hty, ?_⟩
      intro value hvalue
      exact (hinitial value hvalue).spelled
    · cases initial with
      | none => simpa [Stmt.tokens] using hhead.append (List.nil_sublist (p₅ ++ p₆))
      | some value =>
        have hvalue := (List.nil_sublist p₅).append (hinitial value rfl).sublist
        simpa [Stmt.tokens] using hhead.append hvalue
  · exact throw fun fault hfault => by cases hfault

/-- An assertion is made of tokens passed over, its keyword being the first of them. -/
theorem assertion (hcurrent : cursor.current.kind = .assertKeyword) :
    Passes Grammar.assertion cursor fun stmt passed _ => stmt.MadeOf passed := by
  refine bind (acceptNext (by decide) hcurrent) fun _ p₁ c₁ _ hkeyword => get_bind ?_
  refine bind (expectPart expressionFirst (by decide)) fun opening p₂ c₂ _ _ => get_bind ?_
  refine part_bind expression fun condition p₃ c₃ hcondition => get_bind ?_
  refine bind (skippable (expect [] (by decide))) fun closing p₄ c₄ _ _ => ?_
  split
  · rcases hkeyword with ⟨rfl, hkind⟩
    have hcondition := hcondition _ rfl
    refine get_bind (pure ?_)
    constructor
    · exact ⟨hkind, hcondition.spelled⟩
    · have hrest := (List.nil_sublist p₂).append
        (hcondition.sublist.append (List.nil_sublist p₄))
      simpa [Stmt.tokens] using hrest
  · exact throw fun fault hfault => by cases hfault

/-- A reader of lists gives statements that are made of the tokens passed. -/
def PassesProgram (reader : Parse Program) (cursor : Cursor) : Prop :=
  Passes reader cursor fun program passed _ => Program.MadeOf passed program

/-- A loop is made of tokens passed over if its body is. -/
theorem loop {body : Parse Program} (hbody : ∀ {cursor : Cursor}, PassesProgram body cursor) :
    Passes (Grammar.loop body) cursor fun stmt passed _ => stmt.MadeOf passed := by
  refine bind (accept (by decide)) fun _ p₁ c₁ _ _ => ?_
  refine bind (expectPart [.inKeyword] (by decide)) fun counter p₂ c₂ _ hcounter => ?_
  refine bind (expectPart expressionFirst (by decide)) fun inWord p₃ c₃ _ _ => ?_
  refine part_bind expression fun first p₄ c₄ hfirst => ?_
  refine bind (expectPart expressionFirst (by decide)) fun range p₅ c₅ _ _ => ?_
  refine part_bind expression fun last p₆ c₆ hlast => ?_
  refine bind (skippable (expect bodyFirst (by decide))) fun doWord p₇ c₇ _ _ => ?_
  refine bind hbody fun program p₈ c₈ _ hprogram => ?_
  refine bind (skippable (expect [.forKeyword] (by decide))) fun endWord p₉ c₉ _ _ => ?_
  refine bind (skippable (expect [] (by decide))) fun forWord p₁₀ c₁₀ _ _ => ?_
  split
  · rcases hcounter _ rfl with ⟨hidentifier, hcounter⟩
    have hfirst := hfirst _ rfl
    have hlast := hlast _ rfl
    apply pure
    constructor
    · exact ⟨List.mem_singleton.1 hidentifier, hfirst.spelled, hlast.spelled, hprogram.formed⟩
    · have htail := (List.nil_sublist p₇).append
        (hprogram.sublist.append (List.nil_sublist (p₉ ++ p₁₀)))
      have hbounds := hfirst.sublist.append
        ((List.nil_sublist p₅).append (hlast.sublist.append htail))
      have hall := (List.nil_sublist p₁).append
        (hcounter.append ((List.nil_sublist p₃).append hbounds))
      simpa [Stmt.tokens] using hall
  · exact throw fun fault hfault => by cases hfault

/-- A statement is made of tokens that were passed. -/
theorem statementWith {body : Parse Program}
    (hbody : ∀ {cursor : Cursor}, PassesProgram body cursor) :
    Passes (Grammar.statementWith body) cursor fun stmt passed _ => stmt.MadeOf passed := by
  apply get_bind
  split
  · exact declaration
  · next hkind => exact assignment hkind
  · exact loop hbody
  · exact readStatement
  · exact printStatement
  · next hkind => exact assertion hkind
  · refine bind (unexpected statementFirst) fun _ _ _ _ _ => throw fun fault hfault => ?_
    cases hfault

/-! ## Lists of statements -/

/-- A statement is kept or left out as a whole. -/
theorem attempt {reader : Parse Stmt}
    (hreader : Passes reader cursor fun stmt passed _ => stmt.MadeOf passed) :
    Passes (Grammar.attempt reader) cursor fun result passed _ =>
      Program.MadeOf passed result.toList := by
  intro hsound
  unfold Grammar.attempt
  cases hrun : reader cursor with
  | ok stmt after =>
    rcases hreader.of_ok hsound hrun with ⟨passed, hpassed, hstmt⟩
    exact ⟨passed, hpassed, Program.madeOf_singleton hstmt⟩
  | error stop after =>
    rcases hreader.of_error hsound hrun with ⟨⟨passed, hpassed⟩, hstop⟩
    cases stop with
    | fatal fault => exact absurd rfl (hstop fault)
    | skip | halt => exact ⟨passed, hpassed, Program.madeOf_nil passed⟩

/-- Statements are made of tokens that were passed. -/
theorem statementsWithin (bound : Nat) :
    ∀ {cursor : Cursor}, PassesProgram (Grammar.statementsWithin bound) cursor := by
  induction bound with
  | zero =>
    intro cursor
    exact pure (Program.madeOf_nil [])
  | succ bound ih =>
    intro cursor
    unfold Grammar.statementsWithin
    apply get_bind
    by_cases hfirst : cursor.sees statementFirst = true
    · rw [if_pos hfirst]
      refine bind (attempt (statementWith ih)) fun result p₁ c₁ _ hresult => ?_
      refine bind (accept (by decide)) fun separated p₂ c₂ _ _ => ?_
      have hmore : ∀ {c₃ : Cursor} (p₃ : List Token),
          Passes (do return result.toList ++ (← Grammar.statementsWithin bound)) c₃
            fun program more _ => Program.MadeOf (p₁ ++ (p₂ ++ (p₃ ++ more))) program := by
        intro c₃ p₃
        refine bind ih fun rest p₄ c₄ _ hrest => pure ?_
        refine hresult.append (hrest.mono ?_)
        simp only [List.append_nil]
        exact (List.sublist_append_right _ _).trans (List.sublist_append_right _ _)
      split
      · simpa using hmore []
      · apply get_bind
        split
        · exact bind (unexpected [.semicolon]) fun _ p₃ c₃ _ _ => hmore p₃
        · exact pure (hresult.mono (List.sublist_append_left _ _))
    · rw [if_neg hfirst]
      exact pure (Program.madeOf_nil [])

/-- A list that breaks off is made of the statements before. -/
theorem statementsOrNone : PassesProgram Grammar.statementsOrNone cursor := by
  have hstatements : PassesProgram Grammar.statements cursor := get_bind (statementsWithin _)
  intro hsound
  unfold Grammar.statementsOrNone
  cases hrun : Grammar.statements cursor with
  | ok program after => exact hstatements.of_ok hsound hrun
  | error stop after =>
    rcases hstatements.of_error hsound hrun with ⟨⟨passed, hpassed⟩, hstop⟩
    cases stop with
    | fatal fault => exact absurd rfl (hstop fault)
    | skip | halt => exact ⟨passed, hpassed, Program.madeOf_nil passed⟩

/-- A program is made of tokens that were passed. -/
theorem programWithin (bound : Nat) :
    ∀ {cursor : Cursor}, PassesProgram (Grammar.programWithin bound) cursor := by
  induction bound with
  | zero =>
    intro cursor
    exact pure (Program.madeOf_nil [])
  | succ bound ih =>
    intro cursor
    unfold Grammar.programWithin
    refine bind statementsOrNone fun front p₁ c₁ _ hfront => get_bind ?_
    split
    · exact pure (hfront.mono (List.sublist_append_left _ _))
    · refine get_bind (bind (unexpected _) fun _ p₂ c₂ _ _ => ?_)
      have hskip : Passes (modify Cursor.skipToStatement) c₂ fun _ _ _ => True :=
        fun _ => ⟨_, .discard c₂ _, trivial⟩
      refine bind hskip fun _ p₃ c₃ _ _ => bind ih fun rest p₄ c₄ _ hrest => pure ?_
      refine hfront.append (hrest.mono ?_)
      simp only [List.append_nil]
      exact (List.sublist_append_right _ _).trans (List.sublist_append_right _ _)

end Passes

/-! ## Every source is read -/

/-- Reading the tokens of a source ends without a fault, and the program is made
of these tokens. -/
theorem exists_ofStream_madeOf (source : String) :
    ∃ program mistakes, Program.ofStream (.ofSource source) = .ok (program, mistakes) ∧
      Program.MadeOf (TokenStream.ofSource source).pending program := by
  have hsound := Cursor.sound_ofStream source
  have hpasses : Passes.PassesProgram Grammar.program (.ofStream (.ofSource source)) :=
    Passes.get_bind (Passes.programWithin _)
  unfold Program.ofStream
  cases hrun : Grammar.program (.ofStream (.ofSource source)) with
  | ok program after =>
    rcases hpasses.of_ok hsound hrun with ⟨passed, hpassed, hprogram⟩
    refine ⟨program, after.diagnostics, rfl, hprogram.mono ?_⟩
    have hpending : (TokenStream.ofSource source).pending = passed ++ after.pending :=
      hpassed.pending_eq
    rw [hpending]
    exact List.sublist_append_left _ _
  | error stop after =>
    rcases hpasses.of_error hsound hrun with ⟨-, hstop⟩
    cases stop with
    | fatal fault => exact absurd rfl (hstop fault)
    | skip | halt => exact ⟨[], after.diagnostics, rfl, Program.madeOf_nil _⟩

/-- A program is made of tokens of its source, whatever mistakes there are. -/
theorem madeOf_of_ofStream {source : String} {program : Program} {mistakes : List Diagnostic}
    (hread : Program.ofStream (.ofSource source) = .ok (program, mistakes)) :
    Program.MadeOf (TokenStream.ofSource source).pending program := by
  rcases exists_ofStream_madeOf source with ⟨other, found, hother, hmadeOf⟩
  rw [hother] at hread
  cases hread
  exact hmadeOf

/-- Every source is read without a fault.  At every place that its reading can
get to, the tokens that are collected for an expression have a tree, and a
declaration does not fail for its type. -/
theorem ofStream_never_faults (source : String) :
    (∃ program mistakes, Program.ofStream (.ofSource source) = .ok (program, mistakes)) ∧
      ∀ cursor, (Cursor.ofStream (.ofSource source)).Advances cursor →
        (∀ tokens after, expressionTokens cursor = .ok tokens after →
          ∃ expr, Expr.ofTokens tokens = .ok expr) ∧
        ∀ fault after, declaration cursor ≠ .error (.fatal fault) after := by
  rcases exists_ofStream_madeOf source with ⟨program, mistakes, hread, -⟩
  refine ⟨⟨program, mistakes, hread⟩, fun cursor hmove => ?_⟩
  rcases hmove.exists_passed with ⟨before, hbefore⟩
  have hsound : cursor.Sound := (Cursor.sound_ofStream source).passed hbefore
  constructor
  · intro tokens after hrun
    rcases Passes.expressionTokens.of_ok hsound hrun with ⟨passed, hpassed, hsub, hderives⟩
    obtain ⟨expr, hexpr⟩ :=
      Passes.exists_isExpression_of_passed hsound hpassed hsub hderives
    exact ⟨expr, Expr.ofTokens_of_isExpression hexpr⟩
  · intro fault after hrun
    exact (Passes.declaration.of_error hsound hrun).2 fault rfl

end Grammar

end LoopLang
