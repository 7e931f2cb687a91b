import LoopLang.Proofs.Grammar.Resumption

/-!
# The moves of a reading

All that readers do to a cursor is made of a few moves.  Tokens are taken one by one
or in a row, and mistakes are recorded.  Tokens are discarded in two ways only: on the
way to a landing, and from a place where no statement begins up to the next statement.
Either way no token is discarded that can only begin a statement.

Main definitions:

- `Lands`: which tokens recovery passes over, and where it ends.
- `Cursor.Walks`: the moves that reading is made of.
- `Walking`: a reader that makes no other moves.
- `Opens`: a reader that begins with the token of a category.

Main results:

- Theorem `expect_of_not_sees`: what happens where an unexpected token comes next.
- Theorem `Cursor.Walks.advances`: the moves only go forward.
- Theorem `Walking.bind`: two readers, one after the other.
- Theorem `Walking.statementsWithin`: lists of statements are read by such moves.
- Theorem `walks_statementWith`: a statement takes its first token, and then such
  moves are made.
-/

namespace LoopLang

namespace Grammar

/-! ## Landings -/

/-- Recovery has got to the landing: it stands in front of the token. -/
def Landing.Reaches (expected follow : List TokenKind) (token : Token) : Landing → Prop
  | found => token.kind ∈ expected
  | followed => token.kind ∈ follow ++ statementFollow
  | blocked => token.kind ∈ .endOfFile :: starters

/-- What a landing comes to. -/
def Landing.outcome (landed : Cursor) : Landing → EStateM.Result Stop Cursor Token
  | found => .ok landed.current landed.take
  | followed => .error .skip landed
  | blocked => .error .halt landed

/-- Recovery has passed over some tokens and has got to the landing in front of the
other ones. -/
structure Lands (expected follow : List TokenKind) (endToken : Token) (passed rest : List Token)
    (landing : Landing) : Prop where
  passes : ∀ token ∈ passed, token.kind ∉ follow ++ statementFollow ++ starters
  misses : ((passed ++ rest).headD endToken).kind ∉ expected →
    ∀ token ∈ passed, token.kind ∉ expected
  reaches : endToken.kind = .endOfFile → landing.Reaches expected follow (rest.headD endToken)

/-- A token that is not seen as one of some categories has none of them. -/
theorem not_mem_of_not_isOneOf {token : Token} {kinds : List TokenKind}
    (hnot : ¬token.isOneOf kinds = true) : token.kind ∉ kinds := by
  intro hmem
  exact hnot (List.contains_iff_mem.2 hmem)

/-- Where recovery lands. -/
theorem lands_of_seek {expected follow : List TokenKind} {endToken : Token}
    {tokens : List Token} {landing : Landing} {n : Nat}
    (hseek : seek expected follow endToken tokens = (landing, n)) :
    Lands expected follow endToken (tokens.take n) (tokens.drop n) landing := by
  have hhere : ∀ {tokens : List Token} {landing : Landing},
      (endToken.kind = .endOfFile → landing.Reaches expected follow (tokens.headD endToken)) →
        Lands expected follow endToken (tokens.take 0) (tokens.drop 0) landing := by
    intro tokens landing hreaches
    exact ⟨by simp, by simp, hreaches⟩
  induction tokens generalizing landing n with
  | nil =>
    unfold seek at hseek
    split at hseek
    · next hfollow =>
      cases hseek
      exact hhere fun _ => List.contains_iff_mem.1 hfollow
    · cases hseek
      exact hhere fun hended => List.mem_cons.2 (.inl hended)
  | cons token rest ih =>
    unfold seek at hseek
    split at hseek
    · next hfollow =>
      cases hseek
      exact hhere fun _ => List.contains_iff_mem.1 hfollow
    · next hfollow =>
      split at hseek
      · next hblocked =>
        cases hseek
        exact hhere fun _ => List.contains_iff_mem.1 hblocked
      · next hblocked =>
        have htoken : token.kind ∉ follow ++ statementFollow ++ starters := by
          rw [List.mem_append, not_or]
          refine ⟨not_mem_of_not_isOneOf hfollow, fun hstarter => ?_⟩
          exact not_mem_of_not_isOneOf hblocked (List.mem_cons_of_mem _ hstarter)
        split at hseek
        · next hfound =>
          cases hseek
          refine ⟨by simpa using htoken, by simp, fun _ => List.contains_iff_mem.1 hfound⟩
        · next hfound =>
          rcases hrest : seek expected follow endToken rest with ⟨landed, passed⟩
          rw [hrest] at hseek
          cases hseek
          have hlands := ih hrest
          have hmisses := hlands.misses (by
            rw [List.take_append_drop]
            exact not_mem_of_not_isOneOf hfound)
          refine ⟨?_, ?_, hlands.reaches⟩
          · rw [List.take_succ_cons]
            exact List.forall_mem_cons.2 ⟨htoken, hlands.passes⟩
          · intro hfirst
            rw [List.take_succ_cons]
            exact List.forall_mem_cons.2 ⟨hfirst, hmisses⟩

/-- Expecting a token that does not come next is one complaint and a landing. -/
theorem expect_of_not_sees {cursor : Cursor} {expected : List TokenKind}
    (follow : List TokenKind) (hunexpected : cursor.sees expected = false) :
    ∃ landing n,
      Lands expected follow cursor.endToken (cursor.pending.take n) (cursor.pending.drop n)
        landing ∧
      expect expected follow cursor =
        landing.outcome ((cursor.complain expected).discard n) := by
  rcases hseek : seek expected follow cursor.endToken cursor.pending with ⟨landing, n⟩
  refine ⟨landing, n, lands_of_seek hseek, ?_⟩
  rw [expect_apply, hunexpected, recover]
  simp only [Bool.false_eq_true, if_false, Cursor.complain, hseek]
  cases landing <;> rfl

/-! ## Moves -/

namespace Cursor

/-- The moves that reading is made of, any number of them.  No token that can only begin
a statement is discarded. -/
inductive Walks : Cursor → Cursor → Prop where
  | refl (cursor : Cursor) : Walks cursor cursor
  | take (cursor : Cursor) : Walks cursor cursor.take
  | takeWhile (cursor : Cursor) (p : Token → Bool) : Walks cursor (cursor.takeWhile p)
  | complain (cursor : Cursor) (expected : List TokenKind) :
      Walks cursor (cursor.complain expected)
  | discard {cursor : Cursor} {n : Nat}
      (hnone : ∀ token ∈ cursor.pending.take n, token.kind ∉ starters) :
      Walks cursor (cursor.discard n)
  | trans {first second third : Cursor} (hfirst : Walks first second)
      (hsecond : Walks second third) : Walks first third

namespace Walks

variable {before after : Cursor}

/-- The moves only go forward. -/
theorem advances (hwalks : before.Walks after) : before.Advances after := by
  induction hwalks with
  | refl cursor => exact .refl cursor
  | take cursor => exact .take cursor
  | takeWhile cursor p => exact .takeWhile cursor p
  | complain cursor expected => exact .complain cursor expected
  | discard hnone => exact .discard _ _
  | trans _ _ ihfirst ihsecond => exact ihfirst.trans ihsecond

/-- The search for a statement passes over no token that begins one, if it begins where
there is none. -/
theorem skipToStatement {cursor : Cursor} (hnone : cursor.sees statementFirst = false) :
    cursor.Walks cursor.skipToStatement := by
  have hsub : starters ⊆ statementFirst := by decide
  refine .discard fun token htoken hstarter => ?_
  cases hpending : cursor.pending with
  | nil =>
    rw [hpending] at htoken
    simp at htoken
  | cons head rest =>
    rw [hpending, List.tail_cons, List.take_succ_cons,
      ← List.prefix_iff_eq_take.1 (List.takeWhile_prefix _), List.mem_cons] at htoken
    rcases htoken with rfl | hstray
    · rw [sees, current, hpending, List.headD_cons] at hnone
      exact Bool.eq_false_iff.1 hnone (List.contains_iff_mem.2 (hsub hstarter))
    · have hskips := List.all_eq_true.1 List.all_takeWhile token hstray
      rw [Bool.not_eq_true'] at hskips
      refine Bool.eq_false_iff.1 hskips (List.contains_iff_mem.2 ?_)
      exact List.mem_cons_of_mem _ (hsub hstarter)

theorem length_pending_le (hwalks : before.Walks after) :
    after.pending.length ≤ before.pending.length := by
  rcases hwalks.advances.exists_passed with ⟨tokens, hpassed⟩
  have hlength := hpassed.length_eq
  omega

theorem endToken_eq (hwalks : before.Walks after) : after.endToken = before.endToken := by
  rcases hwalks.advances.exists_passed with ⟨tokens, hpassed⟩
  exact hpassed.endToken_eq

end Walks

end Cursor

/-! ## Readers -/

/-- Two readers, one after the other. -/
theorem Cursor.Walks.bind {α β : Type} {reader : Parse α} {next : α → Parse β} {cursor : Cursor}
    (hreader : cursor.Walks (finish reader cursor))
    (hnext : ∀ a after, reader cursor = .ok a after → after.Walks (finish (next a) after)) :
    cursor.Walks (finish (reader >>= next) cursor) := by
  cases hrun : reader cursor with
  | error stop after =>
    rw [finish_of_error hrun] at hreader
    rw [finish_of_error (bind_eq_of_error hrun next)]
    exact hreader
  | ok a after =>
    rw [finish_of_ok hrun] at hreader
    have hwhole : finish (reader >>= next) cursor = finish (next a) after := by
      rw [finish, finish, bind_eq_of_ok hrun]
    rw [hwhole]
    exact hreader.trans (hnext a after hrun)

/-- Wherever the reader begins, and however it ends, it has made no other moves. -/
def Walking {α : Type} (reader : Parse α) : Prop :=
  ∀ cursor : Cursor, cursor.Walks (finish reader cursor)

namespace Walking

variable {α β : Type}

/-- The moves of a reader that gets to its end. -/
theorem of_ok {reader : Parse α} (hreader : Walking reader) {cursor after : Cursor} {a : α}
    (hrun : reader cursor = .ok a after) : cursor.Walks after := by
  have hwalks := hreader cursor
  rwa [finish_of_ok hrun] at hwalks

theorem pure (a : α) : Walking (Pure.pure a : Parse α) :=
  fun cursor => .refl cursor

theorem throw (stop : Stop) : Walking (MonadExcept.throw stop : Parse α) :=
  fun cursor => .refl cursor

theorem get : Walking (MonadState.get : Parse Cursor) :=
  fun cursor => .refl cursor

theorem unexpected (expected : List TokenKind) : Walking (Grammar.unexpected expected) :=
  fun cursor => .complain cursor expected

/-- Two readers, one after the other. -/
theorem bind {reader : Parse α} {next : α → Parse β} (hreader : Walking reader)
    (hnext : ∀ a, Walking (next a)) : Walking (reader >>= next) :=
  fun cursor => .bind (hreader cursor) fun a after _ => hnext a after

/-- Another form of the result changes nothing. -/
theorem map {f : α → β} {reader : Parse α} (hreader : Walking reader) :
    Walking (f <$> reader) := by
  intro cursor
  have hsame : finish (f <$> reader) cursor = finish reader cursor := by
    simp only [finish, Functor.map, EStateM.map]
    cases reader cursor <;> rfl
  rw [hsame]
  exact hreader cursor

/-- One of two readers, after which the reading goes on in the same way. -/
theorem ite_bind {accepted : Bool} {left right : Parse α} {next : α → Parse β}
    (hleft : Walking left) (hright : Walking right) (hnext : ∀ a, Walking (next a)) :
    Walking (if accepted = true then left >>= next else right >>= next) := by
  cases accepted with
  | true => exact bind hleft hnext
  | false => exact bind hright hnext

/-- Accepting is taking one token or none. -/
theorem accept (kinds : List TokenKind) : Walking (Grammar.accept kinds) := by
  intro cursor
  by_cases hsees : cursor.sees kinds = true
  · have hrun : Grammar.accept kinds cursor = .ok true cursor.take := if_pos hsees
    rw [finish_of_ok hrun]
    exact .take cursor
  · have hrun : Grammar.accept kinds cursor = .ok false cursor := if_neg hsees
    rw [finish_of_ok hrun]
    exact .refl cursor

/-- Recovery passes over tokens that are no starters, and then takes one at the most. -/
theorem recover (expected follow : List TokenKind) :
    Walking (Grammar.recover expected follow) := by
  intro cursor
  unfold finish Grammar.recover
  rcases hseek : seek expected follow cursor.endToken cursor.pending with ⟨landing, n⟩
  have hdiscard : cursor.Walks (cursor.discard n) := by
    refine .discard fun token htoken hstarter => ?_
    exact (lands_of_seek hseek).passes token htoken (List.mem_append_right _ hstarter)
  cases landing with
  | found => exact hdiscard.trans (.take _)
  | followed | blocked => exact hdiscard

/-- Expecting takes a token, or it complains and recovers. -/
theorem expect (expected follow : List TokenKind) : Walking (Grammar.expect expected follow) := by
  refine bind (accept expected) fun accepted => ?_
  cases accepted with
  | true => exact bind get fun _ => pure _
  | false => exact bind (unexpected expected) fun _ => recover expected follow

/-! ### Parts of a statement -/

/-- A part that is skipped has made its moves. -/
theorem skippable {reader : Parse α} (hreader : Walking reader) :
    Walking (Grammar.skippable reader) := by
  intro cursor
  have hsame : finish (Grammar.skippable reader) cursor = finish reader cursor := by
    simp only [finish, Grammar.skippable]
    rcases reader cursor with ⟨a, after⟩ | ⟨stop, after⟩
    · rfl
    · cases stop <;> rfl
  rw [hsame]
  exact hreader cursor

theorem resume (part : Option α) : Walking (Grammar.resume part) := by
  intro cursor
  by_cases hgiveUp : (part.isNone && cursor.sees statementFollow) = true
  · rw [finish, Grammar.resume, if_pos hgiveUp]
    exact .refl cursor
  · rw [finish, Grammar.resume, if_neg hgiveUp]
    exact .refl cursor

/-- A part that may be skipped, after which the statement goes on. -/
theorem part_bind {reader : Parse α} {next : Option α → Parse β} (hreader : Walking reader)
    (hnext : ∀ part, Walking (next part)) :
    Walking (Grammar.skippable reader >>= fun part => Grammar.resume part >>= next) :=
  bind (skippable hreader) fun part => bind (resume part) hnext

theorem expectPart (expected follow : List TokenKind) :
    Walking (Grammar.expectPart expected follow) :=
  bind (skippable (expect expected follow)) resume

/-! ### Expressions -/

/-- Prefix operators are taken in a row. -/
theorem unaryOperators : Walking Grammar.unaryOperators :=
  fun cursor => .takeWhile cursor _

/-- The tokens of an expression are taken or recovered from. -/
theorem expressionTokensWithin (bound : Nat) : Walking (Grammar.expressionTokensWithin bound) := by
  induction bound with
  | zero => exact bind (expect _ _) fun _ => pure _
  | succ bound ih =>
    rw [expressionTokensWithin_succ]
    refine bind unaryOperators fun operators => bind (expect _ _) fun operand => ?_
    have hchain : ∀ term, Walking (chainFrom (Grammar.expressionTokensWithin bound) term) := by
      intro term
      refine bind (accept _) fun accepted => ?_
      cases accepted with
      | true => exact bind get fun _ => bind ih fun _ => pure _
      | false => exact pure _
    split
    · exact bind ih fun _ => bind (expect _ _) fun _ => hchain _
    · exact hchain _

theorem expression : Walking Grammar.expression := by
  have htokens : Walking Grammar.expressionTokens := bind get fun _ => expressionTokensWithin _
  refine bind htokens fun tokens => ?_
  split
  · exact pure _
  · exact throw _

end Walking

/-! ## Statements -/

/-- The reader accepts a token of the category, and then makes the moves of a
reading. -/
def Opens {α : Type} (kind : TokenKind) (reader : Parse α) : Prop :=
  ∃ rest : Parse α, Walking rest ∧ reader = accept [kind] >>= fun _ => rest

namespace Opens

variable {α : Type} {kind : TokenKind} {reader : Parse α}

/-- A reader that begins with a token makes the moves of a reading. -/
theorem walking (hopens : Opens kind reader) : Walking reader := by
  rcases hopens with ⟨rest, hrest, rfl⟩
  exact .bind (.accept [kind]) fun _ => hrest

/-- If the token is there, it is taken. -/
theorem walks (hopens : Opens kind reader) {cursor : Cursor}
    (hcurrent : cursor.current.kind = kind) : cursor.take.Walks (finish reader cursor) := by
  rcases hopens with ⟨rest, hrest, rfl⟩
  have haccept : accept [kind] cursor = .ok true cursor.take :=
    if_pos (List.contains_iff_mem.2 (List.mem_singleton.2 hcurrent))
  have hsame : finish (accept [kind] >>= fun _ => rest) cursor = finish rest cursor.take := by
    rw [finish, finish, bind_eq_of_ok haccept]
  rw [hsame]
  exact hrest cursor.take

/-- A declaration begins with its keyword. -/
theorem declaration : Opens .varKeyword Grammar.declaration := by
  refine ⟨_, ?_, rfl⟩
  refine .bind (.expectPart _ _) fun name => .bind (.expectPart _ _) fun colon => ?_
  refine .bind (.skippable (.expect _ _)) fun typeToken => .bind (.accept _) fun accepted => ?_
  refine .ite_bind (.map .expression) (.pure none) fun initial => ?_
  split
  · split
    · exact .pure _
    · exact .throw _
  · exact .throw _

theorem assignment : Opens .identifier Grammar.assignment := by
  refine ⟨_, .bind .get fun _ => ?_, rfl⟩
  refine .bind (.expectPart _ _) fun sign => .bind .expression fun value => ?_
  split
  · exact .pure _
  · exact .throw _

/-- A loop begins with its keyword, and its body makes its own moves. -/
theorem loop {body : Parse Program} (hbody : Walking body) :
    Opens .forKeyword (Grammar.loop body) := by
  refine ⟨_, ?_, rfl⟩
  refine .bind (.expectPart _ _) fun counter => .bind (.expectPart _ _) fun inWord => ?_
  refine .part_bind .expression fun first => .bind (.expectPart _ _) fun range => ?_
  refine .part_bind .expression fun last => .bind (.skippable (.expect _ _)) fun doWord => ?_
  refine .bind hbody fun program => .bind (.skippable (.expect _ _)) fun endWord => ?_
  refine .bind (.skippable (.expect _ _)) fun forWord => ?_
  split
  · exact .pure _
  · exact .throw _

theorem readStatement : Opens .readKeyword Grammar.readStatement :=
  ⟨_, .bind (.expect _ _) fun _ => .pure _, rfl⟩

theorem printStatement : Opens .printKeyword Grammar.printStatement :=
  ⟨_, .bind .expression fun _ => .pure _, rfl⟩

theorem assertion : Opens .assertKeyword Grammar.assertion := by
  refine ⟨_, .bind .get fun _ => ?_, rfl⟩
  refine .bind (.expectPart _ _) fun opening => .bind .get fun _ => ?_
  refine .part_bind .expression fun condition => .bind .get fun _ => ?_
  refine .bind (.skippable (.expect _ _)) fun closing => ?_
  split
  · exact .bind .get fun _ => .pure _
  · exact .throw _

end Opens

/-- An attempt ends where its statement does, whatever becomes of it. -/
theorem finish_attempt (reader : Parse Stmt) (cursor : Cursor) :
    finish (attempt reader) cursor = finish reader cursor := by
  simp only [finish, attempt]
  rcases reader cursor with ⟨stmt, after⟩ | ⟨stop, after⟩
  · rfl
  · cases stop <;> rfl

/-- A token that begins a statement is taken, whatever becomes of the statement. -/
theorem walks_statementWith {body : Parse Program} (hbody : Walking body) {cursor : Cursor}
    (hfirst : cursor.current.kind ∈ statementFirst) :
    cursor.take.Walks (finish (statementWith body) cursor) := by
  have hread : statementWith body cursor = _ := bind_eq_of_ok rfl _
  rw [finish, hread]
  simp only [statementFirst, List.mem_cons, List.not_mem_nil, or_false] at hfirst
  rcases hfirst with hkind | hkind | hkind | hkind | hkind | hkind <;> simp only [hkind]
  · exact Opens.declaration.walks hkind
  · exact Opens.assignment.walks hkind
  · exact (Opens.loop hbody).walks hkind
  · exact Opens.readStatement.walks hkind
  · exact Opens.printStatement.walks hkind
  · exact Opens.assertion.walks hkind

namespace Walking

/-- Every statement makes the moves of a reading. -/
theorem statementWith {body : Parse Program} (hbody : Walking body) :
    Walking (Grammar.statementWith body) := by
  refine bind get fun cursor => ?_
  split
  · exact Opens.declaration.walking
  · exact Opens.assignment.walking
  · exact (Opens.loop hbody).walking
  · exact Opens.readStatement.walking
  · exact Opens.printStatement.walking
  · exact Opens.assertion.walking
  · exact bind (unexpected _) fun _ => throw _

/-! ### Lists of statements -/

theorem attempt {reader : Parse Stmt} (hreader : Walking reader) :
    Walking (Grammar.attempt reader) := by
  intro cursor
  rw [finish_attempt]
  exact hreader cursor

theorem statementsWithin (bound : Nat) : Walking (Grammar.statementsWithin bound) := by
  induction bound with
  | zero => exact pure []
  | succ bound ih =>
    refine bind get fun cursor => ?_
    split
    · refine bind (attempt (statementWith ih)) fun result => bind (accept _) fun separated => ?_
      split
      · exact bind ih fun _ => pure _
      · refine bind get fun after => ?_
        split
        · exact bind (unexpected _) fun _ => bind ih fun _ => pure _
        · exact pure _
    · exact pure []

theorem statementsOrNone : Walking Grammar.statementsOrNone := by
  intro cursor
  have hstatements : Walking Grammar.statements := bind get fun _ => statementsWithin _
  have hsame : finish Grammar.statementsOrNone cursor = finish Grammar.statements cursor := by
    simp only [finish, Grammar.statementsOrNone]
    rcases Grammar.statements cursor with ⟨program, after⟩ | ⟨stop, after⟩
    · rfl
    · cases stop <;> rfl
  rw [hsame]
  exact hstatements cursor

end Walking

end Grammar

end LoopLang
