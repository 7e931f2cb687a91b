import LoopLang.Proofs.Grammar.Recovery

/-!
# What a broken statement can reach

However broken a statement is, its reader does not go over a semicolon unless the
statement is a loop: recovery lands on a semicolon at the latest, and no other
part of such a statement is one.  Whatever is recorded on the way is about the
tokens gone over or about the token that comes next.

Main definitions:

- `Cursor.Complains`: what the complaints between two places of a reading are
  about.
- `Cursor.Crossed`: the tokens between two places, with complaints about no others.
- `Cursor.Stays`: there is no semicolon between two places.
- `Confined`, `TakesNext`: a reader that never goes over a semicolon, and one that
  takes its first token before.

Main results:

- Theorem `Cursor.Advances.exists_crossed`: complaints are about tokens passed.
- Theorem `Confined.expression`: an expression is read up to a semicolon at most.
- Theorem `TakesNext.statementWith`: so is every statement that is not a loop.
-/

namespace LoopLang

/-- The diagnostic is anchored on one of the tokens. -/
def Diagnostic.AnchoredIn (tokens : List Token) (diagnostic : Diagnostic) : Prop :=
  ∃ token ∈ tokens, diagnostic.anchor = some token

namespace Grammar

/-! ## Complaints about passed tokens -/

namespace Cursor

/-- What came next is one of the tokens passed, or it still comes next. -/
theorem Passed.current_mem {before after : Cursor} {tokens : List Token}
    (hpassed : before.Passed tokens after) : before.current ∈ tokens ++ [after.current] := by
  cases tokens with
  | nil =>
    have hsame : before.current = after.current := by
      rw [current, current, hpassed.pending_eq, hpassed.endToken_eq, List.nil_append]
    simp [hsame]
  | cons token tokens =>
    have hhead : before.current = token := by
      rw [current, hpassed.pending_eq]
      rfl
    simp [hhead]

/-- Between two places there is one row of tokens. -/
theorem Passed.unique {before after : Cursor} {tokens others : List Token}
    (hpassed : before.Passed tokens after) (hother : before.Passed others after) :
    tokens = others := by
  have hsame : tokens ++ after.pending = others ++ after.pending := by
    rw [← hpassed.pending_eq, ← hother.pending_eq]
  exact List.append_cancel_right hsame

/-- Every complaint between the two places is about one of the tokens. -/
def Complains (before : Cursor) (tokens : List Token) (after : Cursor) : Prop :=
  ∃ new, after.diagnostics = before.diagnostics ++ new ∧
    ∀ diagnostic ∈ new, diagnostic.AnchoredIn tokens

namespace Complains

variable {first second third : Cursor} {tokens others : List Token}

/-- There may be no complaints at all. -/
theorem of_eq (hsame : second.diagnostics = first.diagnostics) : first.Complains tokens second :=
  ⟨[], by simp [hsame], by simp⟩

/-- A complaint is about the token that comes next. -/
theorem complain {cursor : Cursor} (hcurrent : cursor.current ∈ tokens)
    (expected : List TokenKind) : cursor.Complains tokens (cursor.complain expected) := by
  refine ⟨[_], rfl, ?_⟩
  intro diagnostic hdiagnostic
  rw [List.mem_singleton.1 hdiagnostic]
  exact ⟨cursor.current, hcurrent, rfl⟩

theorem trans (hfirst : first.Complains tokens second) (hsecond : second.Complains tokens third) :
    first.Complains tokens third := by
  rcases hfirst with ⟨new, hnew, hanchored⟩
  rcases hsecond with ⟨more, hmore, hanchoredMore⟩
  refine ⟨new ++ more, ?_, ?_⟩
  · rw [hmore, hnew, List.append_assoc]
  · intro diagnostic hdiagnostic
    rcases List.mem_append.1 hdiagnostic with hold | hlater
    · exact hanchored diagnostic hold
    · exact hanchoredMore diagnostic hlater

theorem mono (hcomplains : first.Complains tokens second) (hsub : tokens ⊆ others) :
    first.Complains others second := by
  rcases hcomplains with ⟨new, hnew, hanchored⟩
  refine ⟨new, hnew, fun diagnostic hdiagnostic => ?_⟩
  rcases hanchored diagnostic hdiagnostic with ⟨token, htoken, hanchor⟩
  exact ⟨token, hsub htoken, hanchor⟩

end Complains

/-- The cursor has gone over the given tokens, and every complaint on the way is
about one of them or about the token that comes next. -/
structure Crossed (before : Cursor) (tokens : List Token) (after : Cursor) : Prop where
  passed : before.Passed tokens after
  source_eq : after.source = before.source
  complains : before.Complains (tokens ++ [after.current]) after

namespace Crossed

variable {first second third : Cursor} {tokens others : List Token}

/-- There may be no complaints at all. -/
theorem quiet (hpassed : first.Passed tokens second) (hsource : second.source = first.source)
    (hdiagnostics : second.diagnostics = first.diagnostics) : first.Crossed tokens second :=
  ⟨hpassed, hsource, .of_eq hdiagnostics⟩

theorem refl (cursor : Cursor) : Crossed cursor [] cursor :=
  quiet (.refl cursor) rfl rfl

/-- A complaint is made without going over a token. -/
theorem complain (cursor : Cursor) (expected : List TokenKind) :
    Crossed cursor [] (cursor.complain expected) :=
  ⟨.complain cursor expected, rfl, .complain List.mem_cons_self expected⟩

/-- Two walks, one after the other: what came next at the end of the first is gone over by
the second, or still comes next. -/
theorem trans (hfirst : first.Crossed tokens second) (hsecond : second.Crossed others third) :
    first.Crossed (tokens ++ others) third := by
  have hsub : tokens ++ [second.current] ⊆ tokens ++ others ++ [third.current] := by
    have hcurrent : [second.current] ⊆ others ++ [third.current] :=
      List.cons_subset.2 ⟨hsecond.passed.current_mem, List.nil_subset _⟩
    rw [List.append_assoc]
    exact List.append_subset.2
      ⟨List.subset_append_left _ _, List.subset_append_of_subset_right tokens hcurrent⟩
  have hsubMore : others ++ [third.current] ⊆ tokens ++ others ++ [third.current] := by
    rw [List.append_assoc]
    exact List.subset_append_right _ _
  refine ⟨hfirst.passed.trans hsecond.passed, ?_, ?_⟩
  · rw [hsecond.source_eq, hfirst.source_eq]
  · exact (hfirst.complains.mono hsub).trans (hsecond.complains.mono hsubMore)

end Crossed

/-- Whatever reading does to a cursor, it complains about tokens that it passes and
about the one that comes next. -/
theorem Advances.exists_crossed {before after : Cursor} (hmove : before.Advances after) :
    ∃ tokens, before.Crossed tokens after := by
  induction hmove with
  | refl cursor => exact ⟨[], .refl cursor⟩
  | take cursor =>
    rcases (Advances.take cursor).exists_passed with ⟨tokens, hpassed⟩
    exact ⟨tokens, .quiet hpassed rfl rfl⟩
  | takeWhile cursor p =>
    rcases (Advances.takeWhile cursor p).exists_passed with ⟨tokens, hpassed⟩
    exact ⟨tokens, .quiet hpassed rfl rfl⟩
  | discard cursor n => exact ⟨_, .quiet (.discard cursor n) rfl rfl⟩
  | complain cursor expected => exact ⟨[], .complain cursor expected⟩
  | trans _ _ ihfirst ihsecond =>
    rcases ihfirst with ⟨tokens, hfirst⟩
    rcases ihsecond with ⟨others, hsecond⟩
    exact ⟨tokens ++ others, hfirst.trans hsecond⟩

/-! ## Places with no semicolon between them -/

/-- The cursor has gone over no semicolon. -/
def Stays (before after : Cursor) : Prop :=
  ∃ tokens, before.Passed tokens after ∧ TokenKind.semicolon ∉ tokens.map Token.kind

namespace Stays

theorem refl (cursor : Cursor) : Stays cursor cursor :=
  ⟨[], .refl cursor, by simp⟩

theorem trans {first second third : Cursor} (hfirst : first.Stays second)
    (hsecond : second.Stays third) : first.Stays third := by
  rcases hfirst with ⟨tokens, hpassed, hnone⟩
  rcases hsecond with ⟨others, hmore, hnoneMore⟩
  refine ⟨tokens ++ others, hpassed.trans hmore, ?_⟩
  rw [List.map_append, List.mem_append, not_or]
  exact ⟨hnone, hnoneMore⟩

/-- A token of another category is taken. -/
theorem take {cursor : Cursor} {kinds : List TokenKind} (hkinds : TokenKind.semicolon ∉ kinds)
    (hsees : cursor.sees kinds = true) : cursor.Stays cursor.take := by
  cases hpending : cursor.pending with
  | nil => exact ⟨[], ⟨by simp [Cursor.take, hpending], rfl⟩, by simp⟩
  | cons token rest =>
    refine ⟨[token], .of_took (Took.take hpending), ?_⟩
    have hkind : token.kind ∈ kinds := by
      rw [sees, current, hpending] at hsees
      exact List.contains_iff_mem.1 hsees
    rw [List.map_singleton, List.mem_singleton]
    intro hsemicolon
    rw [← hsemicolon] at hkind
    exact hkinds hkind

end Stays

end Cursor

/-! ## Readers that go over no semicolon -/

/-- The place where a reader ends, whether it gets to its end or stops short. -/
def finish {α : Type} (reader : Parse α) (cursor : Cursor) : Cursor :=
  match reader cursor with
  | .ok _ after => after
  | .error _ after => after

/-- A reader that gets to its end stops there. -/
theorem finish_of_ok {α : Type} {reader : Parse α} {cursor after : Cursor} {a : α}
    (hrun : reader cursor = .ok a after) : finish reader cursor = after := by
  rw [finish, hrun]

/-- A reader that stops short leaves the place where it stopped. -/
theorem finish_of_error {α : Type} {reader : Parse α} {cursor after : Cursor} {stop : Stop}
    (hrun : reader cursor = .error stop after) : finish reader cursor = after := by
  rw [finish, hrun]

/-- Wherever the reader begins, it goes over no semicolon. -/
def Confined {α : Type} (reader : Parse α) : Prop :=
  ∀ cursor : Cursor, cursor.Stays (finish reader cursor)

/-- Recovery passes over no semicolon. -/
theorem semicolon_not_mem_of_seek {expected follow : List TokenKind} {endToken : Token}
    {tokens : List Token} {landing : Landing} {passed : Nat}
    (hseek : seek expected follow endToken tokens = (landing, passed)) :
    TokenKind.semicolon ∉ (tokens.take passed).map Token.kind := by
  induction tokens generalizing landing passed with
  | nil => simp
  | cons token rest ih =>
    unfold seek at hseek
    by_cases hfollow : token.isOneOf (follow ++ statementFollow) = true
    · rw [if_pos hfollow] at hseek
      cases hseek
      simp
    · rw [if_neg hfollow] at hseek
      have hkind : TokenKind.semicolon ≠ token.kind := by
        intro hsemicolon
        apply hfollow
        rw [Token.isOneOf, ← hsemicolon]
        simp [statementFollow]
      split at hseek
      · cases hseek
        simp
      · split at hseek
        · cases hseek
          simpa using hkind
        · rcases hrest : seek expected follow endToken rest with ⟨landed, n⟩
          rw [hrest] at hseek
          cases hseek
          rw [List.take_succ_cons, List.map_cons, List.mem_cons, not_or]
          exact ⟨hkind, ih hrest⟩

namespace Confined

variable {α β : Type}

theorem pure (a : α) : Confined (Pure.pure a : Parse α) :=
  fun cursor => .refl cursor

theorem throw (stop : Stop) : Confined (MonadExcept.throw stop : Parse α) :=
  fun cursor => .refl cursor

theorem get : Confined (MonadState.get : Parse Cursor) :=
  fun cursor => .refl cursor

/-- A complaint takes nothing. -/
theorem unexpected (expected : List TokenKind) : Confined (Grammar.unexpected expected) :=
  fun cursor => ⟨[], .complain cursor expected, by simp⟩

/-- Two readers, one after the other. -/
theorem bind {reader : Parse α} {next : α → Parse β} (hreader : Confined reader)
    (hnext : ∀ a, Confined (next a)) : Confined (reader >>= next) := by
  intro cursor
  have hfront := hreader cursor
  cases hrun : reader cursor with
  | error stop after =>
    rw [finish_of_error hrun] at hfront
    rw [finish_of_error (bind_eq_of_error hrun next)]
    exact hfront
  | ok a after =>
    rw [finish_of_ok hrun] at hfront
    have hwhole : finish (reader >>= next) cursor = finish (next a) after := by
      rw [finish, finish, bind_eq_of_ok hrun]
    rw [hwhole]
    exact hfront.trans (hnext a after)

/-- Another form of the result changes nothing. -/
theorem map {f : α → β} {reader : Parse α} (hreader : Confined reader) :
    Confined (f <$> reader) := by
  intro cursor
  have hsame : finish (f <$> reader) cursor = finish reader cursor := by
    simp only [finish, Functor.map, EStateM.map]
    cases reader cursor <;> rfl
  rw [hsame]
  exact hreader cursor

/-- One of two readers, after which the reading goes on in the same way. -/
theorem ite_bind {accepted : Bool} {left right : Parse α} {next : α → Parse β}
    (hleft : Confined left) (hright : Confined right) (hnext : ∀ a, Confined (next a)) :
    Confined (if accepted = true then left >>= next else right >>= next) := by
  cases accepted with
  | true => exact bind hleft hnext
  | false => exact bind hright hnext

/-- Only an expected token is accepted. -/
theorem accept {kinds : List TokenKind} (hkinds : TokenKind.semicolon ∉ kinds) :
    Confined (Grammar.accept kinds) := by
  intro cursor
  by_cases hsees : cursor.sees kinds = true
  · have hrun : Grammar.accept kinds cursor = .ok true cursor.take := if_pos hsees
    rw [finish_of_ok hrun]
    exact .take hkinds hsees
  · have hrun : Grammar.accept kinds cursor = .ok false cursor := if_neg hsees
    rw [finish_of_ok hrun]
    exact .refl cursor

/-- Recovery lands in front of a semicolon at the latest, unless one is expected. -/
theorem recover {expected : List TokenKind} (follow : List TokenKind)
    (hexpected : TokenKind.semicolon ∉ expected) :
    Confined (Grammar.recover expected follow) := by
  intro cursor
  unfold finish Grammar.recover
  rcases hseek : seek expected follow cursor.endToken cursor.pending with ⟨landing, n⟩
  have hdiscard : cursor.Stays (cursor.discard n) :=
    ⟨_, .discard cursor n, semicolon_not_mem_of_seek hseek⟩
  cases landing with
  | found =>
    have hsees : (cursor.discard n).sees expected = true := isOneOf_of_seek hseek
    exact hdiscard.trans (.take hexpected hsees)
  | followed | blocked => exact hdiscard

/-- Expecting goes over no semicolon unless one is expected. -/
theorem expect {expected : List TokenKind} (follow : List TokenKind)
    (hexpected : TokenKind.semicolon ∉ expected) : Confined (Grammar.expect expected follow) := by
  refine bind (accept hexpected) fun accepted => ?_
  cases accepted with
  | true => exact bind get fun _ => pure _
  | false => exact bind (unexpected expected) fun _ => recover follow hexpected

/-! ### Parts of a statement -/

/-- A part that may be skipped goes no further for that. -/
theorem skippable {reader : Parse α} (hreader : Confined reader) :
    Confined (Grammar.skippable reader) := by
  intro cursor
  have hsame : finish (Grammar.skippable reader) cursor = finish reader cursor := by
    simp only [finish, Grammar.skippable]
    rcases reader cursor with ⟨a, after⟩ | ⟨stop, after⟩
    · rfl
    · cases stop <;> rfl
  rw [hsame]
  exact hreader cursor

theorem resume (part : Option α) : Confined (Grammar.resume part) := by
  intro cursor
  by_cases hgiveUp : (part.isNone && cursor.sees statementFollow) = true
  · have hrun : Grammar.resume part cursor = .error .skip cursor := if_pos hgiveUp
    rw [finish_of_error hrun]
    exact .refl cursor
  · have hrun : Grammar.resume part cursor = .ok part cursor := if_neg hgiveUp
    rw [finish_of_ok hrun]
    exact .refl cursor

/-- A part that may be skipped, after which the statement goes on. -/
theorem part_bind {reader : Parse α} {next : Option α → Parse β} (hreader : Confined reader)
    (hnext : ∀ part, Confined (next part)) :
    Confined (Grammar.skippable reader >>= fun part => Grammar.resume part >>= next) :=
  bind (skippable hreader) fun part => bind (resume part) hnext

theorem expectPart {expected : List TokenKind} (follow : List TokenKind)
    (hexpected : TokenKind.semicolon ∉ expected) :
    Confined (Grammar.expectPart expected follow) :=
  bind (skippable (expect follow hexpected)) resume

/-! ### Expressions -/

/-- Prefix operators are no semicolons. -/
theorem unaryOperators : Confined Grammar.unaryOperators := by
  intro cursor
  refine ⟨_, ⟨List.takeWhile_append_dropWhile.symm, rfl⟩, ?_⟩
  rw [List.mem_map]
  rintro ⟨token, htoken, hkind⟩
  have hunary : (token.kind == TokenKind.unaryOperator) = true :=
    List.all_eq_true.1 List.all_takeWhile token htoken
  rw [hkind] at hunary
  cases hunary

/-- The tokens of an expression are read up to a semicolon at most. -/
theorem expressionTokensWithin (bound : Nat) : Confined (Grammar.expressionTokensWithin bound) := by
  induction bound with
  | zero => exact bind (expect expressionFollow (by decide)) fun _ => pure _
  | succ bound ih =>
    rw [expressionTokensWithin_succ]
    refine bind unaryOperators fun operators => ?_
    refine bind (expect expressionFollow (by decide)) fun operand => ?_
    have hchain : ∀ term, Confined (chainFrom (Grammar.expressionTokensWithin bound) term) := by
      intro term
      refine bind (accept (by decide)) fun accepted => ?_
      cases accepted with
      | true => exact bind get fun _ => bind ih fun _ => pure _
      | false => exact pure _
    split
    · exact bind ih fun _ => bind (expect expressionFollow (by decide)) fun _ => hchain _
    · exact hchain _

/-- An expression is read up to a semicolon at most, also if its tokens have no tree. -/
theorem expression : Confined Grammar.expression := by
  have htokens : Confined Grammar.expressionTokens := bind get fun _ => expressionTokensWithin _
  refine bind htokens fun tokens => ?_
  split
  · exact pure _
  · exact throw _

end Confined

/-! ## Statements -/

/-- The reader takes the token that comes next, and then goes over no semicolon. -/
def TakesNext {α : Type} (reader : Parse α) (cursor : Cursor) : Prop :=
  ∃ rest : Parse α, Confined rest ∧ reader cursor = rest cursor.take

namespace TakesNext

variable {α : Type} {cursor : Cursor}

/-- A reader that begins with accepting the token that comes next. -/
theorem accept_bind {kind : TokenKind} (hcurrent : cursor.current.kind = kind)
    {next : Bool → Parse α} (hnext : Confined (next true)) :
    TakesNext (accept [kind] >>= next) cursor := by
  have hsees : cursor.sees [kind] = true := by
    rw [Cursor.sees, Token.isOneOf, hcurrent]
    simp
  have haccept : accept [kind] cursor = .ok true cursor.take := if_pos hsees
  exact ⟨next true, hnext, bind_eq_of_ok haccept next⟩

/-- A declaration takes its keyword, and then it goes over no semicolon. -/
theorem declaration (hcurrent : cursor.current.kind = .varKeyword) :
    TakesNext Grammar.declaration cursor := by
  refine accept_bind hcurrent ?_
  refine .bind (.expectPart [.colon] (by decide)) fun name => ?_
  refine .bind (.expectPart types (by decide)) fun colon => ?_
  refine .bind (.skippable (.expect [.assignment] (by decide))) fun typeToken => ?_
  refine .bind (.accept (by decide)) fun accepted => ?_
  refine .ite_bind (.map .expression) (.pure none) fun initial => ?_
  split
  · split
    · exact .pure _
    · exact .throw _
  · exact .throw _

/-- An assignment takes its name, and then it goes over no semicolon. -/
theorem assignment (hcurrent : cursor.current.kind = .identifier) :
    TakesNext Grammar.assignment cursor := by
  refine accept_bind hcurrent (.bind .get fun _ => ?_)
  refine .bind (.expectPart expressionFirst (by decide)) fun sign => ?_
  refine .bind .expression fun value => ?_
  split
  · exact .pure _
  · exact .throw _

theorem readStatement (hcurrent : cursor.current.kind = .readKeyword) :
    TakesNext Grammar.readStatement cursor :=
  accept_bind hcurrent (.bind (.expect [] (by decide)) fun _ => .pure _)

theorem printStatement (hcurrent : cursor.current.kind = .printKeyword) :
    TakesNext Grammar.printStatement cursor :=
  accept_bind hcurrent (.bind .expression fun _ => .pure _)

theorem assertion (hcurrent : cursor.current.kind = .assertKeyword) :
    TakesNext Grammar.assertion cursor := by
  refine accept_bind hcurrent (.bind .get fun _ => ?_)
  refine .bind (.expectPart expressionFirst (by decide)) fun opening => .bind .get fun _ => ?_
  refine .part_bind .expression fun condition => .bind .get fun _ => ?_
  refine .bind (.skippable (.expect [] (by decide))) fun closing => ?_
  split
  · exact .bind .get fun _ => .pure _
  · exact .throw _

/-- A statement that is not a loop takes its first token, and then goes over no
semicolon.  The reader of bodies is not used for it. -/
theorem statementWith (hfirst : cursor.current.kind ∈ statementFirst)
    (hloop : cursor.current.kind ≠ .forKeyword) :
    ∃ reader, TakesNext reader cursor ∧
      ∀ body, Grammar.statementWith body cursor = reader cursor := by
  have hread : ∀ body, Grammar.statementWith body cursor = _ := fun body => bind_eq_of_ok rfl _
  simp only [statementFirst, List.mem_cons, List.not_mem_nil, or_false] at hfirst
  rcases hfirst with hkind | hkind | hkind | hkind | hkind | hkind
  · exact ⟨_, declaration hkind, fun body => by simp only [hread, hkind]⟩
  · exact ⟨_, assignment hkind, fun body => by simp only [hread, hkind]⟩
  · exact absurd hkind hloop
  · exact ⟨_, readStatement hkind, fun body => by simp only [hread, hkind]⟩
  · exact ⟨_, printStatement hkind, fun body => by simp only [hread, hkind]⟩
  · exact ⟨_, assertion hkind, fun body => by simp only [hread, hkind]⟩

/-- What comes next is taken, whatever becomes of the statement. -/
theorem attempt {reader : Parse Stmt} (hreader : TakesNext reader cursor) :
    TakesNext (Grammar.attempt reader) cursor := by
  rcases hreader with ⟨rest, hrest, hread⟩
  refine ⟨Grammar.attempt rest, fun c => ?_, ?_⟩
  · have hsame : finish (Grammar.attempt rest) c = finish rest c := by
      simp only [finish, Grammar.attempt]
      rcases rest c with ⟨stmt, after⟩ | ⟨stop, after⟩
      · rfl
      · cases stop <;> rfl
    rw [hsame]
    exact hrest c
  · rw [Grammar.attempt, hread]
    rfl

/-- The token that came next is passed, and no semicolon after it. -/
theorem exists_passed {reader : Parse α} (hreader : TakesNext reader cursor) {token : Token}
    {rest : List Token} (hpending : cursor.pending = token :: rest) {a : α} {after : Cursor}
    (hrun : reader cursor = .ok a after) :
    ∃ tokens, cursor.Passed (token :: tokens) after ∧
      TokenKind.semicolon ∉ tokens.map Token.kind := by
  rcases hreader with ⟨next, hnext, hread⟩
  rcases hnext cursor.take with ⟨tokens, hpassed, hnone⟩
  rw [finish_of_ok (hread.symm.trans hrun)] at hpassed
  exact ⟨tokens, (Cursor.Passed.of_took (.take hpending)).trans hpassed, hnone⟩

end TakesNext

end Grammar

end LoopLang
