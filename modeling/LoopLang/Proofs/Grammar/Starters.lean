import LoopLang.Proofs.Grammar.Progress

/-!
# Tokens that begin statements

Where an unexpected token comes next, recovery passes over some tokens and ends at one
of three landings.  It never passes over a token that can only begin a statement, and
neither does the search for the next statement after a list that got stuck.  Hence all
these tokens of a source are taken, each at its place.

Main definitions:

- `isStarter`: a token that can only begin a statement, or close a loop.
- `Cursor.landed`: a cursor after recovery.
- `Expects`: what expecting a token can come to.

Main results:

- Theorem `expects_expect`: the contract of expecting a token.
- Theorem `walks_program`: a program is read by the moves of a reading.
- Theorem `recovery_spares_starters`: the tokens that begin statements are all taken.
-/

namespace LoopLang

namespace Grammar

/-! ## Recovery -/

/-- The cursor after the complaint about the token that came next, and after the passed
tokens have been discarded. -/
def Cursor.landed (cursor : Cursor) (expected : List TokenKind) (passed rest : List Token) :
    Cursor :=
  { cursor with
    pending := rest
    discarded := passed.reverse ++ cursor.discarded
    diagnostics := cursor.diagnostics ++
      [.about cursor.current (.unexpectedToken expected cursor.current.kind)] }

/-- The cursor stands in front of an unexpected token, and the first tokens are a row
that recovery passes over: none of them is expected, may follow, ends a statement or can
only begin one. -/
structure Cursor.Skips (cursor : Cursor) (expected follow : List TokenKind)
    (passed rest : List Token) : Prop where
  unexpected : cursor.current.kind ∉ expected
  pending_eq : cursor.pending = passed ++ rest
  passes : ∀ token ∈ passed, token.kind ∉ expected ++ follow ++ statementFollow ++ starters

/-- What expecting a token can come to.  Either the token that comes next is taken and
nothing is recorded, or one mistake about it is recorded, a row of tokens is discarded and
there is a landing behind the row. -/
inductive Expects (expected follow : List TokenKind) (cursor : Cursor) :
    EStateM.Result Stop Cursor Token → Prop where
  | accepted (hcurrent : cursor.current.kind ∈ expected) :
      Expects expected follow cursor (.ok cursor.current cursor.take)
  | found {passed rest : List Token} (hskips : cursor.Skips expected follow passed rest)
      (hkind : (cursor.landed expected passed rest).current.kind ∈ expected) :
      Expects expected follow cursor (.ok (cursor.landed expected passed rest).current
        (cursor.landed expected passed rest).take)
  | followed {passed rest : List Token} (hskips : cursor.Skips expected follow passed rest)
      (hkind : (cursor.landed expected passed rest).current.kind ∈ follow ++ statementFollow) :
      Expects expected follow cursor (.error .skip (cursor.landed expected passed rest))
  | blocked {passed rest : List Token} (hskips : cursor.Skips expected follow passed rest)
      (hkind : (cursor.landed expected passed rest).current.kind ∈ .endOfFile :: starters) :
      Expects expected follow cursor (.error .halt (cursor.landed expected passed rest))

/-- Expecting takes the next token, or it lands on one of the three places that its contract
names. -/
theorem expects_expect {cursor : Cursor} (hended : cursor.endToken.kind = .endOfFile)
    (expected follow : List TokenKind) :
    Expects expected follow cursor (expect expected follow cursor) := by
  cases hsees : cursor.sees expected with
  | true =>
    rw [expect_apply, hsees, if_pos rfl]
    exact .accepted (List.contains_iff_mem.1 hsees)
  | false =>
    have hunexpected : cursor.current.kind ∉ expected :=
      not_mem_of_not_isOneOf (Bool.eq_false_iff.1 hsees)
    obtain ⟨landing, n, hlands, hexpect⟩ := expect_of_not_sees follow hsees
    have hreaches := hlands.reaches hended
    have hskips : cursor.Skips expected follow (cursor.pending.take n)
        (cursor.pending.drop n) := by
      refine ⟨hunexpected, (List.take_append_drop n _).symm, fun token htoken => ?_⟩
      have hmisses : token.kind ∉ expected := by
        refine hlands.misses ?_ token htoken
        rw [List.take_append_drop]
        exact hunexpected
      rw [List.append_assoc, List.append_assoc, List.mem_append, not_or, ← List.append_assoc]
      exact ⟨hmisses, hlands.passes token htoken⟩
    rw [hexpect]
    cases landing with
    | found => exact .found hskips hreaches
    | followed => exact .followed hskips hreaches
    | blocked => exact .blocked hskips hreaches

/-! ## Programs -/

/-- A round passes over no token that begins a statement: its list ends where none
begins. -/
theorem walks_round {cursor : Cursor} (hended : cursor.endToken.kind = .endOfFile) :
    cursor.Walks (finish round cursor) := by
  refine .bind (Walking.statementsOrNone cursor) fun front after hfront => ?_
  have hnone : after.sees statementFirst = false :=
    (EndsAt.of_ok hfront).1 (EndsAt.statementsOrNone hended)
  refine .bind (.refl after) fun place after' hplace => ?_
  cases hplace
  split
  · exact .refl after
  · exact .trans (.complain after _) (.skipToStatement hnone)

/-- The whole of a parse is made of the moves of a reading. -/
theorem walks_programWithin (bound : Nat) {cursor : Cursor}
    (hended : cursor.endToken.kind = .endOfFile) :
    cursor.Walks (finish (programWithin bound) cursor) := by
  induction bound generalizing cursor with
  | zero => exact .refl cursor
  | succ bound ih =>
    rw [programWithin_succ]
    refine .bind (walks_round hended) fun step next hround => ?_
    rcases step with ⟨front, ended⟩
    cases ended with
    | true => exact .refl next
    | false =>
      have hnext := (length_pending_round_lt hended hround).1
      exact .bind (ih hnext) fun _ after _ => .refl after

/-- A program is read by the moves of a reading. -/
theorem walks_program {cursor : Cursor} (hended : cursor.endToken.kind = .endOfFile) :
    cursor.Walks (finish program cursor) :=
  .bind (.refl cursor) fun place after hplace => by
    cases hplace
    exact walks_programWithin _ hended

/-! ## Starters -/

/-- Whether a token can only begin a statement, or close a loop. -/
def isStarter (token : Token) : Bool := token.isOneOf starters

namespace Cursor

/-- The starters that were taken and those that are still to come, in their order. -/
def begins (cursor : Cursor) : List Token :=
  (cursor.taken.reverse ++ cursor.pending).filter isStarter

theorem filter_isStarter_eq_nil {tokens : List Token}
    (hnone : ∀ token ∈ tokens, token.kind ∉ starters) : tokens.filter isStarter = [] := by
  rw [List.filter_eq_nil_iff]
  intro token htoken hstarter
  exact hnone token htoken (List.contains_iff_mem.1 hstarter)

namespace Walks

variable {before after : Cursor}

/-- No move loses a starter. -/
theorem begins_eq (hwalks : before.Walks after) (hended : before.endToken.kind = .endOfFile) :
    after.begins = before.begins := by
  induction hwalks with
  | refl cursor => rfl
  | take cursor =>
    unfold begins Cursor.take
    cases hpending : cursor.pending with
    | nil =>
      have hend : isStarter cursor.endToken = false := by
        rw [isStarter, Token.isOneOf, hended]
        decide
      simp [Cursor.current, hpending, hend]
    | cons token rest => simp [Cursor.current, hpending]
  | takeWhile cursor p =>
    unfold begins Cursor.takeWhile
    simp only [List.reverse_append, List.reverse_reverse, List.append_assoc,
      List.takeWhile_append_dropWhile]
  | complain cursor expected => rfl
  | @discard cursor n hnone =>
    have hall := congrArg (List.filter isStarter) (List.take_append_drop n cursor.pending)
    rw [List.filter_append, filter_isStarter_eq_nil hnone, List.nil_append] at hall
    unfold begins Cursor.discard
    simp only [List.filter_append, hall]
  | trans hfirst _ ihfirst ihsecond =>
    have hmiddle := ihsecond (by rw [hfirst.endToken_eq]; exact hended)
    rw [hmiddle, ihfirst hended]

/-- No move discards one. -/
theorem discarded_starters (hwalks : before.Walks after)
    (hnone : ∀ token ∈ before.discarded, token.kind ∉ starters) :
    ∀ token ∈ after.discarded, token.kind ∉ starters := by
  induction hwalks with
  | refl | take | takeWhile | complain => exact hnone
  | discard hpassed =>
    intro token htoken
    rcases List.mem_append.1 htoken with hnew | hold
    · exact hpassed token (List.mem_reverse.1 hnew)
    · exact hnone token hold
  | trans _ _ ihfirst ihsecond => exact ihsecond (ihfirst hnone)

end Walks

end Cursor

/-- The contract of recovery, and what follows from it for a whole stream of tokens.
Wherever a token is expected, it is taken at once or after a landing, or there is another
landing.  Hence a program is read to the end of its tokens and no starter is discarded: all
of them are taken, in their order. -/
theorem recovery_spares_starters {stream : TokenStream}
    (hended : stream.endToken.kind = .endOfFile)
    (hscanned : ∀ token ∈ stream.pending, token.Scanned) :
    (∀ (cursor : Cursor) (expected follow : List TokenKind),
      cursor.endToken = stream.endToken →
        Expects expected follow cursor (expect expected follow cursor)) ∧
      ∃ tree after, program (.ofStream stream) = .ok tree after ∧
        (∀ token ∈ after.discarded, token.kind ∉ starters) ∧
        after.taken.reverse.filter isStarter = stream.pending.filter isStarter := by
  refine ⟨fun cursor expected follow hsame => ?_, ?_⟩
  · refine expects_expect ?_ expected follow
    rw [hsame]
    exact hended
  · have hsound : (Cursor.ofStream stream).Sound := ⟨hended, hscanned⟩
    obtain ⟨tree, after, hrun, hpending, -⟩ := exists_program_of_sound hsound
    have hwalks := walks_program hsound.ended
    rw [finish_of_ok hrun] at hwalks
    have hbegins := hwalks.begins_eq hsound.ended
    refine ⟨tree, after, hrun, hwalks.discarded_starters (by simp [Cursor.ofStream]), ?_⟩
    rw [Cursor.begins, hpending, List.append_nil] at hbegins
    exact hbegins

/-- A source with statements in the middle of others. -/
def tangled : String := "print ) for x := 3 end for read ( read ; .. var"

/-- All tokens that begin something are taken from it. -/
theorem recovery_spares_tangled :
    ∃ tree after, program (.ofStream (.ofSource tangled)) = .ok tree after ∧
      (∀ token ∈ after.discarded, token.kind ∉ starters) ∧
      (after.taken.reverse.filter isStarter).map Token.text =
        ["print", "for", "for", "read", "read", "var"] := by
  have hsound := Cursor.sound_ofStream tangled
  obtain ⟨tree, after, hrun, hnone, hall⟩ :=
    (recovery_spares_starters hsound.ended hsound.scanned).2
  refine ⟨tree, after, hrun, hnone, ?_⟩
  rw [hall]
  decide +kernel

end Grammar

end LoopLang
