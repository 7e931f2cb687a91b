import LoopLang.Proofs.Grammar.Moves

/-!
# Progress of a reading

No reader gives back a token, and the readers that are repeated take at least one: an
operand of an expression, a statement of a list, a round of a program.  The number of
tokens that are left therefore bounds every repetition.  The bounds that the readers
are defined with never end one, and a program is read up to the end of its source.

Main definitions:

- `Operation`: what a cursor can be made to do.
- `round`: the statements up to a place where a list gets stuck, and the way to the
  next one.
- `AgreeUpTo`: two readers that do the same where few tokens are left.

Main results:

- Theorem `length_pending_statementWith_lt`: a statement takes a token, whatever becomes
  of it.
- Theorem `length_pending_round_lt`: so does a round that is not the last one.
- Theorem `statementsWithin_agreeUpTo`: as many statements as there are tokens are
  enough.
- Theorem `reading_makes_progress`: every reading goes on to the end of its source.
-/

namespace LoopLang

namespace Grammar

/-! ## Taken tokens -/

/-- Behind the last token there is only the end to be seen. -/
theorem Cursor.sees_of_nil {cursor : Cursor} (hended : cursor.endToken.kind = .endOfFile)
    (hpending : cursor.pending = []) (kinds : List TokenKind) :
    cursor.sees kinds = kinds.contains .endOfFile := by
  rw [sees, Token.isOneOf, current, hpending, List.headD_nil, hended]

/-- A token that is seen is there and can be taken, unless the end is looked for. -/
theorem Cursor.length_pending_take_lt {cursor : Cursor} {kinds : List TokenKind}
    (hended : cursor.endToken.kind = .endOfFile) (hkinds : TokenKind.endOfFile ∉ kinds)
    (hsees : cursor.sees kinds = true) : cursor.take.pending.length < cursor.pending.length := by
  cases hpending : cursor.pending with
  | nil =>
    rw [sees_of_nil hended hpending] at hsees
    exact absurd (List.contains_iff_mem.1 hsees) hkinds
  | cons token rest =>
    rw [take, hpending]
    exact Nat.lt_succ_self _

/-- An expected token is taken, at once or after recovery. -/
theorem length_pending_lt_of_expect {cursor after : Cursor} {expected follow : List TokenKind}
    {token : Token} (hended : cursor.endToken.kind = .endOfFile)
    (hexpected : TokenKind.endOfFile ∉ expected)
    (hrun : expect expected follow cursor = .ok token after) :
    after.pending.length < cursor.pending.length := by
  cases hsees : cursor.sees expected with
  | true =>
    rw [expect_apply, hsees, if_pos rfl] at hrun
    cases hrun
    exact Cursor.length_pending_take_lt hended hexpected hsees
  | false =>
    rcases expect_of_not_sees follow hsees with ⟨landing, n, hlands, hexpect⟩
    rw [hexpect] at hrun
    cases landing with
    | followed | blocked => cases hrun
    | found =>
      cases hrun
      have hlanded : ((cursor.complain expected).discard n).endToken.kind = .endOfFile := hended
      have hfound : ((cursor.complain expected).discard n).sees expected = true :=
        List.contains_iff_mem.2 (hlands.reaches hended)
      have htake := Cursor.length_pending_take_lt hlanded hexpected hfound
      have hdiscard : ((cursor.complain expected).discard n).pending.length ≤
          cursor.pending.length := by
        simp [Cursor.discard, Cursor.complain]
      exact Nat.lt_of_lt_of_le htake hdiscard

/-- A statement takes a token, whatever becomes of it. -/
theorem length_pending_statementWith_lt {body : Parse Program} (hbody : Walking body)
    {cursor : Cursor} (hended : cursor.endToken.kind = .endOfFile)
    (hfirst : cursor.sees statementFirst = true) :
    (finish (statementWith body) cursor).pending.length < cursor.pending.length := by
  have hwalks := walks_statementWith hbody (List.contains_iff_mem.1 hfirst)
  have htake := Cursor.length_pending_take_lt hended (by decide) hfirst
  exact Nat.lt_of_le_of_lt hwalks.length_pending_le htake

/-! ## Bounds that are large enough -/

/-- The readers do the same wherever at most `n` tokens are left. -/
def AgreeUpTo {α : Type} (n : Nat) (reader other : Parse α) : Prop :=
  ∀ cursor : Cursor, cursor.endToken.kind = .endOfFile → cursor.pending.length ≤ n →
    reader cursor = other cursor

/-- Two readers that do the same at a place, and after which the same is done. -/
theorem bind_eq_bind {α β : Type} {reader other : Parse α} {next following : α → Parse β}
    {cursor : Cursor} (hsame : reader cursor = other cursor)
    (hnext : ∀ a after, reader cursor = .ok a after → next a after = following a after) :
    (reader >>= next) cursor = (other >>= following) cursor := by
  cases hrun : reader cursor with
  | error stop after =>
    rw [bind_eq_of_error hrun, bind_eq_of_error (hsame.symm.trans hrun)]
  | ok a after =>
    rw [bind_eq_of_ok hrun, bind_eq_of_ok (hsame.symm.trans hrun), hnext a after hrun]

namespace AgreeUpTo

variable {α β : Type} {n : Nat} {reader other : Parse α} {next following : α → Parse β}

theorem refl (n : Nat) (reader : Parse α) : AgreeUpTo n reader reader :=
  fun _ _ _ => rfl

/-- Two readers, one after the other. -/
theorem bind (hwalking : Walking reader) (hreader : AgreeUpTo n reader other)
    (hnext : ∀ a, AgreeUpTo n (next a) (following a)) :
    AgreeUpTo n (reader >>= next) (other >>= following) := by
  intro cursor hended hlength
  apply bind_eq_bind (hreader cursor hended hlength)
  intro a after hrun
  have hwalks := hwalking.of_ok hrun
  refine hnext a after ?_ (Nat.le_trans hwalks.length_pending_le hlength)
  rw [hwalks.endToken_eq]
  exact hended

/-- Where an expected token has been taken, there is one token less. -/
theorem expect_bind {expected follow : List TokenKind}
    (hexpected : TokenKind.endOfFile ∉ expected) {next following : Token → Parse β}
    (hnext : ∀ token, AgreeUpTo n (next token) (following token)) :
    AgreeUpTo (n + 1) (expect expected follow >>= next) (expect expected follow >>= following) := by
  intro cursor hended hlength
  apply bind_eq_bind rfl
  intro token after hrun
  have hless := length_pending_lt_of_expect hended hexpected hrun
  refine hnext token after ?_ (by omega)
  rw [((Walking.expect expected follow).of_ok hrun).endToken_eq]
  exact hended

end AgreeUpTo

/-! ### Expressions -/

/-- At the end of the source there is no operand. -/
theorem expressionTokensWithin_of_nil {cursor : Cursor}
    (hended : cursor.endToken.kind = .endOfFile) (hpending : cursor.pending = []) (bound : Nat) :
    expressionTokensWithin bound cursor = expressionTokensWithin 0 cursor := by
  cases hrun : expect operandFirst expressionFollow cursor with
  | ok token after =>
    have hless := length_pending_lt_of_expect hended (by decide) hrun
    rw [hpending] at hless
    exact absurd hless (Nat.not_lt_zero _)
  | error stop after =>
    cases bound with
    | zero => rfl
    | succ bound =>
      have hunary : unaryOperators cursor = .ok [] cursor := by
        simp only [unaryOperators, Cursor.takeWhile, hpending, List.takeWhile_nil,
          List.dropWhile_nil, List.reverse_nil, List.nil_append]
        rw [← hpending]
      have hnone : expressionTokensWithin 0 cursor = .error stop after :=
        bind_eq_of_error hrun _
      rw [expressionTokensWithin_succ, bind_eq_of_ok hunary, bind_eq_of_error hrun, hnone]

/-- As many operands as there are tokens are enough. -/
theorem expressionTokensWithin_agreeUpTo {n bound : Nat} (hbound : n ≤ bound) :
    AgreeUpTo n (expressionTokensWithin bound) (expressionTokensWithin n) := by
  induction n generalizing bound with
  | zero =>
    intro cursor hended hlength
    have hpending := List.length_eq_zero_iff.1 (Nat.le_zero.1 hlength)
    exact expressionTokensWithin_of_nil hended hpending bound
  | succ n ih =>
    cases bound with
    | zero => exact absurd hbound (Nat.not_succ_le_zero n)
    | succ bound =>
      have hinner := ih (Nat.le_of_succ_le_succ hbound)
      have hchain : ∀ term, AgreeUpTo n (chainFrom (expressionTokensWithin bound) term)
          (chainFrom (expressionTokensWithin n) term) := by
        intro term
        refine .bind (.accept _) (.refl n _) fun accepted => ?_
        cases accepted with
        | false => exact .refl n _
        | true =>
          refine .bind .get (.refl n _) fun cursor => ?_
          exact .bind (.expressionTokensWithin bound) hinner fun _ => .refl n _
      rw [expressionTokensWithin_succ, expressionTokensWithin_succ]
      refine .bind .unaryOperators (.refl _ _) fun operators => ?_
      refine .expect_bind (by decide) fun operand => ?_
      split
      · refine .bind (.expressionTokensWithin bound) hinner fun inner => ?_
        exact .bind (.expect _ _) (.refl n _) fun close => hchain _
      · exact hchain _

/-! ### Lists of statements -/

/-- Only the body of a loop is read with a bound, and there the first token of the loop
has been taken. -/
theorem statementWith_eq {n : Nat} {body other : Parse Program} (hwalking : Walking body)
    (hbody : AgreeUpTo n body other) {cursor : Cursor}
    (hended : cursor.endToken.kind = .endOfFile) (hlength : cursor.pending.length ≤ n + 1) :
    statementWith body cursor = statementWith other cursor := by
  have hread : ∀ body, statementWith body cursor = _ := fun body => bind_eq_of_ok rfl _
  rw [hread, hread]
  cases hkind : cursor.current.kind with
  | forKeyword =>
    have hsees : cursor.sees [.forKeyword] = true :=
      List.contains_iff_mem.2 (List.mem_singleton.2 hkind)
    have haccept : accept [.forKeyword] cursor = .ok true cursor.take := if_pos hsees
    have hless := Cursor.length_pending_take_lt hended (by decide) hsees
    show loop body cursor = loop other cursor
    rw [loop, loop, bind_eq_of_ok haccept, bind_eq_of_ok haccept]
    refine AgreeUpTo.bind (.expectPart _ _) (.refl n _) (fun counter => ?_) cursor.take hended
      (by omega)
    refine .bind (.expectPart _ _) (.refl n _) fun inWord => ?_
    refine .bind (.skippable .expression) (.refl n _) fun first => ?_
    refine .bind (.resume first) (.refl n _) fun first => ?_
    refine .bind (.expectPart _ _) (.refl n _) fun range => ?_
    refine .bind (.skippable .expression) (.refl n _) fun last => ?_
    refine .bind (.resume last) (.refl n _) fun last => ?_
    refine .bind (.skippable (.expect _ _)) (.refl n _) fun doWord => ?_
    exact .bind hwalking hbody fun program => .refl n _
  | _ => rfl

/-- An attempt at a statement takes a token. -/
theorem length_pending_lt_of_attempt {body : Parse Program} (hbody : Walking body)
    {cursor after : Cursor} {result : Attempt} (hended : cursor.endToken.kind = .endOfFile)
    (hfirst : cursor.sees statementFirst = true)
    (hrun : attempt (statementWith body) cursor = .ok result after) :
    after.pending.length < cursor.pending.length := by
  have hless := length_pending_statementWith_lt hbody hended hfirst
  rwa [← finish_attempt, finish_of_ok hrun] at hless

/-- As many statements as there are tokens are enough. -/
theorem statementsWithin_agreeUpTo {n bound : Nat} (hbound : n ≤ bound) :
    AgreeUpTo n (statementsWithin bound) (statementsWithin n) := by
  induction n generalizing bound with
  | zero =>
    intro cursor hended hlength
    have hpending := List.length_eq_zero_iff.1 (Nat.le_zero.1 hlength)
    have hnone := Cursor.sees_of_nil hended hpending statementFirst
    rw [statementsWithin_of_sees_eq_false hnone, statementsWithin_of_sees_eq_false hnone]
  | succ n ih =>
    cases bound with
    | zero => exact absurd hbound (Nat.not_succ_le_zero n)
    | succ bound =>
      intro cursor hended hlength
      have hrest := ih (Nat.le_of_succ_le_succ hbound)
      have hwalking := Walking.statementsWithin bound
      cases hfirst : cursor.sees statementFirst with
      | false =>
        rw [statementsWithin_of_sees_eq_false hfirst, statementsWithin_of_sees_eq_false hfirst]
      | true =>
        have hread : ∀ bound, statementsWithin (bound + 1) cursor = _ := fun bound =>
          bind_eq_of_ok rfl _
        simp only [hread, hfirst, if_true]
        have hsame : attempt (statementWith (statementsWithin bound)) cursor =
            attempt (statementWith (statementsWithin n)) cursor := by
          rw [attempt, attempt, statementWith_eq hwalking hrest hended hlength]
        apply bind_eq_bind hsame
        intro result after hrun
        have hless := length_pending_lt_of_attempt hwalking hended hfirst hrun
        have hwalks := (Walking.attempt (.statementWith hwalking)).of_ok hrun
        have hmore : AgreeUpTo n (do return result.toList ++ (← statementsWithin bound))
            (do return result.toList ++ (← statementsWithin n)) :=
          .bind hwalking hrest fun _ => .refl n _
        refine AgreeUpTo.bind (.accept _) (.refl n _) (fun separated => ?_) after
          (by rw [hwalks.endToken_eq]; exact hended) (by omega)
        split
        · exact hmore
        · refine .bind .get (.refl n _) fun place => ?_
          split
          · exact .bind (.unexpected _) (.refl n _) fun _ => hmore
          · exact .refl n _

/-! ## Where readings end -/

/-- The reader ends at a place as stated, unless a fault ends it. -/
def EndsAt {α : Type} (reader : Parse α) (cursor : Cursor) (place : Cursor → Prop) : Prop :=
  match reader cursor with
  | .ok _ after => place after
  | .error stop _ => ∃ fault, stop = .fatal fault

namespace EndsAt

variable {α β : Type} {reader : Parse α} {cursor : Cursor} {place : Cursor → Prop}

/-- A reader that gets to its end ends in the place that it leaves. -/
theorem of_ok {a : α} {after : Cursor} (hrun : reader cursor = .ok a after) :
    EndsAt reader cursor place ↔ place after := by
  rw [EndsAt, hrun]

/-- A reader that stops short is allowed for only if a fault stops it. -/
theorem of_error {stop : Stop} {after : Cursor} (hrun : reader cursor = .error stop after) :
    EndsAt reader cursor place ↔ ∃ fault, stop = .fatal fault := by
  rw [EndsAt, hrun]

theorem pure {a : α} (hplace : place cursor) : EndsAt (Pure.pure a) cursor place :=
  hplace

/-- Two readers, one after the other. -/
theorem bind {next : α → Parse β} {middle : Cursor → Prop} (hreader : EndsAt reader cursor middle)
    (hnext : ∀ a after, reader cursor = .ok a after → middle after → EndsAt (next a) after place) :
    EndsAt (reader >>= next) cursor place := by
  cases hrun : reader cursor with
  | error stop after =>
    rw [of_error (bind_eq_of_error hrun next)]
    exact (of_error hrun).1 hreader
  | ok a after =>
    have hlast := hnext a after hrun ((of_ok hrun).1 hreader)
    unfold EndsAt at hlast ⊢
    rwa [bind_eq_of_ok hrun]

/-- Looking at the cursor changes nothing. -/
theorem get_bind {next : Cursor → Parse β} (hnext : EndsAt (next cursor) cursor place) :
    EndsAt (get >>= next) cursor place :=
  hnext

theorem accept (kinds : List TokenKind) :
    EndsAt (Grammar.accept kinds) cursor fun _ => True := by
  unfold EndsAt Grammar.accept
  by_cases hsees : cursor.sees kinds = true
  · rw [if_pos hsees]
    trivial
  · rw [if_neg hsees]
    trivial

/-- An attempt gets to its end unless its statement meets a fault. -/
theorem attempt (reader : Parse Stmt) :
    EndsAt (Grammar.attempt reader) cursor fun _ => True := by
  cases hrun : Grammar.attempt reader cursor with
  | ok result after => exact (of_ok hrun).2 trivial
  | error stop after => exact (of_error hrun).2 (exists_fault_of_attempt hrun)

/-- A list of statements ends where no statement begins. -/
theorem statementsWithin (bound : Nat) {cursor : Cursor}
    (hended : cursor.endToken.kind = .endOfFile) (hlength : cursor.pending.length ≤ bound) :
    EndsAt (Grammar.statementsWithin bound) cursor fun after =>
      after.sees statementFirst = false := by
  induction bound generalizing cursor with
  | zero =>
    have hpending := List.length_eq_zero_iff.1 (Nat.le_zero.1 hlength)
    exact pure (Cursor.sees_of_nil hended hpending _)
  | succ bound ih =>
    unfold Grammar.statementsWithin
    apply get_bind
    by_cases hfirst : cursor.sees statementFirst = true
    · rw [if_pos hfirst]
      have hwalking := Walking.statementsWithin bound
      refine bind (attempt _) fun result c₁ hrun₁ _ => ?_
      refine bind (accept _) fun separated c₂ hrun₂ _ => ?_
      have hwalks₁ := (Walking.attempt (.statementWith hwalking)).of_ok hrun₁
      have hwalks₂ := (Walking.accept _).of_ok hrun₂
      have hless := length_pending_lt_of_attempt hwalking hended hfirst hrun₁
      have hfewer := hwalks₂.length_pending_le
      have hended₂ : c₂.endToken.kind = .endOfFile := by
        rw [hwalks₂.endToken_eq, hwalks₁.endToken_eq]
        exact hended
      split
      · exact bind (ih hended₂ (by omega)) fun _ _ _ hplace => pure hplace
      · apply get_bind
        split
        · have hcomplain : EndsAt (unexpected [.semicolon]) c₂
              fun after => after = c₂.complain [.semicolon] := rfl
          refine bind hcomplain fun _ c₃ _ hsame => ?_
          subst hsame
          exact bind (ih hended₂ (by show c₂.pending.length ≤ bound; omega))
            fun _ _ _ hplace => pure hplace
        · next hnone => exact pure (Bool.eq_false_iff.2 hnone)
    · rw [if_neg hfirst]
      exact pure (Bool.eq_false_iff.2 hfirst)

/-- A list of statements ends where no statement begins. -/
theorem statementsOrNone {cursor : Cursor} (hended : cursor.endToken.kind = .endOfFile) :
    EndsAt Grammar.statementsOrNone cursor fun after => after.sees statementFirst = false := by
  have hstatements : EndsAt Grammar.statements cursor fun after =>
      after.sees statementFirst = false :=
    get_bind (statementsWithin _ hended (Nat.le_refl _))
  unfold EndsAt Grammar.statementsOrNone
  cases hrun : Grammar.statements cursor with
  | ok program after => exact (of_ok hrun).1 hstatements
  | error stop after =>
    rcases (of_error hrun).1 hstatements with ⟨fault, rfl⟩
    exact ⟨fault, rfl⟩

end EndsAt

/-! ## Rounds -/

/-- One round of a program: the statements up to a place where the list cannot go on,
and whether that is the end of the source.  If not, a complaint and the way to the next
statement belong to the round. -/
def round : Parse (Program × Bool) := do
  let front ← statementsOrNone
  if (← get).sees [.endOfFile] then
    return (front, true)
  else
    unexpected (← get).listExpected
    modify Cursor.skipToStatement
    return (front, false)

section Rounds

variable {cursor after : Cursor} {front : Program}

/-- The last round. -/
theorem round_of_ended (hfront : statementsOrNone cursor = .ok front after)
    (hend : after.sees [.endOfFile] = true) : round cursor = .ok (front, true) after := by
  refine (bind_eq_of_ok hfront _).trans ((bind_eq_of_ok rfl _).trans ?_)
  rw [hend]
  rfl

/-- A round that leads to another one. -/
theorem round_of_stuck (hfront : statementsOrNone cursor = .ok front after)
    (hmore : after.sees [.endOfFile] = false) :
    round cursor = .ok (front, false) (after.complain after.listExpected).skipToStatement := by
  refine (bind_eq_of_ok hfront _).trans ((bind_eq_of_ok rfl _).trans ?_)
  rw [hmore]
  rfl

/-- What a round that has ended was. -/
theorem round_cases {next : Cursor} {ended : Bool}
    (hround : round cursor = .ok (front, ended) next) :
    ∃ after, statementsOrNone cursor = .ok front after ∧ after.sees [.endOfFile] = ended ∧
      next = if ended then after else (after.complain after.listExpected).skipToStatement := by
  cases hfront : statementsOrNone cursor with
  | error stop after =>
    have herror : round cursor = .error stop after := bind_eq_of_error hfront _
    rw [herror] at hround
    cases hround
  | ok program after =>
    cases hend : after.sees [.endOfFile] with
    | true =>
      rw [round_of_ended hfront hend] at hround
      cases hround
      exact ⟨_, rfl, hend, rfl⟩
    | false =>
      rw [round_of_stuck hfront hend] at hround
      cases hround
      exact ⟨after, rfl, hend, rfl⟩

end Rounds

/-- A program is read round by round. -/
theorem programWithin_succ (bound : Nat) :
    programWithin (bound + 1) = (do
      let (front, ended) ← round
      if ended then return front else return front ++ (← programWithin bound)) := by
  funext cursor
  cases hfront : statementsOrNone cursor with
  | error stop after =>
    have hround : round cursor = .error stop after := bind_eq_of_error hfront _
    rw [bind_eq_of_error hround]
    exact bind_eq_of_error hfront _
  | ok front after =>
    refine (bind_eq_of_ok hfront _).trans ((bind_eq_of_ok rfl _).trans ?_)
    cases hend : after.sees [.endOfFile] with
    | true =>
      rw [bind_eq_of_ok (round_of_ended hfront hend)]
      rfl
    | false =>
      rw [bind_eq_of_ok (round_of_stuck hfront hend)]
      rfl

/-- A round that leads to another one passes over a token. -/
theorem length_pending_round_lt {cursor next : Cursor} {front : Program}
    (hended : cursor.endToken.kind = .endOfFile)
    (hround : round cursor = .ok (front, false) next) :
    next.endToken.kind = .endOfFile ∧ next.pending.length < cursor.pending.length := by
  obtain ⟨after, hfront, hmore, rfl⟩ := round_cases hround
  have hwalks := Walking.statementsOrNone.of_ok hfront
  have hend : after.endToken.kind = .endOfFile := by
    rw [hwalks.endToken_eq]
    exact hended
  have hleft := hwalks.length_pending_le
  refine ⟨hend, ?_⟩
  rw [if_neg Bool.false_ne_true, pending_skipToStatement]
  show (after.pending.tail.dropWhile isStray).length < cursor.pending.length
  have hdrop := (List.dropWhile_suffix (l := after.pending.tail) isStray).length_le
  cases hpending : after.pending with
  | nil =>
    rw [Cursor.sees_of_nil hend hpending] at hmore
    cases hmore
  | cons token rest =>
    rw [hpending, List.tail_cons] at hdrop
    rw [hpending, List.length_cons] at hleft
    rw [List.tail_cons]
    omega

/-- As many rounds as there are tokens are enough. -/
theorem programWithin_agreeUpTo {n bound : Nat} (hbound : n ≤ bound) :
    AgreeUpTo n (programWithin bound) (programWithin n) := by
  induction n generalizing bound with
  | zero =>
    intro cursor hended hlength
    have hpending := List.length_eq_zero_iff.1 (Nat.le_zero.1 hlength)
    have hstatements : statements cursor = .ok [] cursor :=
      bind_ok rfl (statementsWithin_of_sees_eq_false (Cursor.sees_of_nil hended hpending _) _)
    have hend := Cursor.sees_of_nil hended hpending [.endOfFile]
    rw [programWithin_of_statements hstatements hend (Nat.le_trans hlength hbound),
      programWithin_of_statements hstatements hend hlength]
  | succ n ih =>
    cases bound with
    | zero => exact absurd hbound (Nat.not_succ_le_zero n)
    | succ bound =>
      intro cursor hended hlength
      rw [programWithin_succ, programWithin_succ]
      apply bind_eq_bind rfl
      rintro ⟨front, ended⟩ next hround
      cases ended with
      | true => rfl
      | false =>
        rcases length_pending_round_lt hended hround with ⟨hnext, hless⟩
        have hrest := ih (Nat.le_of_succ_le_succ hbound) next hnext (by omega)
        exact bind_eq_bind hrest fun _ _ _ => rfl

/-- A program ends at the end of its source. -/
theorem EndsAt.programWithin (bound : Nat) {cursor : Cursor}
    (hended : cursor.endToken.kind = .endOfFile) (hlength : cursor.pending.length ≤ bound) :
    EndsAt (Grammar.programWithin bound) cursor fun after =>
      after.sees [.endOfFile] = true := by
  induction bound generalizing cursor with
  | zero =>
    have hpending := List.length_eq_zero_iff.1 (Nat.le_zero.1 hlength)
    exact pure (Cursor.sees_of_nil hended hpending _)
  | succ bound ih =>
    have hround : EndsAt round cursor fun _ => True := by
      refine bind (statementsOrNone hended) fun front after _ _ => get_bind ?_
      split
      · exact pure trivial
      · exact trivial
    rw [programWithin_succ]
    refine bind hround fun step next hrun _ => ?_
    rcases step with ⟨front, ended⟩
    cases ended with
    | true =>
      obtain ⟨after, -, hend, rfl⟩ := round_cases hrun
      exact pure hend
    | false =>
      rcases length_pending_round_lt hended hrun with ⟨hnext, hless⟩
      exact bind (ih hnext (by omega)) fun _ _ _ hplace => pure hplace

/-! ## The operations of a reading -/

/-- What a cursor can be made to do while a program is read. -/
inductive Operation where
  | advance
  | accept (kinds : List TokenKind)
  | expect (expected follow : List TokenKind)
  | expectPart (expected follow : List TokenKind)
  | resume (part : Option Unit)
  | unexpected (expected : List TokenKind)
  | expression
  | declaration
  | assignment
  | loop
  | readStatement
  | printStatement
  | assertion
  | statement
  | statements
  | program

/-- Where the cursor is after an operation, however this has ended. -/
def Operation.run (cursor : Cursor) : Operation → Cursor
  | advance => cursor.discard 1
  | accept kinds => finish (Grammar.accept kinds) cursor
  | expect expected follow => finish (Grammar.expect expected follow) cursor
  | expectPart expected follow => finish (Grammar.expectPart expected follow) cursor
  | resume part => finish (Grammar.resume part) cursor
  | unexpected expected => finish (Grammar.unexpected expected) cursor
  | expression => finish Grammar.expression cursor
  | declaration => finish Grammar.declaration cursor
  | assignment => finish Grammar.assignment cursor
  | loop => finish (Grammar.loop Grammar.statements) cursor
  | readStatement => finish Grammar.readStatement cursor
  | printStatement => finish Grammar.printStatement cursor
  | assertion => finish Grammar.assertion cursor
  | statement => finish Grammar.statement cursor
  | statements => finish Grammar.statements cursor
  | program => finish Grammar.program cursor

/-- Operations only go forward. -/
theorem Operation.advances_run (operation : Operation) (cursor : Cursor) :
    cursor.Advances (operation.run cursor) := by
  have hstatements : Walking Grammar.statements := .bind .get fun _ => .statementsWithin _
  cases operation with
  | advance => exact .discard cursor 1
  | accept kinds => exact (Walking.accept kinds cursor).advances
  | expect expected follow => exact (Walking.expect expected follow cursor).advances
  | expectPart expected follow => exact (Walking.expectPart expected follow cursor).advances
  | resume part => exact (Walking.resume part cursor).advances
  | unexpected expected => exact (Walking.unexpected expected cursor).advances
  | expression => exact (Walking.expression cursor).advances
  | declaration => exact (Opens.declaration.walking cursor).advances
  | assignment => exact (Opens.assignment.walking cursor).advances
  | loop => exact ((Opens.loop hstatements).walking cursor).advances
  | readStatement => exact (Opens.readStatement.walking cursor).advances
  | printStatement => exact (Opens.printStatement.walking cursor).advances
  | assertion => exact (Opens.assertion.walking cursor).advances
  | statement =>
    have hstatement : Walking Grammar.statement :=
      .bind .get fun _ => .statementWith (.statementsWithin _)
    exact (hstatement cursor).advances
  | statements => exact (hstatements cursor).advances
  | program =>
    have hreads : Reads False Grammar.program cursor _ :=
      Reads.get_bind (Reads.programWithin _ False.elim)
    show cursor.Advances (finish Grammar.program cursor)
    cases hrun : Grammar.program cursor with
    | ok program after =>
      rw [finish_of_ok hrun]
      exact ((Reads.iff_of_ok hrun).1 hreads).1
    | error stop after =>
      rw [finish_of_error hrun]
      exact ((Reads.iff_of_error hrun).1 hreads).1

/-! ## Whole readings -/

/-- Without a bound, a program is still read round by round. -/
theorem program_eq_rounds {cursor : Cursor} (hended : cursor.endToken.kind = .endOfFile) :
    program cursor = (do
      let (front, ended) ← round
      if ended then return front else return front ++ (← program)) cursor := by
  have hone : program cursor = programWithin (cursor.pending.length + 1) cursor :=
    (programWithin_agreeUpTo (Nat.le_succ _) cursor hended (Nat.le_refl _)).symm
  rw [hone, programWithin_succ]
  apply bind_eq_bind rfl
  rintro ⟨front, ended⟩ next hround
  cases ended with
  | true => rfl
  | false =>
    rcases length_pending_round_lt hended hround with ⟨hnext, hless⟩
    have hrest : programWithin cursor.pending.length next = program next :=
      programWithin_agreeUpTo (Nat.le_of_lt hless) next hnext (Nat.le_refl _)
    exact bind_eq_bind hrest fun _ _ _ => rfl

/-- The tokens of a source are read to their end. -/
theorem exists_program_of_sound {cursor : Cursor} (hsound : cursor.Sound) :
    ∃ tree after, program cursor = .ok tree after ∧ after.pending = [] ∧
      after.current.kind = .endOfFile := by
  have hpasses : Passes.PassesProgram program cursor := Passes.get_bind (Passes.programWithin _)
  have hends : EndsAt program cursor fun after => after.sees [.endOfFile] = true :=
    EndsAt.get_bind (EndsAt.programWithin _ hsound.ended (Nat.le_refl _))
  cases hrun : program cursor with
  | error stop after =>
    rcases (EndsAt.of_error hrun).1 hends with ⟨fault, hfault⟩
    exact absurd hfault ((hpasses.of_error hsound hrun).2 fault)
  | ok tree after =>
    have hend := (EndsAt.of_ok hrun).1 hends
    obtain ⟨passed, hpassed, -⟩ := hpasses.of_ok hsound hrun
    have hafter := hsound.passed hpassed
    exact ⟨tree, after, rfl, hafter.pending_eq_nil hend,
      List.mem_singleton.1 (List.contains_iff_mem.1 hend)⟩

/-- At every place of a reading there is progress.  No operation gives back a token; a
statement whose first token comes next takes a token, whatever becomes of it; and so
does every round of a program that is not its last one.  Hence there is an end to every
repetition: the program is what its rounds make it without any bound on their number, and
in the same way no larger bound changes an expression or a list of statements.  The tokens
of a source are read up to its end. -/
theorem reading_makes_progress {cursor : Cursor} (hended : cursor.endToken.kind = .endOfFile) :
    (∀ operation : Operation, (operation.run cursor).pending <:+ cursor.pending) ∧
      (cursor.current.kind ∈ statementFirst →
        (finish statement cursor).pending.length < cursor.pending.length) ∧
      (∀ front next, round cursor = .ok (front, false) next →
        next.pending.length < cursor.pending.length) ∧
      (program cursor = (do
        let (front, ended) ← round
        if ended then return front else return front ++ (← program)) cursor) ∧
      (∀ bound, cursor.pending.length ≤ bound →
        expressionTokensWithin bound cursor = expressionTokens cursor ∧
          statementsWithin bound cursor = statements cursor ∧
          programWithin bound cursor = program cursor) ∧
      ((∀ token ∈ cursor.pending, token.Scanned) →
        ∃ tree after, program cursor = .ok tree after ∧ after.pending = [] ∧
          after.current.kind = .endOfFile) := by
  refine ⟨?_, ?_, ?_, program_eq_rounds hended, ?_, ?_⟩
  · intro operation
    rcases (operation.advances_run cursor).exists_passed with ⟨tokens, hpassed⟩
    exact ⟨tokens, hpassed.pending_eq.symm⟩
  · intro hfirst
    have hread : statement cursor =
        statementWith (statementsWithin cursor.pending.length) cursor := bind_eq_of_ok rfl _
    have hsame : finish statement cursor =
        finish (statementWith (statementsWithin cursor.pending.length)) cursor := by
      rw [finish, finish, hread]
    rw [hsame]
    exact length_pending_statementWith_lt (.statementsWithin _) hended
      (List.contains_iff_mem.2 hfirst)
  · intro front next hround
    exact (length_pending_round_lt hended hround).2
  · intro bound hbound
    have hleft := Nat.le_refl cursor.pending.length
    exact ⟨expressionTokensWithin_agreeUpTo hbound cursor hended hleft,
      statementsWithin_agreeUpTo hbound cursor hended hleft,
      programWithin_agreeUpTo hbound cursor hended hleft⟩
  · intro hscanned
    exact exists_program_of_sound ⟨hended, hscanned⟩

/-- A source in which nothing is in its place. -/
def scrambled : String := "for ) end read := .. do var print ; ) 3 ( assert"

/-- Its loop takes a token, and it is read up to its end. -/
theorem scrambled_makes_progress :
    (finish statement (.ofStream (.ofSource scrambled))).pending.length <
        (Cursor.ofStream (.ofSource scrambled)).pending.length ∧
      ∃ tree after, program (.ofStream (.ofSource scrambled)) = .ok tree after ∧
        after.pending = [] ∧ after.current.kind = .endOfFile := by
  have hsound := Cursor.sound_ofStream scrambled
  have hfirst : (Cursor.ofStream (.ofSource scrambled)).current.kind ∈ statementFirst := by
    decide +kernel
  have hprogress := reading_makes_progress hsound.ended
  exact ⟨hprogress.2.1 hfirst, hprogress.2.2.2.2.2 hsound.scanned⟩

end Grammar

end LoopLang
