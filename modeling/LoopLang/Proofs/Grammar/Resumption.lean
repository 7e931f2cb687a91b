import LoopLang.Proofs.Grammar.Completeness
import LoopLang.Proofs.Grammar.Confinement

/-!
# Reading around a broken statement

A list of statements is read one after the other, so that it can be cut at every
place where a statement may begin.  A broken statement at the top level ends at
its semicolon: the list goes on behind it, or it gets stuck before, and then the
search for the next statement ends there.  The statements around it are read as
if it was not there.

Main definitions:

- `Leads`: the list at one place is some statements and the list at another.
- `IsTerminated`: statements with a semicolon after each of them.
- `Cursor.Breaks`: a broken statement and its semicolon come next.

Main results:

- Theorem `Leads.step`: a list goes on after each of its statements.
- Theorem `leads_of_isTerminated`: statements with their semicolons are read, and
  the list goes on after them.
- Theorem `leads_of_breaks`: in a broken statement, a list gets stuck or goes on
  behind the semicolon.
- Theorem `ofStream_of_broken_statement`: a broken statement does no harm to the
  statements around it.
-/

namespace LoopLang

namespace Grammar

/-! ## Places of a list -/

/-- Where a list goes on after one of its statements: behind the semicolon, or at
once.  If a statement begins there, the missing semicolon is recorded, unless the
one before was given up because of it. -/
def Cursor.afterAttempt (cursor : Cursor) (result : Attempt) : Cursor :=
  if cursor.sees [.semicolon] then cursor.take
  else if result.isHalted then cursor
  else if cursor.sees statementFirst then cursor.complain [.semicolon]
  else cursor

/-- The list of statements that begins at one place has the given statements first
and then those of the list that begins at another place. -/
def Leads (start : Cursor) (front : Program) (cursor : Cursor) : Prop :=
  ∀ bound, start.pending.length ≤ bound → ∃ left, cursor.pending.length ≤ left ∧
    statementsWithin bound start = (do return front ++ (← statementsWithin left)) cursor

/-- Where no statement begins, a list ends. -/
theorem statementsWithin_of_sees_eq_false {cursor : Cursor}
    (hnone : cursor.sees statementFirst = false) (bound : Nat) :
    statementsWithin bound cursor = .ok [] cursor := by
  cases bound with
  | zero => rfl
  | succ bound =>
    refine bind_ok rfl ?_
    rw [hnone]
    rfl

/-- No tokens come back after an attempt. -/
theorem length_pending_afterAttempt_le (cursor : Cursor) (result : Attempt) :
    (cursor.afterAttempt result).pending.length ≤ cursor.pending.length := by
  unfold Cursor.afterAttempt
  repeat' split
  · simp [Cursor.take]
  · exact Nat.le_refl _
  · exact Nat.le_refl _
  · exact Nat.le_refl _

namespace Leads

variable {start middle cursor : Cursor} {front more : Program}

theorem refl (cursor : Cursor) : Leads cursor [] cursor := by
  intro bound hbound
  refine ⟨bound, hbound, ?_⟩
  cases hrun : statementsWithin bound cursor with
  | ok program after => exact (bind_ok hrun rfl).symm
  | error stop after => exact (bind_eq_of_error hrun _).symm

/-- The first statements of a list, and then the first ones of what is left of it. -/
theorem trans (hfirst : Leads start front middle) (hsecond : Leads middle more cursor) :
    Leads start (front ++ more) cursor := by
  intro bound hbound
  rcases hfirst bound hbound with ⟨left, hleft, hstart⟩
  rcases hsecond left hleft with ⟨less, hless, hmiddle⟩
  refine ⟨less, hless, hstart.trans ?_⟩
  cases hrun : statementsWithin less cursor with
  | ok program after =>
    have hrest : statementsWithin left middle = .ok (more ++ program) after :=
      hmiddle.trans (bind_ok hrun rfl)
    rw [bind_eq_of_ok hrest, bind_eq_of_ok hrun, List.append_assoc]
  | error stop after =>
    have hrest : statementsWithin left middle = .error stop after :=
      hmiddle.trans (bind_eq_of_error hrun _)
    rw [bind_eq_of_error hrest, bind_eq_of_error hrun]

/-- After a statement of a list, the list goes on. -/
theorem step {after : Cursor} {result : Attempt} (hfirst : cursor.sees statementFirst = true)
    (hread : ∀ bound, cursor.pending.length ≤ bound + 1 →
      attempt (statementWith (statementsWithin bound)) cursor = .ok result after)
    (hless : after.pending.length < cursor.pending.length) :
    Leads cursor result.toList (after.afterAttempt result) := by
  intro bound hbound
  cases bound with
  | zero => omega
  | succ bound =>
    have hlength := length_pending_afterAttempt_le after result
    refine ⟨bound, by omega, ?_⟩
    have hrun : statementsWithin (bound + 1) cursor = _ := bind_eq_of_ok rfl _
    simp only [hfirst, if_true] at hrun
    rw [hrun, bind_eq_of_ok (hread bound hbound), Cursor.afterAttempt]
    by_cases hseparated : after.sees [.semicolon] = true
    · have haccept : accept [.semicolon] after = .ok true after.take := if_pos hseparated
      rw [if_pos hseparated, bind_eq_of_ok haccept]
      rfl
    · have haccept : accept [.semicolon] after = .ok false after := if_neg hseparated
      rw [if_neg hseparated, bind_eq_of_ok haccept]
      cases hhalted : result.isHalted with
      | true => rfl
      | false =>
        refine (bind_eq_of_ok rfl _).trans ?_
        by_cases hnext : after.sees statementFirst = true
        · rw [if_pos hnext, if_pos hnext]
          rfl
        · have hnone := statementsWithin_of_sees_eq_false (Bool.eq_false_iff.2 hnext) bound
          rw [if_neg hnext, if_neg hnext]
          exact (bind_ok hnone (by rw [List.append_nil]; rfl)).symm

/-- If the rest of a list is known, so is the list. -/
theorem statements_eq {program : Program} {after : Cursor} (hleads : Leads start front cursor)
    (hrest : ∀ bound, cursor.pending.length ≤ bound →
      statementsWithin bound cursor = .ok program after) :
    statements start = .ok (front ++ program) after := by
  rcases hleads start.pending.length (Nat.le_refl _) with ⟨left, hleft, hstart⟩
  refine bind_ok rfl ?_
  rw [hstart]
  exact bind_ok (hrest left hleft) rfl

end Leads

/-! ## Statements with their semicolons -/

/-- The tokens of statements with a semicolon after each of them, and their trees. -/
inductive IsTerminated (source : String) : List Token → Program → Prop where
  | nil : IsTerminated source [] []
  | cons {separator : Token} {tokens rest : List Token} {stmt : Stmt} {program : Program}
      (hstmt : IsStatement source tokens stmt) (hseparator : separator.kind = .semicolon)
      (hrest : IsTerminated source rest program) :
      IsTerminated source (tokens ++ separator :: rest) (stmt :: program)

/-- In front of statements with their semicolons, these are read, and the list goes
on after them. -/
theorem leads_of_isTerminated {source : String} {tokens : List Token} {program : Program}
    (hterminated : IsTerminated source tokens program) {before after : Cursor}
    (hsource : before.source = source) (htook : before.Took tokens after) :
    Leads before program after := by
  induction hterminated generalizing before with
  | nil =>
    rw [htook.eq_of_nil]
    exact .refl before
  | @cons separator tokens rest stmt program hstmt hseparator _ ih =>
    rcases htook.split with ⟨c₁, htook₁, htook⟩
    rcases htook.uncons with ⟨c₂, htook₂, htook⟩
    have hends : c₁.EndsStatement := by
      rw [Cursor.EndsStatement, htook₂.current_eq_of_cons, hseparator]
      decide
    have hrun : ∀ bound, tokens.length ≤ bound + 1 → before.sees statementFirst = true ∧
        attempt (statementWith (statementsWithin bound)) before = .ok (.complete stmt) c₁ := by
      intro bound hbound
      exact attempt_of_isStatement (statementsWithin_readsLists source bound) hstmt
        (.refl tokens) hsource (Cursor.tookOver_nil_iff.2 htook₁) hends hbound
    have hlength := htook₁.length_eq
    have hpositive : 0 < tokens.length := List.length_pos_iff.2 hstmt.ne_nil
    have hleads : Leads before [stmt] (c₁.afterAttempt (.complete stmt)) :=
      .step (hrun tokens.length (by omega)).1 (fun bound hbound => (hrun bound (by omega)).2)
        (by omega)
    have hnext : c₁.afterAttempt (.complete stmt) = c₂ := by
      have hsees : c₁.sees [.semicolon] = true := by
        rw [Cursor.sees, htook₂.current_eq_of_cons]
        exact List.contains_iff_mem.2 (by simp [hseparator])
      rw [Cursor.afterAttempt, if_pos hsees, htook₂.take_eq]
    rw [hnext] at hleads
    have hsource₂ : c₂.source = source := by
      rw [htook₂.source_eq, htook₁.source_eq, hsource]
    exact hleads.trans (ih hsource₂ htook)

/-! ## Broken statements -/

/-- What comes next is a broken statement, which has no loop in it, then its
semicolon and then the given tokens. -/
structure Cursor.Breaks (cursor : Cursor) (broken : List Token) (fence : Token)
    (rest : List Token) : Prop where
  sound : cursor.Sound
  pending_eq : cursor.pending = broken ++ fence :: rest
  broken : ∀ token ∈ broken, token.kind ∉ [.semicolon, .endKeyword, .forKeyword]
  fence : fence.kind = .semicolon

namespace Cursor.Breaks

variable {cursor after : Cursor} {broken passed left rest : List Token} {fence : Token}

/-- A reading that passes only tokens of the broken statement gets to a place from
which the rest of it comes next. -/
theorem of_passed (hbreaks : cursor.Breaks (passed ++ left) fence rest)
    (hpassed : cursor.Passed passed after) : after.Breaks left fence rest := by
  refine ⟨hbreaks.sound.passed hpassed, ?_, ?_, hbreaks.fence⟩
  · have hpending := hbreaks.pending_eq
    rw [hpassed.pending_eq, List.append_assoc] at hpending
    exact List.append_cancel_left hpending
  · intro token htoken
    exact hbreaks.broken token (List.mem_append_right _ htoken)

/-- A reading that passes no semicolon passes only tokens of the broken statement. -/
theorem exists_left (hbreaks : cursor.Breaks broken fence rest)
    (hpassed : cursor.Passed passed after)
    (hnone : TokenKind.semicolon ∉ passed.map Token.kind) :
    ∃ left, broken = passed ++ left := by
  have hsplit : passed ++ after.pending = broken ++ fence :: rest := by
    rw [← hpassed.pending_eq, hbreaks.pending_eq]
  rcases List.append_eq_append_iff.1 hsplit with ⟨left, hleft, -⟩ | ⟨extra, hextra, hrest⟩
  · exact ⟨left, hleft⟩
  · cases extra with
    | nil => exact ⟨[], by simp [hextra]⟩
    | cons token extra =>
      rw [List.cons_append, List.cons.injEq] at hrest
      rw [hextra, ← hrest.1] at hnone
      simp [hbreaks.fence] at hnone

/-- The semicolon comes next only at the end of the broken statement. -/
theorem eq_nil_of_sees (hbreaks : cursor.Breaks broken fence rest)
    (hsees : cursor.sees [.semicolon] = true) : broken = [] := by
  cases broken with
  | nil => rfl
  | cons token broken =>
    have hkind : token.kind = .semicolon := by
      rw [sees, current, hbreaks.pending_eq] at hsees
      exact List.mem_singleton.1 (List.contains_iff_mem.1 hsees)
    have hnot := hbreaks.broken token List.mem_cons_self
    simp [hkind] at hnot

/-- A token of the broken statement or its semicolon comes next. -/
theorem current_mem (hbreaks : cursor.Breaks broken fence rest) :
    cursor.current ∈ broken ++ [fence] := by
  rw [current, hbreaks.pending_eq]
  cases broken <;> simp

/-- A statement that begins within the broken one is not a loop. -/
theorem begins_of_sees (hbreaks : cursor.Breaks broken fence rest)
    (hfirst : cursor.sees statementFirst = true) :
    cursor.current.kind ∈ statementFirst ∧ cursor.current.kind ≠ .forKeyword := by
  have hkind : cursor.current.kind ∈ statementFirst := List.contains_iff_mem.1 hfirst
  refine ⟨hkind, fun hloop => ?_⟩
  rcases List.mem_append.1 hbreaks.current_mem with hmem | hmem
  · have hnot := hbreaks.broken _ hmem
    simp [hloop] at hnot
  · rw [List.mem_singleton.1 hmem, hbreaks.fence] at hkind
    exact absurd hkind (by decide)

end Cursor.Breaks

/-- An attempt ends well unless there is a fault. -/
theorem exists_fault_of_attempt {reader : Parse Stmt} {cursor after : Cursor} {stop : Stop}
    (hrun : attempt reader cursor = .error stop after) : ∃ fault, stop = .fatal fault := by
  unfold attempt at hrun
  split at hrun <;> cases hrun
  exact ⟨_, rfl⟩

/-- An attempt to read a statement in a broken one passes some of its tokens, and
what it gives is made of them. -/
theorem attempt_of_breaks {cursor : Cursor} {broken rest : List Token} {fence : Token}
    (hbreaks : cursor.Breaks broken fence rest) (hfirst : cursor.sees statementFirst = true) :
    ∃ result passed left after, broken = passed ++ left ∧ passed ≠ [] ∧
      cursor.Crossed passed after ∧ Program.MadeOf passed result.toList ∧
      ∀ bound, attempt (statementWith (statementsWithin bound)) cursor = .ok result after := by
  rcases hbreaks.begins_of_sees hfirst with ⟨hkind, hloop⟩
  rcases TakesNext.statementWith hkind hloop with ⟨reader, htakes, hread⟩
  have hsame : ∀ bound, attempt (statementWith (statementsWithin bound)) cursor =
      attempt reader cursor := by
    intro bound
    rw [attempt, attempt, hread]
  have hpasses : Passes (attempt (statementWith (statementsWithin 0))) cursor _ :=
    Passes.attempt (Passes.statementWith (Passes.statementsWithin 0))
  have hreads : Reads False (attempt (statementWith (statementsWithin 0))) cursor _ :=
    Reads.attempt (Reads.statementWith (Reads.statementsWithin 0) False.elim)
  cases hrun : attempt reader cursor with
  | error stop after =>
    rcases exists_fault_of_attempt hrun with ⟨fault, hfault⟩
    exact absurd hfault ((hpasses.of_error hbreaks.sound ((hsame 0).trans hrun)).2 fault)
  | ok result after =>
    obtain ⟨token, others, hpending, hbegins⟩ := hbreaks.sound.exists_of_sees (by decide) hfirst
    rcases htakes.attempt.exists_passed hpending hrun with ⟨more, hpassed, hnone⟩
    obtain ⟨made, hmade, hmadeOf⟩ := hpasses.of_ok hbreaks.sound ((hsame 0).trans hrun)
    rw [hmade.unique hpassed] at hmadeOf
    have hmove : cursor.Advances after := ((Reads.iff_of_ok ((hsame 0).trans hrun)).1 hreads).1
    rcases hmove.exists_crossed with ⟨crossed, hcrossed⟩
    rw [hcrossed.passed.unique hpassed] at hcrossed
    have hstays : TokenKind.semicolon ∉ (token :: more).map Token.kind := by
      rw [List.map_cons, List.mem_cons, not_or]
      exact ⟨(ne_semicolon_of_mem hbegins).symm, hnone⟩
    obtain ⟨left, hleft⟩ := hbreaks.exists_left hpassed hstays
    refine ⟨result, token :: more, left, after, hleft, List.cons_ne_nil token more, hcrossed,
      hmadeOf, fun bound => ?_⟩
    rw [hsame, hrun]

/-- In a broken statement, the list gets stuck or goes on behind the semicolon. -/
theorem leads_of_breaks {cursor : Cursor} {broken rest : List Token} {fence : Token}
    (hbreaks : cursor.Breaks broken fence rest) :
    ∃ front passed left after, broken = passed ++ left ∧ cursor.Crossed passed after ∧
      Program.MadeOf passed front ∧
      ((after.sees statementFirst = false ∧ Leads cursor front after) ∨
        (left = [] ∧ Leads cursor front after.take)) := by
  -- The induction is on the length of the broken statement, of which each attempt
  -- passes at least one token.
  induction hlength : broken.length using Nat.strongRecOn generalizing cursor broken with
  | _ length ih =>
    by_cases hfirst : cursor.sees statementFirst = true
    · obtain ⟨result, passed, left, after, rfl, hpositive, hcrossed, hmadeOf, hread⟩ :=
        attempt_of_breaks hbreaks hfirst
      have hafter : after.Breaks left fence rest := hbreaks.of_passed hcrossed.passed
      have hpassed : 0 < passed.length := List.length_pos_iff.2 hpositive
      have hless : after.pending.length < cursor.pending.length := by
        have hpending := hcrossed.passed.length_eq
        omega
      have hleads : Leads cursor result.toList (after.afterAttempt result) :=
        .step hfirst (fun bound _ => hread bound) hless
      by_cases hsees : after.sees [.semicolon] = true
      · have hnil := hafter.eq_nil_of_sees hsees
        rw [Cursor.afterAttempt, if_pos hsees] at hleads
        exact ⟨result.toList, passed, left, after, rfl, hcrossed, hmadeOf, .inr ⟨hnil, hleads⟩⟩
      · have hsame : after.Crossed [] (after.afterAttempt result) := by
          rw [Cursor.afterAttempt, if_neg hsees]
          repeat' split
          · exact .refl after
          · exact .complain after _
          · exact .refl after
        have hnext : (after.afterAttempt result).Breaks left fence rest :=
          hafter.of_passed hsame.passed
        rw [List.length_append] at hlength
        obtain ⟨more, others, final, last, rfl, hmoved, hmade, hends⟩ :=
          ih left.length (by omega) hnext rfl
        refine ⟨result.toList ++ more, passed ++ others, final, last, ?_, ?_, ?_, ?_⟩
        · rw [List.append_assoc]
        · simpa using (hcrossed.trans hsame).trans hmoved
        · exact hmadeOf.append hmade
        · rcases hends with ⟨hstuck, hlast⟩ | ⟨hnil, hlast⟩
          · exact .inl ⟨hstuck, hleads.trans hlast⟩
          · exact .inr ⟨hnil, hleads.trans hlast⟩
    · refine ⟨[], [], broken, cursor, rfl, .refl cursor, Program.madeOf_nil [], .inl ⟨?_, ?_⟩⟩
      · exact Bool.eq_false_iff.2 hfirst
      · exact .refl cursor

/-! ## Programs -/

/-- Whether the search for a statement passes over a token. -/
def isStray (token : Token) : Bool :=
  !token.isOneOf (.endOfFile :: statementFirst)

/-- The tokens that are passed over are the next one and all strays behind it. -/
theorem pending_skipToStatement (cursor : Cursor) :
    cursor.skipToStatement.pending = cursor.pending.tail.dropWhile isStray := by
  cases hpending : cursor.pending with
  | nil => simp [Cursor.skipToStatement, Cursor.discard, hpending]
  | cons token rest =>
    have hdrop : rest.drop (rest.takeWhile isStray).length = rest.dropWhile isStray := by
      calc rest.drop (rest.takeWhile isStray).length
          = (rest.takeWhile isStray ++ rest.dropWhile isStray).drop
              (rest.takeWhile isStray).length := by rw [List.takeWhile_append_dropWhile]
        _ = rest.dropWhile isStray := List.drop_left
    rw [Cursor.skipToStatement, Cursor.discard, hpending]
    exact hdrop

/-- A list of statements begins with a statement, if it is not empty. -/
theorem IsProgram.eq_nil_or_first {source : String} {tokens : List Token} {program : Program}
    (hprogram : IsProgram source tokens program) :
    tokens = [] ∨ ∃ token rest, tokens = token :: rest ∧ token.kind ∈ statementFirst := by
  cases hprogram with
  | empty => exact .inl rfl
  | last hstmt => exact .inr hstmt.exists_first
  | @separated separator tokens rest _ _ hstmt =>
    obtain ⟨token, others, rfl, hkind⟩ := hstmt.exists_first
    exact .inr ⟨token, others ++ separator :: rest, rfl, hkind⟩

/-- The search for a statement does not pass over the beginning of a program. -/
theorem IsProgram.dropWhile_isStray {source : String} {tokens : List Token} {program : Program}
    (hprogram : IsProgram source tokens program) : tokens.dropWhile isStray = tokens := by
  rcases hprogram.eq_nil_or_first with rfl | ⟨token, rest, rfl, hkind⟩
  · rfl
  · have hstray : isStray token = false := by
      simp [isStray, Token.isOneOf, hkind]
    rw [List.dropWhile_cons, hstray]
    rfl

/-- After a place in a broken statement, the search for a statement ends at a later
place in it, or at the program behind its semicolon. -/
theorem skipToStatement_of_breaks {cursor : Cursor} {broken rest : List Token} {fence : Token}
    (hbreaks : cursor.Breaks broken fence rest) {source : String} {program : Program}
    (hprogram : IsProgram source rest program) :
    cursor.skipToStatement.pending = rest ∨
      ∃ passed left, broken = passed ++ left ∧ passed ≠ [] ∧
        cursor.Passed passed cursor.skipToStatement := by
  have hpending := pending_skipToStatement cursor
  rw [hbreaks.pending_eq] at hpending
  cases broken with
  | nil =>
    rw [List.nil_append, List.tail_cons, hprogram.dropWhile_isStray] at hpending
    exact .inl hpending
  | cons token others =>
    rw [List.cons_append, List.tail_cons, List.dropWhile_append] at hpending
    split at hpending
    · have hstray : isStray fence = true := by
        simp [isStray, Token.isOneOf, hbreaks.fence, statementFirst]
      rw [List.dropWhile_cons, hstray, if_pos rfl, hprogram.dropWhile_isStray] at hpending
      exact .inl hpending
    · refine .inr ⟨token :: others.takeWhile isStray, others.dropWhile isStray, ?_, ?_, ?_, rfl⟩
      · rw [List.cons_append, List.takeWhile_append_dropWhile]
      · exact List.cons_ne_nil _ _
      · rw [hpending, hbreaks.pending_eq, List.cons_append, List.cons_append, ← List.append_assoc,
          List.takeWhile_append_dropWhile]

/-- If the rest of a list takes all tokens, the list is the whole program. -/
theorem programWithin_of_leads {start cursor : Cursor} {front program : Program} {bound : Nat}
    (hleads : Leads start front cursor) (hended : cursor.endToken.kind = .endOfFile)
    (hprogram : IsProgram cursor.source cursor.pending program)
    (hbound : start.pending.length ≤ bound) :
    programWithin bound start = .ok (front ++ program) (cursor.past cursor.pending []) := by
  generalize hafter : cursor.past cursor.pending [] = after
  have htook : cursor.Took cursor.pending after := by
    rw [← hafter]
    exact ⟨(List.append_nil _).symm, rfl⟩
  have hkind : after.current.kind = .endOfFile := by
    rw [← hafter]
    exact hended
  have hstatements : statements start = .ok (front ++ program) after :=
    hleads.statements_eq fun bound hbound =>
      statementsWithin_of_isProgram hprogram htook (.of_endOfFile hkind) hbound
  exact programWithin_of_statements hstatements (Cursor.sees_endOfFile hkind) hbound

/-- Where a list gets stuck before the end of the source, there is a complaint, and
the program goes on with the next statement. -/
theorem programWithin_of_stuck {start after : Cursor} {front : Program}
    (hstatements : statements start = .ok front after) (hmore : after.sees [.endOfFile] = false)
    (bound : Nat) :
    programWithin (bound + 1) start = (do return front ++ (← programWithin bound))
      (after.complain after.listExpected).skipToStatement := by
  have hfront : statementsOrNone start = .ok front after := by
    rw [statementsOrNone, hstatements]
  refine (bind_eq_of_ok hfront _).trans ((bind_eq_of_ok rfl _).trans ?_)
  rw [hmore]
  rfl

/-- A program is read around a broken statement: after the statements in front of it
come some that are made of its tokens, and then those behind its semicolon.  The
complaints are about its tokens and its semicolon. -/
def ReadsAround (bound : Nat) : Prop :=
  ∀ {start cursor : Cursor} {front program : Program} {broken rest : List Token} {fence : Token},
    Leads start front cursor → cursor.Breaks broken fence rest →
      IsProgram cursor.source rest program → cursor.pending.length ≤ start.pending.length →
        start.pending.length ≤ bound →
          ∃ middle after, programWithin bound start = .ok (front ++ (middle ++ program)) after ∧
            Program.MadeOf broken middle ∧ cursor.Complains (broken ++ [fence]) after

/-- After a place where the list got stuck, the program is read around the rest of the
broken statement. -/
theorem programWithin_skipToStatement {bound : Nat} (hreads : ReadsAround bound) {cursor : Cursor}
    {broken rest : List Token} {fence : Token} {program : Program}
    (hbreaks : cursor.Breaks broken fence rest) (hprogram : IsProgram cursor.source rest program)
    (hbound : cursor.pending.length ≤ bound + 1) :
    ∃ middle after, programWithin bound cursor.skipToStatement = .ok (middle ++ program) after ∧
      Program.MadeOf broken middle ∧ cursor.Complains (broken ++ [fence]) after := by
  have hsize := congrArg List.length hbreaks.pending_eq
  simp only [List.length_append, List.length_cons] at hsize
  rcases skipToStatement_of_breaks hbreaks hprogram with hlands | hlands
  · have hrest : IsProgram cursor.source cursor.skipToStatement.pending program := by
      rw [hlands]
      exact hprogram
    have hleft : cursor.skipToStatement.pending.length ≤ bound := by
      rw [hlands]
      omega
    have hrun :=
      programWithin_of_leads (.refl cursor.skipToStatement) hbreaks.sound.ended hrest hleft
    exact ⟨[], _, hrun, Program.madeOf_nil broken, .of_eq rfl⟩
  · obtain ⟨passed, left, rfl, hpositive, hpassed⟩ := hlands
    have hlength := hpassed.length_eq
    have hfewer : 0 < passed.length := List.length_pos_iff.2 hpositive
    obtain ⟨middle, after, hrun, hmadeOf, hcomplains⟩ :=
      hreads (.refl _) (hbreaks.of_passed hpassed) hprogram (Nat.le_refl _) (by omega)
    refine ⟨middle, after, hrun, hmadeOf.mono (List.sublist_append_right _ _), ?_⟩
    rw [List.append_assoc]
    exact .trans (.of_eq rfl) (hcomplains.mono (List.subset_append_right _ _))

/-- Programs are read around broken statements. -/
theorem programWithin_readsAround (bound : Nat) : ReadsAround bound := by
  induction bound with
  | zero =>
    intro start cursor _ _ broken rest fence _ hbreaks _ hless hbound
    have hsize := congrArg List.length hbreaks.pending_eq
    simp only [List.length_append, List.length_cons] at hsize
    omega
  | succ bound ih =>
    intro start cursor front program broken rest fence hleads hbreaks hprogram hless hbound
    obtain ⟨made, passed, left, after, rfl, hcrossed, hmadeOf, hends⟩ := leads_of_breaks hbreaks
    have hafter : after.Breaks left fence rest := hbreaks.of_passed hcrossed.passed
    have hcurrent : after.current ∈ passed ++ left ++ [fence] := by
      rw [List.append_assoc]
      exact List.mem_append_right _ hafter.current_mem
    have hcomplains : cursor.Complains (passed ++ left ++ [fence]) after := by
      refine hcrossed.complains.mono (List.append_subset.2 ⟨?_, List.cons_subset.2 ⟨hcurrent, ?_⟩⟩)
      · rw [List.append_assoc]
        exact List.subset_append_left _ _
      · exact List.nil_subset _
    have hrest : IsProgram after.source rest program := by
      rw [hcrossed.source_eq]
      exact hprogram
    rcases hends with ⟨hstuck, hreached⟩ | ⟨rfl, hreached⟩
    · have hstatements : statements start = .ok (front ++ made ++ []) after :=
        (hleads.trans hreached).statements_eq fun bound _ =>
          statementsWithin_of_sees_eq_false hstuck bound
      have hmore : after.sees [.endOfFile] = false := by
        rw [Bool.eq_false_iff]
        intro hend
        have hpending := hafter.pending_eq
        simp [hafter.sound.pending_eq_nil hend] at hpending
      have hstray : (after.complain after.listExpected).Breaks left fence rest :=
        hafter.of_passed (.complain after _)
      have hlength := hcrossed.passed.length_eq
      have hleft : (after.complain after.listExpected).pending.length ≤ bound + 1 := by
        simp only [Cursor.complain]
        omega
      obtain ⟨more, final, hrun, hmade, hfinal⟩ :=
        programWithin_skipToStatement ih hstray hrest hleft
      refine ⟨made ++ more, final, ?_, hmadeOf.append hmade, ?_⟩
      · rw [programWithin_of_stuck hstatements hmore, bind_eq_of_ok hrun]
        simp only [List.append_nil, List.append_assoc]
        rfl
      · refine hcomplains.trans (.trans (.complain hcurrent after.listExpected) ?_)
        rw [List.append_assoc]
        exact hfinal.mono (List.subset_append_right _ _)
    · have hnext : after.take.pending = rest := by
        rw [Cursor.take, hafter.pending_eq]
        rfl
      have hrun := programWithin_of_leads (hleads.trans hreached) hafter.sound.ended
        (by rw [hnext]; exact hrest) hbound
      rw [List.append_assoc] at hrun
      refine ⟨made, _, hrun, ?_, hcomplains.trans (.of_eq rfl)⟩
      rw [List.append_nil]
      exact hmadeOf

/-! ## Sources with a broken statement -/

/-- A broken statement at the top level does no harm to the statements around it.  If
the tokens of a stream are statements with their semicolons, then any tokens without
semicolons and parts of loops, a semicolon and a list of statements, the program has
the statements of both lists, and between them only such as are made of the tokens
between them.  All mistakes are about these tokens or about the semicolon. -/
theorem ofStream_of_broken_statement {stream : TokenStream} {front broken rest : List Token}
    {fence : Token} {before after : Program} (hended : stream.endToken.kind = .endOfFile)
    (hscanned : ∀ token ∈ stream.pending, token.Scanned)
    (hpending : stream.pending = front ++ broken ++ fence :: rest)
    (hfront : IsTerminated stream.source front before)
    (hbroken : ∀ token ∈ broken, token.kind ∉ [.semicolon, .endKeyword, .forKeyword])
    (hfence : fence.kind = .semicolon) (hrest : IsProgram stream.source rest after) :
    ∃ middle mistakes, Program.ofStream stream = .ok (before ++ middle ++ after, mistakes) ∧
      Program.MadeOf broken middle ∧
      ∀ mistake ∈ mistakes, mistake.AnchoredIn (broken ++ [fence]) := by
  have hsound : (Cursor.ofStream stream).Sound := ⟨hended, hscanned⟩
  have htook : (Cursor.ofStream stream).Took front
      ((Cursor.ofStream stream).past front (broken ++ fence :: rest)) := by
    refine ⟨?_, rfl⟩
    rw [Cursor.ofStream, hpending, List.append_assoc]
    rfl
  have hbreaks : Cursor.Breaks _ broken fence rest := ⟨hsound.took htook, rfl, hbroken, hfence⟩
  have hless := htook.length_eq
  obtain ⟨middle, final, hrun, hmadeOf, mistakes, hmistakes, hanchored⟩ :=
    programWithin_readsAround _ (leads_of_isTerminated hfront rfl htook) hbreaks hrest
      (by omega) (Nat.le_refl _)
  refine ⟨middle, mistakes, ?_, hmadeOf, hanchored⟩
  have hprogram : Grammar.program (.ofStream stream) = .ok (before ++ (middle ++ after)) final :=
    bind_ok rfl hrun
  rw [Program.ofStream, hprogram, List.append_assoc]
  have hall : final.diagnostics = mistakes := hmistakes
  simp only [hall]

/-- A source whose second statement is broken at three places. -/
def interrupted : String := "var x : int; print x := ) read ( print; read x"

/-- The tokens of the broken statement. -/
def interruption : List Token :=
  [⟨.printKeyword, "print", 1, 14, 13, 18⟩, ⟨.identifier, "x", 1, 20, 19, 20⟩,
    ⟨.assignment, ":=", 1, 22, 21, 23⟩, ⟨.rightBracket, ")", 1, 25, 24, 25⟩,
    ⟨.readKeyword, "read", 1, 27, 26, 30⟩, ⟨.leftBracket, "(", 1, 32, 31, 32⟩,
    ⟨.printKeyword, "print", 1, 34, 33, 38⟩]

/-- The declaration in front of the broken statement and the statement behind it are
read. -/
theorem ofStream_interrupted :
    ∃ middle mistakes, Program.ofStream (.ofSource interrupted) =
        .ok ([.declare ⟨.identifier, "x", 1, 5, 4, 5⟩ ⟨.intType, "int", 1, 9, 8, 11⟩ .int none] ++
          middle ++ [.read ⟨.identifier, "x", 1, 46, 45, 46⟩], mistakes) ∧
      Program.MadeOf interruption middle ∧
      ∀ mistake ∈ mistakes, mistake.AnchoredIn
        (interruption ++ [⟨.semicolon, ";", 1, 39, 38, 39⟩]) := by
  have hpending : (TokenStream.ofSource interrupted).pending =
      [⟨.varKeyword, "var", 1, 1, 0, 3⟩, ⟨.identifier, "x", 1, 5, 4, 5⟩,
        ⟨.colon, ":", 1, 7, 6, 7⟩, ⟨.intType, "int", 1, 9, 8, 11⟩,
        ⟨.semicolon, ";", 1, 12, 11, 12⟩] ++ interruption ++ ⟨.semicolon, ";", 1, 39, 38, 39⟩ ::
      [⟨.readKeyword, "read", 1, 41, 40, 44⟩, ⟨.identifier, "x", 1, 46, 45, 46⟩] := by
    decide +kernel
  exact ofStream_of_broken_statement rfl (TokenStream.scanned_ofSource interrupted) hpending
    (.cons (.declaration rfl rfl rfl rfl) rfl .nil) (by decide) rfl (.last (.read rfl rfl))

end Grammar

end LoopLang
