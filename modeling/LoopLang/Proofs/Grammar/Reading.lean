import LoopLang.Grammar.Cursor
import LoopLang.Proofs.Token.Spelling

/-!
# Readers and their cursors

What all readers have in common: they only move the cursor on, and whatever goes
wrong is recorded before they stop short.  A reading without a complaint has
therefore taken exactly the tokens between the two cursors.

Main definitions:

- `Cursor.Advances`: what reading can do to a cursor.
- `Cursor.Took`: the cursor has taken the given tokens and done nothing else.
- `Reads`: what a reader gives if it makes no complaint.

Main results:

- Theorem `Cursor.Advances.diagnostics_prefix`: complaints are never taken back.
- Theorem `Reads.bind`: two readers, one after the other.
- Theorem `Reads.expect`: without a complaint, an expected token was taken.
-/

namespace LoopLang

namespace Grammar

/-! ## Moves of a cursor -/

namespace Cursor

/-- What reading can do to a cursor, in any number of moves. -/
inductive Advances : Cursor → Cursor → Prop where
  | refl (cursor : Cursor) : Advances cursor cursor
  | take (cursor : Cursor) : Advances cursor cursor.take
  | takeWhile (cursor : Cursor) (p : Token → Bool) : Advances cursor (cursor.takeWhile p)
  | discard (cursor : Cursor) (n : Nat) : Advances cursor (cursor.discard n)
  | complain (cursor : Cursor) (expected : List TokenKind) :
      Advances cursor (cursor.complain expected)
  | trans {first second third : Cursor} (hfirst : Advances first second)
      (hsecond : Advances second third) : Advances first third

/-- Complaints are never taken back. -/
theorem Advances.diagnostics_prefix {before after : Cursor} (hmove : Advances before after) :
    before.diagnostics <+: after.diagnostics := by
  induction hmove with
  | refl cursor => exact List.prefix_rfl
  | take cursor => exact List.prefix_rfl
  | takeWhile cursor p => exact List.prefix_rfl
  | discard cursor n => exact List.prefix_rfl
  | complain cursor expected => exact List.prefix_append _ _
  | trans _ _ ihfirst ihsecond => exact ihfirst.trans ihsecond

/-- If there are no more complaints at the end, there were none on the way. -/
theorem Advances.quiet {first second third : Cursor} (hfirst : Advances first second)
    (hsecond : Advances second third) (hquiet : third.diagnostics = first.diagnostics) :
    second.diagnostics = first.diagnostics ∧ third.diagnostics = second.diagnostics := by
  have hlower := hfirst.diagnostics_prefix
  have hupper := hsecond.diagnostics_prefix
  rw [hquiet] at hupper
  have hsame : second.diagnostics = first.diagnostics :=
    hupper.eq_of_length_le hlower.length_le
  exact ⟨hsame, hquiet.trans hsame.symm⟩

/-- The cursor after the given tokens, with the given ones left. -/
def past (cursor : Cursor) (tokens rest : List Token) : Cursor :=
  { cursor with pending := rest, taken := tokens.reverse ++ cursor.taken }

/-- The cursor has taken the given tokens, and nothing else has changed. -/
structure Took (before : Cursor) (tokens : List Token) (after : Cursor) : Prop where
  pending_eq : before.pending = tokens ++ after.pending
  after_eq : after = before.past tokens after.pending

namespace Took

variable {first second third : Cursor} {tokens others : List Token}

theorem refl (cursor : Cursor) : Took cursor [] cursor :=
  ⟨rfl, rfl⟩

/-- Tokens that are taken one after the other are taken together. -/
theorem trans (hfirst : Took first tokens second) (hsecond : Took second others third) :
    Took first (tokens ++ others) third := by
  constructor
  · rw [hfirst.pending_eq, hsecond.pending_eq, List.append_assoc]
  · rw [hsecond.after_eq, hfirst.after_eq]
    simp [past]

/-- The token at the front can be taken. -/
theorem take {cursor : Cursor} {token : Token} {rest : List Token}
    (hpending : cursor.pending = token :: rest) : Took cursor [token] cursor.take := by
  constructor
  · simp [Cursor.take, hpending]
  · simp [Cursor.take, past, current, hpending]

/-- The end of a source stays the same while tokens are taken. -/
theorem endToken_eq (htook : Took first tokens second) : second.endToken = first.endToken := by
  rw [htook.after_eq]
  rfl

theorem source_eq (htook : Took first tokens second) : second.source = first.source := by
  rw [htook.after_eq]
  rfl

/-- The tokens that are left and those that were taken are all that were there. -/
theorem length_eq (htook : Took first tokens second) :
    first.pending.length = tokens.length + second.pending.length := by
  rw [htook.pending_eq, List.length_append]

/-- The first of the tokens that were taken came next. -/
theorem current_eq (htook : Took first tokens second) (htokens : tokens ≠ []) :
    first.current = tokens.headD .missing := by
  rcases List.exists_cons_of_ne_nil htokens with ⟨token, rest, rfl⟩
  rw [current, htook.pending_eq]
  rfl

/-- The last of the tokens that were taken is the one accepted last. -/
theorem accepted_eq_getLastD (htook : Took first tokens second) (htokens : tokens ≠ []) :
    second.accepted = tokens.getLastD .missing := by
  rw [htook.after_eq, accepted, past, ← List.dropLast_concat_getLast htokens]
  simp

/-- A token that was taken is the one that was accepted last. -/
theorem accepted_eq {token : Token} (htook : Took first [token] second) :
    second.accepted = token := by
  rw [htook.after_eq]
  rfl

end Took

/-- The cursor reads the tokens of some source. -/
structure Sound (cursor : Cursor) : Prop where
  ended : cursor.endToken.kind = .endOfFile
  scanned : ∀ token ∈ cursor.pending, token.Scanned

/-- A cursor before the tokens of a source is sound. -/
theorem sound_ofStream (source : String) : (ofStream (.ofSource source)).Sound :=
  ⟨rfl, TokenStream.scanned_ofSource source⟩

/-- What comes after a row of tokens of a source is tokens of that source. -/
theorem Sound.took {before after : Cursor} {tokens : List Token} (hsound : before.Sound)
    (htook : Took before tokens after) : after.Sound := by
  constructor
  · rw [htook.endToken_eq]
    exact hsound.ended
  · intro token htoken
    exact hsound.scanned token (by rw [htook.pending_eq]; exact List.mem_append_right _ htoken)

/-- Taken tokens are tokens of the source. -/
theorem Sound.scanned_taken {before after : Cursor} {tokens : List Token}
    (hsound : before.Sound) (htook : Took before tokens after) :
    ∀ token ∈ tokens, token.Scanned := by
  intro token htoken
  exact hsound.scanned token (by rw [htook.pending_eq]; exact List.mem_append_left _ htoken)

/-- A token of a category that is seen is there, unless the end is looked for. -/
theorem Sound.exists_of_sees {cursor : Cursor} {kinds : List TokenKind} (hsound : cursor.Sound)
    (hend : TokenKind.endOfFile ∉ kinds) (hsees : cursor.sees kinds = true) :
    ∃ token rest, cursor.pending = token :: rest ∧ token.kind ∈ kinds := by
  have hkind : cursor.current.kind ∈ kinds := List.contains_iff_mem.1 hsees
  cases hpending : cursor.pending with
  | nil =>
    rw [current, hpending, List.headD_nil, hsound.ended] at hkind
    exact absurd hkind hend
  | cons token rest =>
    rw [current, hpending, List.headD_cons] at hkind
    exact ⟨token, rest, rfl, hkind⟩

/-- At the end of the source, no token is left. -/
theorem Sound.pending_eq_nil {cursor : Cursor} (hsound : cursor.Sound)
    (hend : cursor.sees [.endOfFile] = true) : cursor.pending = [] := by
  cases hpending : cursor.pending with
  | nil => rfl
  | cons token rest =>
    have hkind := List.mem_singleton.1 (List.contains_iff_mem.1 hend)
    rw [current, hpending, List.headD_cons] at hkind
    have htoken : token ∈ cursor.pending := by rw [hpending]; exact List.mem_cons_self
    exact absurd hkind (hsound.scanned token htoken).not_endOfFile

end Cursor

/-! ## Readings without a complaint -/

/-- A reader only moves the cursor on.  If it makes no complaint although the
condition holds, the result and the cursor are as stated, or a fault ends the
reading. -/
def Reads {α : Type} (condition : Prop) (reader : Parse α) (cursor : Cursor)
    (result : α → Cursor → Prop) : Prop :=
  match reader cursor with
  | .ok a after =>
    cursor.Advances after ∧
      (condition → after.diagnostics = cursor.diagnostics → result a after)
  | .error stop after =>
    cursor.Advances after ∧
      (condition → after.diagnostics = cursor.diagnostics → ∃ fault, stop = .fatal fault)

/-- Where a reader ends well, the next one goes on. -/
theorem bind_eq_of_ok {α β : Type} {reader : Parse α} {cursor after : Cursor} {a : α}
    (hrun : reader cursor = .ok a after) (next : α → Parse β) :
    (reader >>= next) cursor = next a after := by
  simp only [Bind.bind, EStateM.bind, hrun]

/-- Where a reader stops short, so does the whole. -/
theorem bind_eq_of_error {α β : Type} {reader : Parse α} {cursor after : Cursor} {stop : Stop}
    (hrun : reader cursor = .error stop after) (next : α → Parse β) :
    (reader >>= next) cursor = .error stop after := by
  simp only [Bind.bind, EStateM.bind, hrun]

namespace Reads

variable {α β : Type} {condition : Prop} {cursor : Cursor}

theorem iff_of_ok {reader : Parse α} {after : Cursor} {a : α} {result : α → Cursor → Prop}
    (hrun : reader cursor = .ok a after) :
    Reads condition reader cursor result ↔ cursor.Advances after ∧
      (condition → after.diagnostics = cursor.diagnostics → result a after) := by
  rw [Reads, hrun]

/-- What is said of a reader that stops short: without a complaint only a fault stops it. -/
theorem iff_of_error {reader : Parse α} {after : Cursor} {stop : Stop}
    {result : α → Cursor → Prop} (hrun : reader cursor = .error stop after) :
    Reads condition reader cursor result ↔ cursor.Advances after ∧
      (condition → after.diagnostics = cursor.diagnostics → ∃ fault, stop = .fatal fault) := by
  rw [Reads, hrun]

theorem pure {a : α} {result : α → Cursor → Prop} (hresult : condition → result a cursor) :
    Reads condition (Pure.pure a) cursor result :=
  ⟨.refl cursor, fun hcondition _ => hresult hcondition⟩

theorem throw {stop : Stop} {result : α → Cursor → Prop}
    (hstop : condition → ∃ fault, stop = .fatal fault) :
    Reads condition (MonadExcept.throw stop) cursor result :=
  ⟨.refl cursor, fun hcondition _ => hstop hcondition⟩

/-- Two readers, one after the other.  What the first one gives is the condition
of the second one. -/
theorem bind {reader : Parse α} {next : α → Parse β} {middle : α → Cursor → Prop}
    {result : β → Cursor → Prop} (hreader : Reads condition reader cursor middle)
    (hnext : ∀ a after, Reads (middle a after) (next a) after result) :
    Reads condition (reader >>= next) cursor result := by
  cases hrun : reader cursor with
  | error stop after =>
    rw [iff_of_error (bind_eq_of_error hrun next)]
    exact (iff_of_error hrun).1 hreader
  | ok a after =>
    rcases (iff_of_ok hrun).1 hreader with ⟨hmove, hmiddle⟩
    have hwhole := bind_eq_of_ok hrun next
    have hrest := hnext a after
    cases hlast : next a after with
    | error stop final =>
      rcases (iff_of_error hlast).1 hrest with ⟨hmore, hstop⟩
      rw [iff_of_error (hwhole.trans hlast)]
      refine ⟨hmove.trans hmore, fun hcondition hquiet => ?_⟩
      rcases hmove.quiet hmore hquiet with ⟨hbefore, hafter⟩
      exact hstop (hmiddle hcondition hbefore) hafter
    | ok b final =>
      rcases (iff_of_ok hlast).1 hrest with ⟨hmore, hresult⟩
      rw [iff_of_ok (hwhole.trans hlast)]
      refine ⟨hmove.trans hmore, fun hcondition hquiet => ?_⟩
      rcases hmove.quiet hmore hquiet with ⟨hbefore, hafter⟩
      exact hresult (hmiddle hcondition hbefore) hafter

/-- A stated result may be replaced by one that follows from it. -/
theorem mono {reader : Parse α} {result weaker : α → Cursor → Prop}
    (hreader : Reads condition reader cursor result)
    (hweaker : ∀ a after, result a after → weaker a after) :
    Reads condition reader cursor weaker := by
  cases hrun : reader cursor with
  | error stop after =>
    rw [iff_of_error hrun] at hreader ⊢
    exact hreader
  | ok a after =>
    rw [iff_of_ok hrun] at hreader ⊢
    exact ⟨hreader.1, fun hcondition hquiet => hweaker a after (hreader.2 hcondition hquiet)⟩

/-- A condition may be replaced by one that it follows from. -/
theorem of_imp {stronger : Prop} {reader : Parse α} {result : α → Cursor → Prop}
    (hreader : Reads condition reader cursor result) (himp : stronger → condition) :
    Reads stronger reader cursor result := by
  cases hrun : reader cursor with
  | error stop after =>
    rw [iff_of_error hrun] at hreader ⊢
    exact ⟨hreader.1, fun hstronger => hreader.2 (himp hstronger)⟩
  | ok a after =>
    rw [iff_of_ok hrun] at hreader ⊢
    exact ⟨hreader.1, fun hstronger => hreader.2 (himp hstronger)⟩

/-- Looking at the cursor changes nothing. -/
theorem get_bind {next : Cursor → Parse β} {result : β → Cursor → Prop}
    (hnext : Reads condition (next cursor) cursor result) :
    Reads condition (get >>= next) cursor result :=
  hnext

/-- A result that is only passed on in another form. -/
theorem map {f : α → β} {reader : Parse α} {result : β → Cursor → Prop}
    (hreader : Reads condition reader cursor fun a after => result (f a) after) :
    Reads condition (f <$> reader) cursor result := by
  cases hrun : reader cursor with
  | error stop after =>
    have hmap : (f <$> reader) cursor = .error stop after := by
      simp only [Functor.map, EStateM.map, hrun]
    rw [iff_of_error hmap]
    exact (iff_of_error hrun).1 hreader
  | ok a after =>
    have hmap : (f <$> reader) cursor = .ok (f a) after := by
      simp only [Functor.map, EStateM.map, hrun]
    rw [iff_of_ok hmap]
    exact (iff_of_ok hrun).1 hreader

/-- One of two readers, after which the reading goes on in the same way. -/
theorem ite_bind (part : α → Cursor → Prop) {accepted : Bool} {left right : Parse α}
    {next : α → Parse β} {result : β → Cursor → Prop}
    (hleft : accepted = true →
      Reads condition left cursor fun a after => condition ∧ after.Sound ∧ part a after)
    (hright : accepted = false →
      Reads condition right cursor fun a after => condition ∧ after.Sound ∧ part a after)
    (hnext : ∀ a after, Reads (condition ∧ after.Sound ∧ part a after) (next a) after result) :
    Reads condition (if accepted = true then left >>= next else right >>= next) cursor result := by
  cases accepted with
  | true => exact bind (hleft rfl) hnext
  | false => exact bind (hright rfl) hnext

/-! ### The readers of tokens

Their results begin with the condition and the soundness of the cursor, so that
a row of readers hands on both. -/

/-- Whether a token of the given categories came next. -/
theorem accept {kinds : List TokenKind} (hend : TokenKind.endOfFile ∉ kinds)
    (hsound : condition → cursor.Sound) :
    Reads condition (Grammar.accept kinds) cursor fun accepted after =>
      condition ∧ after.Sound ∧
        ((accepted = true ∧ ∃ token, cursor.Took [token] after ∧ token.kind ∈ kinds) ∨
          (accepted = false ∧ after = cursor ∧ cursor.sees kinds = false)) := by
  unfold Reads Grammar.accept
  by_cases hsees : cursor.sees kinds = true
  · rw [if_pos hsees]
    refine ⟨.take cursor, fun hcondition _ => ?_⟩
    rcases (hsound hcondition).exists_of_sees hend hsees with ⟨token, rest, hpending, hkind⟩
    have htook := Cursor.Took.take hpending
    exact ⟨hcondition, (hsound hcondition).took htook, .inl ⟨rfl, token, htook, hkind⟩⟩
  · rw [if_neg hsees]
    have hnot : cursor.sees kinds = false := Bool.eq_false_iff.2 hsees
    refine ⟨.refl cursor, fun hcondition _ => ?_⟩
    exact ⟨hcondition, hsound hcondition, .inr ⟨rfl, rfl, hnot⟩⟩

/-- The next token is taken if it is known to be of the accepted category. -/
theorem acceptNext {kind : TokenKind} (hkind : kind ≠ .endOfFile)
    (hcursor : condition → cursor.Sound ∧ cursor.current.kind = kind) :
    Reads condition (Grammar.accept [kind]) cursor fun _ after =>
      condition ∧ after.Sound ∧ ∃ token, cursor.Took [token] after ∧ token.kind = kind := by
  have hend : TokenKind.endOfFile ∉ [kind] := by simpa using hkind.symm
  refine mono (accept hend fun h => (hcursor h).1) ?_
  rintro accepted after ⟨hcondition, hafter, ⟨-, token, htook, hmem⟩ | ⟨-, -, hnot⟩⟩
  · exact ⟨hcondition, hafter, token, htook, List.mem_singleton.1 hmem⟩
  · have hsees : cursor.sees [kind] = true :=
      List.contains_iff_mem.2 (List.mem_singleton.2 (hcursor hcondition).2)
    rw [hsees] at hnot
    cases hnot

/-- A complaint is one. -/
theorem unexpected (expected : List TokenKind) :
    Reads condition (Grammar.unexpected expected) cursor fun _ _ => False := by
  refine ⟨.complain cursor expected, fun _ hquiet => ?_⟩
  have hlength := congrArg List.length hquiet
  simp [Cursor.complain] at hlength

/-- Recovery moves the cursor over the tokens that it passes. -/
theorem recover (expected follow : List TokenKind) {result : Token → Cursor → Prop} :
    Reads False (Grammar.recover expected follow) cursor result := by
  unfold Reads Grammar.recover
  rcases seek expected follow cursor.endToken cursor.pending with ⟨landing, passed⟩
  cases landing with
  | found => exact ⟨.trans (.discard cursor passed) (.take _), False.elim⟩
  | followed => exact ⟨.discard cursor passed, False.elim⟩
  | blocked => exact ⟨.discard cursor passed, False.elim⟩

/-- Without a complaint, an expected token was taken. -/
theorem expect {expected : List TokenKind} (follow : List TokenKind)
    (hend : TokenKind.endOfFile ∉ expected) (hsound : condition → cursor.Sound) :
    Reads condition (Grammar.expect expected follow) cursor fun token after =>
      condition ∧ after.Sound ∧ cursor.Took [token] after ∧ token.kind ∈ expected := by
  by_cases hsees : cursor.sees expected = true
  · have hrun : Grammar.expect expected follow cursor = .ok cursor.current cursor.take := by
      rw [expect_apply, if_pos hsees]
    rw [iff_of_ok hrun]
    refine ⟨.take cursor, fun hcondition _ => ?_⟩
    rcases (hsound hcondition).exists_of_sees hend hsees with ⟨token, rest, hpending, hkind⟩
    have hcurrent : cursor.current = token := by rw [Cursor.current, hpending, List.headD_cons]
    have htook := Cursor.Took.take hpending
    rw [hcurrent]
    exact ⟨hcondition, (hsound hcondition).took htook, htook, hkind⟩
  · -- The complaint comes before recovery, so that nothing has to be known of it.
    have hloud : Reads condition (do Grammar.unexpected expected; Grammar.recover expected follow)
        cursor fun token after =>
          condition ∧ after.Sound ∧ cursor.Took [token] after ∧ token.kind ∈ expected :=
      bind (unexpected expected) fun _ _ => recover expected follow
    unfold Reads at hloud ⊢
    rw [expect_apply, if_neg hsees]
    exact hloud

/-- A part that may be skipped is not skipped without a complaint. -/
theorem skippable {reader : Parse α} {result : α → Cursor → Prop}
    (hreader : Reads condition reader cursor fun a after =>
      condition ∧ after.Sound ∧ result a after) :
    Reads condition (Grammar.skippable reader) cursor fun part after =>
      condition ∧ after.Sound ∧ ∃ a, part = some a ∧ result a after := by
  unfold Reads Grammar.skippable at *
  cases hrun : reader cursor with
  | ok a after =>
    rw [hrun] at hreader
    refine ⟨hreader.1, fun hcondition hquiet => ?_⟩
    rcases hreader.2 hcondition hquiet with ⟨-, hsound, hresult⟩
    exact ⟨hcondition, hsound, a, rfl, hresult⟩
  | error stop after =>
    rw [hrun] at hreader
    cases stop with
    | skip =>
      refine ⟨hreader.1, fun hcondition hquiet => ?_⟩
      rcases hreader.2 hcondition hquiet with ⟨fault, hfault⟩
      cases hfault
    | halt => exact hreader
    | fatal fault => exact hreader

/-- A statement goes on after a part that is there. -/
theorem resume {part : Option α} {result : α → Cursor → Prop}
    (hpart : condition → cursor.Sound ∧ ∃ a, part = some a ∧ result a cursor) :
    Reads condition (Grammar.resume part) cursor fun again after =>
      condition ∧ after.Sound ∧ ∃ a, again = some a ∧ result a after := by
  by_cases hgiveUp : (part.isNone && cursor.sees statementFollow) = true
  · have hrun : Grammar.resume part cursor = .error .skip cursor := if_pos hgiveUp
    rw [iff_of_error hrun]
    refine ⟨.refl cursor, fun hcondition _ => ?_⟩
    rcases hpart hcondition with ⟨-, a, rfl, -⟩
    cases hgiveUp
  · have hrun : Grammar.resume part cursor = .ok part cursor := if_neg hgiveUp
    rw [iff_of_ok hrun]
    exact ⟨.refl cursor, fun hcondition _ => ⟨hcondition, hpart hcondition⟩⟩

/-- A part that may be skipped, after which the statement goes on. -/
theorem part_bind {reader : Parse α} {next : Option α → Parse β} {part : α → Cursor → Prop}
    {result : β → Cursor → Prop}
    (hreader : Reads condition reader cursor fun a after => condition ∧ after.Sound ∧ part a after)
    (hnext : ∀ a? after, Reads (condition ∧ after.Sound ∧ ∃ a, a? = some a ∧ part a after)
      (next a?) after result) :
    Reads condition (Grammar.skippable reader >>= fun a? => Grammar.resume a? >>= next) cursor
      result := by
  refine bind (skippable hreader) fun a? c₁ => bind (resume fun h => h.2) fun again c₂ => ?_
  exact of_imp (hnext again c₂) fun h => ⟨h.1.1, h.2⟩

/-- Without a complaint, an expected token was taken as a part. -/
theorem expectPart {expected : List TokenKind} (follow : List TokenKind)
    (hend : TokenKind.endOfFile ∉ expected) (hsound : condition → cursor.Sound) :
    Reads condition (Grammar.expectPart expected follow) cursor fun part after =>
      condition ∧ after.Sound ∧ ∃ token, part = some token ∧ cursor.Took [token] after ∧
        token.kind ∈ expected := by
  refine bind (skippable (expect follow hend hsound)) fun part c₁ => ?_
  exact mono (resume fun h => h.2) fun again c₂ h => ⟨h.1.1, h.2⟩

end Reads

end Grammar

end LoopLang
