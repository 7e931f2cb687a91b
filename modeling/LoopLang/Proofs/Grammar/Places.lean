import LoopLang.Proofs.Expr.Places
import LoopLang.Proofs.Grammar.Resumption
import LoopLang.Proofs.Grammar.RoundTrip

/-!
# Reading heeds no places

Two streams whose tokens differ only in their places are read in the same way:
every decision of a reader, and every landing of a recovery, depends on categories
of tokens.  Both readings record the same mistakes and give the same trees, up to
places and quotations.

The argument runs two readers side by side.  A relation between cursors is kept by
each primitive, and the readers are followed rule by rule.

Main definitions:

- `Diagnostic.unplaced`: a diagnostic without the place of its anchor.
- `Cursor.Alike`: two cursors that differ only in places.
- `Parallel`: two readers that end alike when they begin alike.

Main results:

- Theorem `Parallel.statementWith`: a statement is read without heed to places.
- Theorem `ofStream_of_unplaced`: so is a program.
-/

namespace LoopLang

/-- A diagnostic without the place of its anchor. -/
def Diagnostic.unplaced (diagnostic : Diagnostic) : Diagnostic :=
  ⟨diagnostic.cause, diagnostic.anchor.map Token.unplaced⟩

theorem Program.unplaced_append (front back : List Stmt) :
    Program.unplaced (front ++ back) = Program.unplaced front ++ Program.unplaced back := by
  induction front with
  | nil => rfl
  | cons stmt rest ih => simp only [List.cons_append, Program.unplaced, ih]

namespace Token

/-- Whether a token is expected does not depend on its place. -/
theorem isOneOf_eq_of_unplaced {token other : Token}
    (hsame : token.unplaced = other.unplaced) (kinds : List TokenKind) :
    token.isOneOf kinds = other.isOneOf kinds := by
  rw [isOneOf, isOneOf, kind_eq_of_unplaced hsame]

/-- The front of a list is chosen by categories. -/
theorem map_unplaced_takeWhile (p : TokenKind → Bool) (tokens : List Token) :
    (tokens.takeWhile fun token => p token.kind).map unplaced =
      (tokens.map unplaced).takeWhile fun token => p token.kind := by
  rw [List.takeWhile_map]
  rfl

/-- What is left of a row after a run of categories does not depend on places. -/
theorem map_unplaced_dropWhile (p : TokenKind → Bool) (tokens : List Token) :
    (tokens.dropWhile fun token => p token.kind).map unplaced =
      (tokens.map unplaced).dropWhile fun token => p token.kind := by
  rw [List.dropWhile_map]
  rfl

end Token

namespace Grammar

/-! ## Cursors -/

namespace Cursor

/-- The two cursors differ only in places and in their sources.  Nothing is said of the
tokens that were passed over, which no reader looks at. -/
structure Alike (cursor other : Cursor) : Prop where
  pending : cursor.pending.map Token.unplaced = other.pending.map Token.unplaced
  endToken : cursor.endToken.unplaced = other.endToken.unplaced
  taken : cursor.taken.map Token.unplaced = other.taken.map Token.unplaced
  diagnostics :
    cursor.diagnostics.map Diagnostic.unplaced = other.diagnostics.map Diagnostic.unplaced

namespace Alike

variable {cursor other : Cursor}

/-- The first of two lists that differ in places, or what stands for it. -/
theorem unplaced_headD {tokens others : List Token} {token instead : Token}
    (htokens : tokens.map Token.unplaced = others.map Token.unplaced)
    (htoken : token.unplaced = instead.unplaced) :
    (tokens.headD token).unplaced = (others.headD instead).unplaced := by
  cases tokens with
  | nil =>
    rw [List.map_nil, eq_comm, List.map_eq_nil_iff] at htokens
    rw [htokens]
    exact htoken
  | cons first rest =>
    rcases List.map_eq_cons_iff.1 htokens.symm with ⟨second, more, rfl, hsecond, -⟩
    exact hsecond.symm

/-- The next tokens differ only in their places. -/
theorem current (halike : cursor.Alike other) :
    cursor.current.unplaced = other.current.unplaced :=
  unplaced_headD halike.pending halike.endToken

theorem accepted (halike : cursor.Alike other) :
    cursor.accepted.unplaced = other.accepted.unplaced :=
  unplaced_headD halike.taken rfl

theorem length_eq (halike : cursor.Alike other) :
    cursor.pending.length = other.pending.length := by
  simpa using congrArg List.length halike.pending

theorem sees_eq (halike : cursor.Alike other) (kinds : List TokenKind) :
    cursor.sees kinds = other.sees kinds :=
  Token.isOneOf_eq_of_unplaced halike.current kinds

/-- Taking a token keeps cursors alike. -/
theorem take (halike : cursor.Alike other) : cursor.take.Alike other.take where
  pending := by simp only [Cursor.take, List.map_tail, halike.pending]
  endToken := halike.endToken
  taken := by simp only [Cursor.take, List.map_cons, halike.current, halike.taken]
  diagnostics := halike.diagnostics

theorem discard (halike : cursor.Alike other) (n : Nat) :
    (cursor.discard n).Alike (other.discard n) where
  pending := by simp only [Cursor.discard, List.map_drop, halike.pending]
  endToken := halike.endToken
  taken := halike.taken
  diagnostics := halike.diagnostics

/-- The same complaint is recorded, about tokens that differ only in their places. -/
theorem complain (halike : cursor.Alike other) (expected : List TokenKind) :
    (cursor.complain expected).Alike (other.complain expected) where
  pending := halike.pending
  endToken := halike.endToken
  taken := halike.taken
  diagnostics := by
    simp only [Cursor.complain, List.map_append, List.map_singleton, halike.diagnostics,
      Diagnostic.unplaced, Diagnostic.about, Option.map_some, halike.current,
      Token.kind_eq_of_unplaced halike.current]

/-- A row of tokens is taken by their categories. -/
theorem takeWhile (halike : cursor.Alike other) (p : TokenKind → Bool) :
    (cursor.takeWhile fun token => p token.kind).Alike
      (other.takeWhile fun token => p token.kind) where
  pending := by simp only [Cursor.takeWhile, Token.map_unplaced_dropWhile, halike.pending]
  endToken := halike.endToken
  taken := by
    simp only [Cursor.takeWhile, List.map_append, List.map_reverse, Token.map_unplaced_takeWhile,
      halike.pending, halike.taken]
  diagnostics := halike.diagnostics

end Alike

end Cursor

/-- Where recovery lands depends on the categories of the tokens. -/
theorem seek_unplaced (expected follow : List TokenKind) (endToken : Token) (tokens : List Token) :
    seek expected follow endToken.unplaced (tokens.map Token.unplaced) =
      seek expected follow endToken tokens := by
  induction tokens with
  | nil => rfl
  | cons token rest ih =>
    have hnext : ((rest.map Token.unplaced).headD endToken.unplaced).isOneOf expected =
        (rest.headD endToken).isOneOf expected := by
      cases rest <;> rfl
    simp only [List.map_cons, seek, hnext, ih, Token.isOneOf_unplaced]

/-! ## Readers side by side -/

/-- The two readings stopped for the same kind of reason. -/
inductive Stop.Alike : Stop → Stop → Prop
  | skip : Alike .skip .skip
  | halt : Alike .halt .halt
  | fatal (fault other : Fault) : Alike (.fatal fault) (.fatal other)

/-- Two readings that end alike: both get to their end, with results that agree in
the given view, or both stop short. -/
inductive EndsAlike {α γ : Type} (view : α → γ) :
    EStateM.Result Stop Cursor α → EStateM.Result Stop Cursor α → Prop
  | ok {a b : α} {after other : Cursor} (hview : view a = view b) (halike : after.Alike other) :
    EndsAlike view (.ok a after) (.ok b other)
  | error {stop stop' : Stop} {after other : Cursor} (hstop : stop.Alike stop')
    (halike : after.Alike other) : EndsAlike view (.error stop after) (.error stop' other)

/-- The two readers end alike wherever they begin alike. -/
def Parallel {α γ : Type} (view : α → γ) (reader other : Parse α) : Prop :=
  ∀ cursor cursor' : Cursor, cursor.Alike cursor' →
    EndsAlike view (reader cursor) (other cursor')

namespace Parallel

variable {α β γ δ : Type} {view : α → γ} {viewNext : β → δ}

theorem pure {a b : α} (hview : view a = view b) :
    Parallel view (Pure.pure a) (Pure.pure b) :=
  fun _ _ halike => .ok hview halike

/-- Both readers stop for the same reason. -/
theorem throw {stop other : Stop} (hstop : stop.Alike other) :
    Parallel view (MonadExcept.throw stop) (MonadExcept.throw other) :=
  fun _ _ halike => .error hstop halike

/-- Two readers, one after the other. -/
theorem bind {reader other : Parse α} {next next' : α → Parse β}
    (hreader : Parallel view reader other)
    (hnext : ∀ a b, view a = view b → Parallel viewNext (next a) (next' b)) :
    Parallel viewNext (reader >>= next) (other >>= next') := by
  intro cursor cursor' halike
  have hends := hreader cursor cursor' halike
  simp only [Bind.bind, EStateM.bind]
  generalize reader cursor = result, other cursor' = result' at hends ⊢
  cases hends with
  | ok hview halike => exact hnext _ _ hview _ _ halike
  | error hstop halike => exact .error hstop halike

/-- What is looked up in the cursor is alike. -/
theorem get_bind {next next' : Cursor → Parse β}
    (hnext : ∀ cursor other, cursor.Alike other → Parallel viewNext (next cursor) (next' other)) :
    Parallel viewNext (MonadState.get >>= next) (MonadState.get >>= next') :=
  fun cursor cursor' halike => hnext cursor cursor' halike cursor cursor' halike

/-- Another form of the result. -/
theorem map {f f' : α → β} {reader other : Parse α} (hreader : Parallel view reader other)
    (hview : ∀ a b, view a = view b → viewNext (f a) = viewNext (f' b)) :
    Parallel viewNext (f <$> reader) (f' <$> other) := by
  rw [← bind_pure_comp, ← bind_pure_comp]
  exact bind hreader fun a b hab => pure (hview a b hab)

/-- One of two readers, after which the reading goes on in the same way. -/
theorem ite_bind (view : α → γ) {accepted : Bool} {left left' right right' : Parse α}
    {next next' : α → Parse β}
    (hleft : Parallel view left left') (hright : Parallel view right right')
    (hnext : ∀ a b, view a = view b → Parallel viewNext (next a) (next' b)) :
    Parallel viewNext (if accepted = true then left >>= next else right >>= next)
      (if accepted = true then left' >>= next' else right' >>= next') := by
  cases accepted with
  | true => exact bind hleft hnext
  | false => exact bind hright hnext

/-- The same answer is given to whether a token is accepted. -/
theorem accept (kinds : List TokenKind) :
    Parallel id (Grammar.accept kinds) (Grammar.accept kinds) := by
  intro cursor cursor' halike
  unfold Grammar.accept
  rw [← halike.sees_eq kinds]
  cases cursor.sees kinds with
  | true => exact .ok rfl halike.take
  | false => exact .ok rfl halike

/-- The next token is taken or not in both readings. -/
theorem accept_bind {kinds : List TokenKind} {next next' : Bool → Parse β}
    (hnext : ∀ accepted, Parallel viewNext (next accepted) (next' accepted)) :
    Parallel viewNext (Grammar.accept kinds >>= next) (Grammar.accept kinds >>= next') := by
  refine bind (accept kinds) ?_
  rintro accepted _ rfl
  exact hnext accepted

theorem unexpected (expected : List TokenKind) :
    Parallel id (Grammar.unexpected expected) (Grammar.unexpected expected) :=
  fun _ _ halike => .ok rfl (halike.complain expected)

/-- Recovery lands on tokens that differ only in their places. -/
theorem recover (expected follow : List TokenKind) :
    Parallel Token.unplaced (Grammar.recover expected follow)
      (Grammar.recover expected follow) := by
  intro cursor cursor' halike
  have hseek : seek expected follow cursor.endToken cursor.pending =
      seek expected follow cursor'.endToken cursor'.pending := by
    rw [← seek_unplaced, halike.endToken, halike.pending, seek_unplaced]
  unfold Grammar.recover
  rw [hseek]
  rcases seek expected follow cursor'.endToken cursor'.pending with ⟨landing, passed⟩
  have hdiscard := halike.discard passed
  cases landing with
  | found => exact .ok hdiscard.current hdiscard.take
  | followed => exact .error .skip hdiscard
  | blocked => exact .error .halt hdiscard

/-- Expecting gives tokens that differ only in their places. -/
theorem expect (expected follow : List TokenKind) :
    Parallel Token.unplaced (Grammar.expect expected follow) (Grammar.expect expected follow) := by
  refine accept_bind fun accepted => ?_
  cases accepted with
  | true => exact get_bind fun _ _ halike => pure halike.accepted
  | false => exact bind (unexpected expected) fun _ _ _ => recover expected follow

/-! ### Parts of a statement -/

/-- A part is skipped by both readers or by none. -/
theorem skippable {reader other : Parse α} (hreader : Parallel view reader other) :
    Parallel (Option.map view) (Grammar.skippable reader) (Grammar.skippable other) := by
  intro cursor cursor' halike
  have hends := hreader cursor cursor' halike
  unfold Grammar.skippable
  generalize reader cursor = result, other cursor' = result' at hends ⊢
  cases hends with
  | ok hview halike => exact .ok (congrArg some hview) halike
  | error hstop halike =>
    cases hstop with
    | skip => exact .ok rfl halike
    | halt => exact .error .halt halike
    | fatal fault other => exact .error (.fatal fault other) halike

/-- Both readers go on with the part, or both stop. -/
theorem resume {part other : Option α} (hpart : part.map view = other.map view) :
    Parallel (Option.map view) (Grammar.resume part) (Grammar.resume other) := by
  intro cursor cursor' halike
  have hnone : part.isNone = other.isNone := by
    simpa using congrArg Option.isNone hpart
  unfold Grammar.resume
  rw [hnone, halike.sees_eq]
  split
  · exact .error .skip halike
  · exact .ok hpart halike

/-- A part that may be skipped, after which the statement goes on. -/
theorem part_bind {reader other : Parse α} {next next' : Option α → Parse β}
    (hreader : Parallel view reader other)
    (hnext : ∀ part part' : Option α, part.map view = part'.map view →
      Parallel viewNext (next part) (next' part')) :
    Parallel viewNext (Grammar.skippable reader >>= fun part => Grammar.resume part >>= next)
      (Grammar.skippable other >>= fun part => Grammar.resume part >>= next') :=
  bind (skippable hreader) fun _ _ hpart => bind (resume hpart) hnext

theorem expectPart (expected follow : List TokenKind) :
    Parallel (Option.map Token.unplaced) (Grammar.expectPart expected follow)
      (Grammar.expectPart expected follow) :=
  bind (skippable (expect expected follow)) fun _ _ hpart => resume hpart

/-! ### Expressions -/

/-- The prefix operators differ only in their places. -/
theorem unaryOperators :
    Parallel (List.map Token.unplaced) Grammar.unaryOperators Grammar.unaryOperators := by
  intro cursor cursor' halike
  refine .ok ?_ (halike.takeWhile fun kind => kind == .unaryOperator)
  simp only [Token.map_unplaced_takeWhile fun kind => kind == .unaryOperator, halike.pending]

/-- The tokens of an expression are collected by their categories. -/
theorem expressionTokensWithin (bound : Nat) :
    Parallel (List.map Token.unplaced) (Grammar.expressionTokensWithin bound)
      (Grammar.expressionTokensWithin bound) := by
  induction bound with
  | zero =>
    refine bind (expect operandFirst expressionFollow) fun operand other hoperand => pure ?_
    rw [List.map_singleton, List.map_singleton, hoperand]
  | succ bound ih =>
    rw [expressionTokensWithin_succ]
    have hchain : ∀ {term other : List Token},
        term.map Token.unplaced = other.map Token.unplaced →
          Parallel (List.map Token.unplaced) (chainFrom (Grammar.expressionTokensWithin bound) term)
            (chainFrom (Grammar.expressionTokensWithin bound) other) := by
      intro term other hterm
      refine accept_bind fun accepted => ?_
      cases accepted with
      | true =>
        refine get_bind fun cursor cursor' halike => bind ih fun more more' hmore => pure ?_
        simp only [List.map_append, List.map_cons, hterm, halike.accepted, hmore]
      | false => exact pure hterm
    refine bind unaryOperators fun operators operators' hoperators => ?_
    refine bind (expect operandFirst expressionFollow) fun operand operand' hoperand => ?_
    rw [← Token.kind_eq_of_unplaced hoperand]
    split
    · refine bind ih fun inner inner' hinner => ?_
      refine bind (expect [.rightBracket] expressionFollow) fun close close' hclose => hchain ?_
      simp only [List.map_append, List.map_cons, List.map_nil, hoperators, hoperand, hinner, hclose]
    · refine hchain ?_
      simp only [List.map_append, List.map_cons, List.map_nil, hoperators, hoperand]

/-- The tree of an expression does not depend on places. -/
theorem expression : Parallel Expr.unplaced Grammar.expression Grammar.expression := by
  have hcollect : Parallel (List.map Token.unplaced) expressionTokens expressionTokens := by
    refine get_bind fun cursor cursor' halike => ?_
    rw [halike.length_eq]
    exact expressionTokensWithin cursor'.pending.length
  refine bind hcollect fun tokens tokens' htokens => ?_
  have htree : (Expr.ofTokens tokens).toOption.map Expr.unplaced =
      (Expr.ofTokens tokens').toOption.map Expr.unplaced := by
    rw [← Expr.toOption_ofTokens_unplaced, htokens, Expr.toOption_ofTokens_unplaced]
  cases hfirst : Expr.ofTokens tokens <;> cases hsecond : Expr.ofTokens tokens' <;>
    rw [hfirst, hsecond] at htree
  · exact throw (.fatal _ _)
  · cases htree
  · cases htree
  · exact pure (Option.some.inj htree)

/-! ### Statements -/

/-- Of two parts that agree, none or both are there. -/
theorem map_eq_map_cases {part part' : Option α} (hpart : part.map view = part'.map view) :
    part = none ∧ part' = none ∨ ∃ a b, part = some a ∧ part' = some b ∧ view a = view b := by
  cases part <;> cases part' <;> simp_all

theorem readStatement :
    Parallel Stmt.unplaced Grammar.readStatement Grammar.readStatement := by
  refine accept_bind fun _ => bind (expect [.identifier] []) fun name name' hname => pure ?_
  simp only [Stmt.unplaced, hname]

theorem printStatement :
    Parallel Stmt.unplaced Grammar.printStatement Grammar.printStatement := by
  refine accept_bind fun _ => bind expression fun value value' hvalue => pure ?_
  simp only [Stmt.unplaced, hvalue]

theorem assignment : Parallel Stmt.unplaced Grammar.assignment Grammar.assignment := by
  refine accept_bind fun _ => get_bind fun cursor cursor' halike => ?_
  refine bind (expectPart [.assignment] expressionFirst) fun sign sign' hsign => ?_
  refine bind expression fun value value' hvalue => ?_
  rcases map_eq_map_cases hsign with ⟨rfl, rfl⟩ | ⟨_, _, rfl, rfl, -⟩
  · exact throw .skip
  · apply pure
    simp only [Stmt.unplaced, halike.accepted, hvalue]

theorem declaration : Parallel Stmt.unplaced Grammar.declaration Grammar.declaration := by
  refine accept_bind fun _ => ?_
  refine bind (expectPart [.identifier] [.colon]) fun name name' hname => ?_
  refine bind (expectPart [.colon] types) fun colon colon' hcolon => ?_
  refine bind (skippable (expect types [.assignment])) fun word word' hword => ?_
  refine accept_bind fun accepted => ?_
  refine ite_bind (Option.map Expr.unplaced)
    (map expression fun _ _ hvalue => congrArg some hvalue) (pure rfl)
    fun initial initial' hinitial => ?_
  rcases map_eq_map_cases hname with ⟨rfl, rfl⟩ | ⟨name, name', rfl, rfl, hsame⟩
  · exact throw .skip
  rcases map_eq_map_cases hcolon with ⟨rfl, rfl⟩ | ⟨_, _, rfl, rfl, -⟩
  · exact throw .skip
  rcases map_eq_map_cases hword with ⟨rfl, rfl⟩ | ⟨word, word', rfl, rfl, hsameWord⟩
  · exact throw .skip
  simp only [Token.kind_eq_of_unplaced hsameWord]
  split
  · apply pure
    simp only [Stmt.unplaced, hsame, hsameWord, hinitial]
  · exact throw (.fatal _ _)

/-- An assertion is the same up to places and its quotation, which is cut out of
the source. -/
theorem assertion : Parallel Stmt.unplaced Grammar.assertion Grammar.assertion := by
  refine accept_bind fun _ => get_bind fun start start' hstart => ?_
  refine bind (expectPart [.leftBracket] expressionFirst) fun opening opening' hopening => ?_
  refine get_bind fun _ _ _ => part_bind expression fun condition condition' hcondition => ?_
  refine get_bind fun _ _ _ => ?_
  refine bind (skippable (expect [.rightBracket] [])) fun closing closing' hclosing => ?_
  rcases map_eq_map_cases hopening with ⟨rfl, rfl⟩ | ⟨_, _, rfl, rfl, -⟩
  · exact throw .skip
  rcases map_eq_map_cases hcondition with ⟨rfl, rfl⟩ | ⟨_, _, rfl, rfl, hsame⟩
  · exact throw .skip
  rcases map_eq_map_cases hclosing with ⟨rfl, rfl⟩ | ⟨_, _, rfl, rfl, -⟩
  · exact throw .skip
  refine get_bind fun _ _ _ => pure ?_
  simp only [Stmt.unplaced, hstart.accepted, hsame]

/-- A loop is the same up to places if its body is. -/
theorem loop {body : Parse Program} (hbody : Parallel Program.unplaced body body) :
    Parallel Stmt.unplaced (Grammar.loop body) (Grammar.loop body) := by
  refine accept_bind fun _ => ?_
  refine bind (expectPart [.identifier] [.inKeyword]) fun counter counter' hcounter => ?_
  refine bind (expectPart [.inKeyword] expressionFirst) fun inWord inWord' hin => ?_
  refine part_bind expression fun first first' hfirst => ?_
  refine bind (expectPart [.range] expressionFirst) fun range range' hrange => ?_
  refine part_bind expression fun last last' hlast => ?_
  refine bind (skippable (expect [.doKeyword] bodyFirst)) fun doWord doWord' hdo => ?_
  refine bind hbody fun program program' hprogram => ?_
  refine bind (skippable (expect [.endKeyword] [.forKeyword])) fun endWord endWord' hend => ?_
  refine bind (skippable (expect [.forKeyword] [])) fun forWord forWord' hfor => ?_
  rcases map_eq_map_cases hcounter with ⟨rfl, rfl⟩ | ⟨_, _, rfl, rfl, hsame⟩
  · exact throw .skip
  rcases map_eq_map_cases hin with ⟨rfl, rfl⟩ | ⟨_, _, rfl, rfl, -⟩
  · exact throw .skip
  rcases map_eq_map_cases hfirst with ⟨rfl, rfl⟩ | ⟨_, _, rfl, rfl, hsameFirst⟩
  · exact throw .skip
  rcases map_eq_map_cases hrange with ⟨rfl, rfl⟩ | ⟨_, _, rfl, rfl, -⟩
  · exact throw .skip
  rcases map_eq_map_cases hlast with ⟨rfl, rfl⟩ | ⟨_, _, rfl, rfl, hsameLast⟩
  · exact throw .skip
  rcases map_eq_map_cases hdo with ⟨rfl, rfl⟩ | ⟨_, _, rfl, rfl, -⟩
  · exact throw .skip
  rcases map_eq_map_cases hend with ⟨rfl, rfl⟩ | ⟨_, _, rfl, rfl, -⟩
  · exact throw .skip
  rcases map_eq_map_cases hfor with ⟨rfl, rfl⟩ | ⟨_, _, rfl, rfl, -⟩
  · exact throw .skip
  apply pure
  simp only [Stmt.unplaced, hsame, hsameFirst, hsameLast, hprogram]

/-- A statement is read without heed to places. -/
theorem statementWith {body : Parse Program} (hbody : Parallel Program.unplaced body body) :
    Parallel Stmt.unplaced (Grammar.statementWith body) (Grammar.statementWith body) := by
  refine get_bind fun cursor cursor' halike => ?_
  rw [Token.kind_eq_of_unplaced halike.current]
  split
  · exact declaration
  · exact assignment
  · exact loop hbody
  · exact readStatement
  · exact printStatement
  · exact assertion
  · exact bind (unexpected statementFirst) fun _ _ _ => throw .skip

/-! ### Lists of statements -/

/-- A broken statement is left out by both readers, which are stopped by it or go on. -/
theorem attempt {reader other : Parse Stmt} (hreader : Parallel Stmt.unplaced reader other) :
    Parallel (fun result => (Program.unplaced result.toList, result.isHalted))
      (Grammar.attempt reader) (Grammar.attempt other) := by
  intro cursor cursor' halike
  have hends := hreader cursor cursor' halike
  unfold Grammar.attempt
  generalize reader cursor = result, other cursor' = result' at hends ⊢
  cases hends with
  | ok hview halike =>
    refine .ok ?_ halike
    simp only [Attempt.toList, Program.unplaced, hview, Attempt.isHalted]
  | error hstop halike =>
    cases hstop with
    | skip => exact .ok rfl halike
    | halt => exact .ok rfl halike
    | fatal fault other => exact .error (.fatal fault other) halike

theorem statementsWithin (bound : Nat) :
    Parallel Program.unplaced (Grammar.statementsWithin bound)
      (Grammar.statementsWithin bound) := by
  induction bound with
  | zero => exact pure rfl
  | succ bound ih =>
    have hmore : ∀ {front front' : Program}, Program.unplaced front = Program.unplaced front' →
        Parallel Program.unplaced
          (Grammar.statementsWithin bound >>= fun rest => Pure.pure (front ++ rest))
          (Grammar.statementsWithin bound >>= fun rest => Pure.pure (front' ++ rest)) := by
      intro front front' hfront
      refine bind ih fun rest rest' hrest => pure ?_
      rw [Program.unplaced_append, Program.unplaced_append, hfront, hrest]
    refine get_bind fun cursor cursor' halike => ?_
    rw [halike.sees_eq]
    split
    · refine bind (attempt (statementWith ih)) fun result result' hresult => ?_
      rcases Prod.mk.inj hresult with ⟨hlist, hhalted⟩
      refine accept_bind fun separated => ?_
      rw [hhalted]
      split
      · exact hmore hlist
      · refine get_bind fun cursor cursor' halike => ?_
        rw [halike.sees_eq]
        split
        · exact bind (unexpected [.semicolon]) fun _ _ _ => hmore hlist
        · exact pure hlist
    · exact pure rfl

theorem statementsOrNone :
    Parallel Program.unplaced Grammar.statementsOrNone Grammar.statementsOrNone := by
  have hstatements : Parallel Program.unplaced Grammar.statements Grammar.statements := by
    refine get_bind fun cursor cursor' halike => ?_
    rw [halike.length_eq]
    exact statementsWithin cursor'.pending.length
  intro cursor cursor' halike
  have hends := hstatements cursor cursor' halike
  unfold Grammar.statementsOrNone
  generalize Grammar.statements cursor = result, Grammar.statements cursor' = result' at hends ⊢
  cases hends with
  | ok hview halike => exact .ok hview halike
  | error hstop halike =>
    cases hstop with
    | skip => exact .ok rfl halike
    | halt => exact .ok rfl halike
    | fatal fault other => exact .error (.fatal fault other) halike

/-! ### Programs -/

/-- The same number of tokens is passed over to the next statement. -/
theorem skipToStatement :
    Parallel id (modify Cursor.skipToStatement) (modify Cursor.skipToStatement) := by
  intro cursor cursor' halike
  have hdrop (tokens : List Token) :
      (tokens.dropWhile isStray).map Token.unplaced =
        (tokens.map Token.unplaced).dropWhile isStray :=
    Token.map_unplaced_dropWhile
      (fun kind => !(TokenKind.endOfFile :: statementFirst).contains kind) tokens
  refine .ok rfl ⟨?_, halike.endToken, halike.taken, halike.diagnostics⟩
  simp only [pending_skipToStatement, hdrop, List.map_tail, halike.pending]

/-- Going on after every broken list gives the same program up to places. -/
theorem programWithin (bound : Nat) :
    Parallel Program.unplaced (Grammar.programWithin bound) (Grammar.programWithin bound) := by
  induction bound with
  | zero => exact pure rfl
  | succ bound ih =>
    refine bind statementsOrNone fun front front' hfront => ?_
    refine get_bind fun cursor cursor' halike => ?_
    rw [halike.sees_eq]
    split
    · exact pure hfront
    · refine get_bind fun cursor cursor' halike => ?_
      have hexpected : cursor.listExpected = cursor'.listExpected := by
        rw [Cursor.listExpected, Cursor.listExpected,
          Token.isOneOf_eq_of_unplaced halike.accepted]
      rw [hexpected]
      refine bind (unexpected _) fun _ _ _ => bind skipToStatement fun _ _ _ => ?_
      refine bind ih fun rest rest' hrest => pure ?_
      rw [Program.unplaced_append, Program.unplaced_append, hfront, hrest]

/-- The program of a text depends on the categories and texts of its tokens only. -/
theorem program : Parallel Program.unplaced Grammar.program Grammar.program := by
  refine get_bind fun cursor cursor' halike => ?_
  rw [halike.length_eq]
  exact programWithin cursor'.pending.length

end Parallel

/-- Two streams that differ only in places are read alike: the same mistakes are
recorded, and the trees are the same up to places and quotations. -/
theorem ofStream_of_unplaced {stream other : TokenStream} {program : Program}
    {mistakes : List Diagnostic}
    (hpending : stream.pending.map Token.unplaced = other.pending.map Token.unplaced)
    (hend : stream.endToken.unplaced = other.endToken.unplaced)
    (hread : Program.ofStream stream = .ok (program, mistakes)) :
    ∃ again mistakes', Program.ofStream other = .ok (again, mistakes') ∧
      Program.unplaced again = Program.unplaced program ∧
      mistakes'.map Diagnostic.unplaced = mistakes.map Diagnostic.unplaced := by
  have halike : (Cursor.ofStream stream).Alike (Cursor.ofStream other) :=
    ⟨hpending, hend, rfl, rfl⟩
  have hends := Parallel.program _ _ halike
  unfold Program.ofStream at hread ⊢
  generalize Grammar.program (Cursor.ofStream stream) = result,
    Grammar.program (Cursor.ofStream other) = result' at hends hread ⊢
  cases hends with
  | ok hview halike =>
    cases hread
    exact ⟨_, _, rfl, hview.symm, halike.diagnostics.symm⟩
  | error hstop halike =>
    cases hstop with
    | skip =>
      cases hread
      exact ⟨_, _, rfl, rfl, halike.diagnostics.symm⟩
    | halt =>
      cases hread
      exact ⟨_, _, rfl, rfl, halike.diagnostics.symm⟩
    | fatal fault other => cases hread

end Grammar

end LoopLang
