import LoopLang.Proofs.Grammar.Resumption

/-!
# Loops with an incomplete head

A loop that lacks one piece of its head is read to its end.  There is one complaint,
about the token that comes in place of the piece: it is one that can come after the
piece, so that reading goes on there at once.  The body stays in the loop, and the
loop is left out as a whole.

Main definitions:

- `HeadPiece`: the pieces of a head.
- `LoopTokens`, `LoopTokens.without`: the tokens of a loop, and those that are left
  when a piece is taken out.
- `LoopTokens.missing`: the complaint about a missing piece.
- `Cursor.InHead`: a place in a head that lacks a piece.

Main results:

- Theorem `expect_eq_skip`: in front of what may follow, a missing token is skipped.
- Theorem `ReadsPiece.of_reader`: what one piece does to the place in the head.
- Theorem `loop_of_missing_piece`: a loop without a piece is skipped to its end.
- Theorem `ofStream_of_missing_head_piece`: the statements around such a loop are read,
  and nothing of its body is.
-/

namespace LoopLang

namespace Grammar

/-! ## Tokens of a loop -/

/-- A piece of the head of a loop. -/
inductive HeadPiece where
  | counter
  | inWord
  | first
  | range
  | last
  | doWord
deriving DecidableEq, Repr

namespace HeadPiece

/-- The pieces in the order of the source. -/
def all : List HeadPiece := [counter, inWord, first, range, last, doWord]

/-- The pieces that come after a piece. -/
def later : HeadPiece → List HeadPiece
  | counter => [inWord, first, range, last, doWord]
  | inWord => [first, range, last, doWord]
  | first => [range, last, doWord]
  | range => [last, doWord]
  | last => [doWord]
  | doWord => []

/-- Whether a piece is one of the two bounds.  The others are single tokens. -/
def isBound : HeadPiece → Bool
  | first | last => true
  | _ => false

/-- What is expected at the place of a piece. -/
def expected : HeadPiece → List TokenKind
  | counter => [.identifier]
  | inWord => [.inKeyword]
  | range => [.range]
  | doWord => [.doKeyword]
  | first | last => operandFirst

/-- What can come after a piece. -/
def follow : HeadPiece → List TokenKind
  | counter => [.inKeyword]
  | first => [.range]
  | last => [.doKeyword]
  | inWord | range => expressionFirst
  | doWord => bodyFirst

/-- No piece comes after itself. -/
theorem not_mem_later (piece : HeadPiece) : piece ∉ piece.later := by
  cases piece <;> decide

/-- What can come after a piece is not expected in its place. -/
theorem not_mem_expected_of_mem_follow {piece : HeadPiece} {kind : TokenKind}
    (hkind : kind ∈ piece.follow) : kind ∉ piece.expected := by
  have hdisjoint : ∀ kind ∈ piece.follow, kind ∉ piece.expected := by
    cases piece <;> decide
  exact hdisjoint kind hkind

end HeadPiece

/-- The tokens of a loop. -/
structure LoopTokens where
  keyword : Token
  counter : Token
  inWord : Token
  first : List Token
  range : Token
  last : List Token
  doWord : Token
  body : List Token
  endWord : Token
  forWord : Token
deriving DecidableEq, Repr

namespace LoopTokens

/-- The tokens of a piece of the head. -/
def piece (loop : LoopTokens) : HeadPiece → List Token
  | .counter => [loop.counter]
  | .inWord => [loop.inWord]
  | .first => loop.first
  | .range => [loop.range]
  | .last => loop.last
  | .doWord => [loop.doWord]

/-- The tokens of the given pieces, and all that come after the head. -/
def fromPieces (loop : LoopTokens) (pieces : List HeadPiece) : List Token :=
  pieces.flatMap loop.piece ++ (loop.body ++ [loop.endWord, loop.forWord])

/-- All tokens of the loop. -/
def tokens (loop : LoopTokens) : List Token :=
  loop.keyword :: loop.fromPieces HeadPiece.all

/-- The tokens of the loop without a piece of its head. -/
def without (loop : LoopTokens) (piece : HeadPiece) : List Token :=
  loop.keyword :: loop.fromPieces (HeadPiece.all.erase piece)

/-- The token after a piece of the head. -/
def next (loop : LoopTokens) (piece : HeadPiece) : Token :=
  (loop.fromPieces piece.later).headD loop.endWord

/-- The complaint that a piece is missing in front of the token after it. -/
def missing (loop : LoopTokens) (piece : HeadPiece) : Diagnostic :=
  .about (loop.next piece) (.unexpectedToken piece.expected (loop.next piece).kind)

/-- The tokens are those of a loop with the given bounds and the given body. -/
structure IsLoop (source : String) (loop : LoopTokens) (first last : Expr) (body : Program) :
    Prop where
  keyword : loop.keyword.kind = .forKeyword
  counter : loop.counter.kind = .identifier
  inWord : loop.inWord.kind = .inKeyword
  first : Expr.IsExpression loop.first first
  range : loop.range.kind = .range
  last : Expr.IsExpression loop.last last
  doWord : loop.doWord.kind = .doKeyword
  body : IsProgram source loop.body body
  endWord : loop.endWord.kind = .endKeyword
  forWord : loop.forWord.kind = .forKeyword

theorem fromPieces_cons (loop : LoopTokens) (piece : HeadPiece) (pieces : List HeadPiece) :
    loop.fromPieces (piece :: pieces) = loop.piece piece ++ loop.fromPieces pieces := by
  rw [fromPieces, fromPieces, List.flatMap_cons, List.append_assoc]

/-- There are tokens in what is left of a head and its body: the word that ends the loop. -/
theorem fromPieces_ne_nil (loop : LoopTokens) (pieces : List HeadPiece) :
    loop.fromPieces pieces ≠ [] := by
  simp [fromPieces]

end LoopTokens

end Grammar

/-- A term begins with a token that an expression can begin with. -/
theorem Expr.IsTerm.exists_first {tokens : List Token} {expr : Expr}
    (hterm : Expr.IsTerm tokens expr) :
    ∃ token rest, tokens = token :: rest ∧ token.kind ∈ Grammar.expressionFirst := by
  obtain ⟨operators, operand, rfl, hunary, hoperand⟩ := Grammar.exists_operators_of_isTerm hterm
  cases operators with
  | nil =>
    obtain ⟨token, rest, rfl, hkind⟩ := hoperand.exists_first
    exact ⟨token, rest, rfl, List.mem_append_left _ hkind⟩
  | cons operator operators =>
    refine ⟨operator, operators ++ operand, rfl, ?_⟩
    rw [hunary operator List.mem_cons_self]
    decide

/-- An expression begins with a token that an expression can begin with. -/
theorem Expr.IsExpression.exists_first {tokens : List Token} {expr : Expr}
    (hexpr : Expr.IsExpression tokens expr) :
    ∃ token rest, tokens = token :: rest ∧ token.kind ∈ Grammar.expressionFirst := by
  obtain ⟨first, links, hchain, -⟩ := hexpr
  cases hchain with
  | single hterm => exact hterm.exists_first
  | @link operator _ _ more _ _ _ _ _ hterm _ =>
    obtain ⟨token, rest, rfl, hkind⟩ := hterm.exists_first
    exact ⟨token, rest ++ operator :: more, rfl, hkind⟩

namespace Grammar

namespace LoopTokens

variable {source : String} {loop : LoopTokens} {first last : Expr} {body : Program}

/-- The tokens of a loop are those of a statement, and no others are read as a loop. -/
theorem isStatement_loop_iff {tokens : List Token} {counter : Token} :
    IsStatement source tokens (.loop counter first last body) ↔
      ∃ loop : LoopTokens, loop.tokens = tokens ∧ loop.counter = counter ∧
        loop.IsLoop source first last body := by
  constructor
  · intro hstmt
    cases hstmt with
    | loop hkeyword hcounter hin hfirst hrange hlast hdo hbody hend hfor =>
      refine ⟨⟨_, _, _, _, _, _, _, _, _, _⟩, ?_, rfl, hkeyword, hcounter, hin, hfirst, hrange,
        hlast, hdo, hbody, hend, hfor⟩
      simp [LoopTokens.tokens, fromPieces, HeadPiece.all, piece]
  · rintro ⟨loop, rfl, rfl, hloop⟩
    have hstmt : IsStatement source _ _ := .loop hloop.keyword hloop.counter hloop.inWord
      hloop.first hloop.range hloop.last hloop.doWord hloop.body hloop.endWord hloop.forWord
    simpa [LoopTokens.tokens, fromPieces, HeadPiece.all, piece] using hstmt

namespace IsLoop

/-- A piece that is no bound is one token, the expected one. -/
theorem exists_word (hloop : loop.IsLoop source first last body) {piece : HeadPiece}
    (hword : piece.isBound = false) :
    ∃ token, loop.piece piece = [token] ∧ token.kind ∈ piece.expected := by
  cases piece with
  | counter => exact ⟨_, rfl, List.mem_singleton.2 hloop.counter⟩
  | inWord => exact ⟨_, rfl, List.mem_singleton.2 hloop.inWord⟩
  | range => exact ⟨_, rfl, List.mem_singleton.2 hloop.range⟩
  | doWord => exact ⟨_, rfl, List.mem_singleton.2 hloop.doWord⟩
  | first | last => cases hword

/-- What comes in place of a missing piece is a token that can come after it. -/
theorem next_kind_mem (hloop : loop.IsLoop source first last body) (piece : HeadPiece) :
    (loop.next piece).kind ∈ piece.follow := by
  cases piece with
  | counter => exact List.mem_singleton.2 hloop.inWord
  | inWord =>
    obtain ⟨token, rest, hfirst, hkind⟩ := hloop.first.exists_first
    rw [next, HeadPiece.later, fromPieces_cons, LoopTokens.piece, hfirst]
    exact hkind
  | first => exact List.mem_singleton.2 hloop.range
  | range =>
    obtain ⟨token, rest, hlast, hkind⟩ := hloop.last.exists_first
    rw [next, HeadPiece.later, fromPieces_cons, LoopTokens.piece, hlast]
    exact hkind
  | last => exact List.mem_singleton.2 hloop.doWord
  | doWord =>
    rw [next, HeadPiece.later, fromPieces, List.flatMap_nil, List.nil_append]
    rcases hloop.body.eq_nil_or_first with hbody | ⟨token, rest, hbody, hkind⟩
    · rw [hbody, List.nil_append, List.headD_cons, hloop.endWord]
      decide
    · rw [hbody]
      exact List.mem_append_left _ hkind

end IsLoop

end LoopTokens

/-! ## Missing parts -/

/-- In front of a token that may follow, recovery ends at once. -/
theorem seek_eq_followed {expected follow : List TokenKind} {cursor : Cursor}
    (hfollow : cursor.current.kind ∈ follow) :
    seek expected follow cursor.endToken cursor.pending = (.followed, 0) := by
  have hone : cursor.current.isOneOf (follow ++ statementFollow) = true :=
    List.contains_iff_mem.2 (List.mem_append_left _ hfollow)
  rw [Cursor.current] at hone
  cases hpending : cursor.pending with
  | nil =>
    rw [hpending] at hone
    exact congrArg (·, 0) (if_pos hone)
  | cons token rest =>
    rw [hpending] at hone
    exact if_pos hone

/-- In front of a token that may follow, a missing token is complained about, and the
cursor stays where it is. -/
theorem expect_eq_skip {expected follow : List TokenKind} {cursor : Cursor}
    (hfollow : cursor.current.kind ∈ follow) (hnot : cursor.current.kind ∉ expected) :
    expect expected follow cursor = .error .skip (cursor.complain expected) := by
  have hseek : seek expected follow (cursor.complain expected).endToken
      (cursor.complain expected).pending = (.followed, 0) := seek_eq_followed hfollow
  rw [expect_apply, Cursor.sees_eq_false hnot, if_neg Bool.false_ne_true, recover, hseek]
  rfl

/-- In front of a token that may follow, a missing expression is complained about, and
the cursor stays where it is. -/
theorem expression_eq_skip {cursor : Cursor} (hfollow : cursor.current.kind ∈ expressionFollow) :
    expression cursor = .error .skip (cursor.complain operandFirst) := by
  have hdisjoint : ∀ kind ∈ expressionFollow, kind ∉ operandFirst ∧ kind ≠ .unaryOperator := by
    decide
  obtain ⟨hoperand, hunary⟩ := hdisjoint _ hfollow
  have hexpect := expect_eq_skip hfollow hoperand
  have htokens : expressionTokensWithin cursor.pending.length cursor =
      .error .skip (cursor.complain operandFirst) := by
    cases hpending : cursor.pending with
    | nil => exact bind_eq_of_error hexpect _
    | cons token rest =>
      have hcurrent : cursor.current = token := by rw [Cursor.current, hpending, List.headD_cons]
      have hnone : unaryOperators cursor = .ok [] cursor := by
        refine unaryOperators_of_took (by simp) (.refl cursor) (.take hpending) ?_
        rw [← hcurrent]
        exact hunary
      exact (bind_eq_of_ok hnone _).trans (bind_eq_of_error hexpect _)
  exact bind_eq_of_error ((bind_eq_of_ok rfl _).trans htokens) _

/-! ## Places in a head -/

namespace Cursor

/-- The cursor has got to the given tokens, with the given complaints on the way. -/
structure Reaches (before : Cursor) (rest : List Token) (complaints : List Diagnostic)
    (after : Cursor) : Prop where
  pending_eq : after.pending = rest
  source_eq : after.source = before.source
  endToken_eq : after.endToken = before.endToken
  diagnostics_eq : after.diagnostics = before.diagnostics ++ complaints

/-- The tokens that come next can be taken. -/
theorem Reaches.exists_took {before middle : Cursor} {tokens rest : List Token}
    {complaints : List Diagnostic} (hreaches : before.Reaches (tokens ++ rest) complaints middle) :
    ∃ after, middle.Took tokens after ∧ before.Reaches rest complaints after :=
  ⟨middle.past tokens rest, ⟨hreaches.pending_eq, rfl⟩, rfl, hreaches.source_eq,
    hreaches.endToken_eq, hreaches.diagnostics_eq⟩

/-- The cursor stands in a head that lacks a piece, in front of what there is of the
given pieces.  The complaint has been made if the lacking piece is none of them. -/
def InHead (start : Cursor) (loop : LoopTokens) (lacking : HeadPiece) (rest : List Token)
    (pieces : List HeadPiece) (cursor : Cursor) : Prop :=
  start.Reaches (loop.fromPieces (pieces.erase lacking) ++ rest)
    (if lacking ∈ pieces then [] else [loop.missing lacking]) cursor

end Cursor

/-- The reader reads a piece as a part of the head: the part is there unless it is the
lacking one, and the cursor gets to the pieces after it. -/
def ReadsPiece {α : Type} (start : Cursor) (loop : LoopTokens) (lacking : HeadPiece)
    (rest : List Token) (piece : HeadPiece) (reader : Parse α) (before : Cursor) : Prop :=
  ∃ part after, skippable reader before = .ok part after ∧
    part.isSome = decide (piece ≠ lacking) ∧ start.InHead loop lacking rest piece.later after

section Head

variable {source : String} {loop : LoopTokens} {first last : Expr} {body : Program}
  {start before cursor : Cursor} {piece lacking : HeadPiece} {pieces : List HeadPiece}
  {rest : List Token}

namespace Cursor.InHead

/-- A piece that is there can be taken. -/
theorem exists_took (hin : start.InHead loop lacking rest (piece :: pieces) before)
    (hpiece : piece ≠ lacking) :
    ∃ after, before.Took (loop.piece piece) after ∧
      start.InHead loop lacking rest pieces after := by
  rw [InHead, List.erase_cons_tail (by simpa using hpiece), LoopTokens.fromPieces_cons,
    List.append_assoc] at hin
  simp only [List.mem_cons, hpiece.symm, false_or] at hin
  exact hin.exists_took

/-- Where only the lacking piece has been passed, the token after it comes next. -/
theorem current_eq_next (hin : start.InHead loop lacking rest pieces cursor)
    (hpieces : pieces.erase lacking = lacking.later) : cursor.current = loop.next lacking := by
  obtain ⟨token, others, htokens⟩ :=
    List.exists_cons_of_ne_nil (loop.fromPieces_ne_nil lacking.later)
  rw [current, hin.pending_eq, hpieces, LoopTokens.next, htokens]
  rfl

/-- The complaint about the lacking piece is made in its place. -/
theorem complain (hin : start.InHead loop lacking rest (lacking :: lacking.later) before) :
    start.InHead loop lacking rest lacking.later (before.complain lacking.expected) := by
  have hcurrent := hin.current_eq_next (List.erase_cons_head _ _)
  have hlater := lacking.not_mem_later
  refine ⟨?_, hin.source_eq, hin.endToken_eq, ?_⟩
  · have hpending := hin.pending_eq
    rw [List.erase_cons_head] at hpending
    rw [List.erase_of_not_mem hlater]
    exact hpending
  · have hquiet := hin.diagnostics_eq
    rw [if_pos List.mem_cons_self, List.append_nil] at hquiet
    rw [if_neg hlater, Cursor.complain, hcurrent, hquiet]
    rfl

/-- In front of a word of the head comes this word, or what can come after it. -/
theorem current_kind_mem (hloop : loop.IsLoop source first last body)
    (hin : start.InHead loop lacking rest (piece :: piece.later) cursor)
    (hword : piece.isBound = false) : cursor.current.kind ∈ piece.expected ++ piece.follow := by
  by_cases hpiece : piece = lacking
  · subst hpiece
    rw [hin.current_eq_next (List.erase_cons_head _ _)]
    exact List.mem_append_right _ (hloop.next_kind_mem piece)
  · obtain ⟨token, htoken, hkind⟩ := hloop.exists_word hword
    obtain ⟨after, htook, -⟩ := hin.exists_took hpiece
    rw [htoken] at htook
    rw [htook.current_eq_of_cons]
    exact List.mem_append_left _ hkind

/-- After a piece in front of the body, the loop is not given up. -/
theorem resume_eq (hloop : loop.IsLoop source first last body)
    (hin : start.InHead loop lacking rest piece.later cursor) (hpiece : piece ≠ .doWord)
    {α : Type} {part : Option α} (hpart : part.isSome = decide (piece ≠ lacking)) :
    resume part cursor = .ok part cursor := by
  cases part with
  | some a => rfl
  | none =>
    have hlacking : piece = lacking := by simpa using hpart
    subst hlacking
    have hkind := hloop.next_kind_mem piece
    rw [← hin.current_eq_next (List.erase_of_not_mem piece.not_mem_later)] at hkind
    have hdisjoint : ∀ kind ∈ piece.follow, kind ∉ statementFollow := by
      cases piece with
      | doWord => exact absurd rfl hpiece
      | counter | inWord | first | range | last => decide
    have hsees : cursor.sees statementFollow = false := sees_eq_false (hdisjoint _ hkind)
    rw [resume, hsees]
    rfl

end Cursor.InHead

namespace ReadsPiece

/-- A piece is read as a part if its reader takes it where it is there, and skips it
where what can come after it comes instead. -/
theorem of_reader (hloop : loop.IsLoop source first last body)
    (hin : start.InHead loop lacking rest (piece :: piece.later) before) {α : Type}
    {reader : Parse α}
    (htakes : ∀ after, before.Took (loop.piece piece) after →
      start.InHead loop lacking rest piece.later after → ∃ a, reader before = .ok a after)
    (hskips : before.current.kind ∈ piece.follow →
      reader before = .error .skip (before.complain piece.expected)) :
    ReadsPiece start loop lacking rest piece reader before := by
  by_cases hpiece : piece = lacking
  · subst hpiece
    have hkind := hloop.next_kind_mem piece
    rw [← hin.current_eq_next (List.erase_cons_head _ _)] at hkind
    refine ⟨none, before.complain piece.expected, ?_, by simp, hin.complain⟩
    rw [skippable, hskips hkind]
  · obtain ⟨after, htook, hafter⟩ := hin.exists_took hpiece
    obtain ⟨a, hread⟩ := htakes after htook hafter
    exact ⟨some a, after, skippable_ok hread, by simp [hpiece], hafter⟩

/-- The words of a head are read. -/
theorem expect (hloop : loop.IsLoop source first last body)
    (hin : start.InHead loop lacking rest (piece :: piece.later) before)
    (hword : piece.isBound = false) :
    ReadsPiece start loop lacking rest piece (Grammar.expect piece.expected piece.follow)
      before := by
  obtain ⟨token, htoken, hkind⟩ := hloop.exists_word hword
  refine of_reader hloop hin (fun after htook _ => ?_) fun hfollow => ?_
  · rw [htoken] at htook
    exact ⟨token, expect_of_took piece.follow htook hkind⟩
  · exact expect_eq_skip hfollow (HeadPiece.not_mem_expected_of_mem_follow hfollow)

/-- The bounds of a head are read, since no operator comes after them. -/
theorem expression (hloop : loop.IsLoop source first last body)
    (hin : start.InHead loop lacking rest (piece :: piece.later) before)
    (hbound : piece.isBound = true) {word : HeadPiece} (hlater : piece.later = word :: word.later)
    (hword : word.isBound = false) {expr : Expr}
    (hexpr : Expr.IsExpression (loop.piece piece) expr) :
    ReadsPiece start loop lacking rest piece Grammar.expression before := by
  refine of_reader hloop hin (fun after htook hafter => ?_) fun hfollow => ?_
  · rw [hlater] at hafter
    have hmem := hafter.current_kind_mem hloop hword
    have hnone : TokenKind.binaryOperator ∉ word.expected ++ word.follow := by
      cases word <;> decide
    have hnext : after.current.kind ≠ .binaryOperator := by
      intro hkind
      rw [hkind] at hmem
      exact hnone hmem
    exact ⟨expr, expression_of_isExpression hexpr htook hnext⟩
  · have hsub : piece.expected = operandFirst ∧ ∀ kind ∈ piece.follow, kind ∈ expressionFollow := by
      cases piece with
      | first | last => decide
      | counter | inWord | range | doWord => cases hbound
    rw [hsub.1]
    exact expression_eq_skip (hsub.2 _ hfollow)

end ReadsPiece

/-- In front of a loop that lacks a piece of its head, the loop is skipped to its end,
with the one complaint. -/
theorem loop_of_missing_piece (hloop : loop.IsLoop start.source first last body)
    (hpending : start.pending = loop.without lacking ++ rest) :
    ∃ after, start.Reaches rest [loop.missing lacking] after ∧
      ∀ bound, loop.body.length ≤ bound →
        Grammar.loop (statementsWithin bound) start = .error .skip after := by
  have hstart : start.Reaches ([loop.keyword] ++ (loop.fromPieces (HeadPiece.all.erase lacking) ++
      rest)) [] start := ⟨hpending, rfl, rfl, (List.append_nil _).symm⟩
  obtain ⟨c₁, hkeyword, hreaches⟩ := hstart.exists_took
  have hin₁ : start.InHead loop lacking rest HeadPiece.all c₁ := by
    have hmem : lacking ∈ HeadPiece.all := by cases lacking <;> decide
    rw [Cursor.InHead, if_pos hmem]
    exact hreaches
  obtain ⟨counter, c₂, hcounter, hsome₁, hin₂⟩ := ReadsPiece.expect hloop hin₁ rfl
  obtain ⟨inWord, c₃, hinWord, hsome₂, hin₃⟩ := ReadsPiece.expect hloop hin₂ rfl
  obtain ⟨lower, c₄, hlower, hsome₃, hin₄⟩ :=
    ReadsPiece.expression hloop hin₃ rfl rfl rfl hloop.first
  obtain ⟨range, c₅, hrange, hsome₄, hin₅⟩ := ReadsPiece.expect hloop hin₄ rfl
  obtain ⟨upper, c₆, hupper, hsome₅, hin₆⟩ :=
    ReadsPiece.expression hloop hin₅ rfl rfl rfl hloop.last
  obtain ⟨doWord, c₇, hdoWord, hsome₆, hin₇⟩ := ReadsPiece.expect hloop hin₆ rfl
  have hclosing : start.Reaches (loop.body ++ ([loop.endWord] ++ ([loop.forWord] ++ rest)))
      [loop.missing lacking] c₇ := by
    simpa [Cursor.InHead, LoopTokens.fromPieces, HeadPiece.later] using hin₇
  obtain ⟨c₈, hbody, hclosing⟩ := hclosing.exists_took
  obtain ⟨c₉, hend, hclosing⟩ := hclosing.exists_took
  obtain ⟨c₁₀, hfor, hclosing⟩ := hclosing.exists_took
  refine ⟨c₁₀, hclosing, fun bound hbound => ?_⟩
  have hends : c₈.EndsList := by
    rw [Cursor.EndsList, hend.current_eq_of_cons, hloop.endWord]
    decide
  have hprogram : IsProgram c₇.source loop.body body := by
    rw [hin₇.source_eq]
    exact hloop.body
  refine (bind_eq_of_ok (accept_of_took hkeyword (by simp [hloop.keyword])) _).trans ?_
  refine (bind_eq_of_ok (bind_ok hcounter (hin₂.resume_eq hloop (by decide) hsome₁)) _).trans ?_
  refine (bind_eq_of_ok (bind_ok hinWord (hin₃.resume_eq hloop (by decide) hsome₂)) _).trans ?_
  refine (bind_eq_of_ok hlower _).trans ?_
  refine (bind_eq_of_ok (hin₄.resume_eq hloop (by decide) hsome₃) _).trans ?_
  refine (bind_eq_of_ok (bind_ok hrange (hin₅.resume_eq hloop (by decide) hsome₄)) _).trans ?_
  refine (bind_eq_of_ok hupper _).trans ?_
  refine (bind_eq_of_ok (hin₆.resume_eq hloop (by decide) hsome₅) _).trans ?_
  refine (bind_eq_of_ok hdoWord _).trans ?_
  refine (bind_eq_of_ok (statementsWithin_of_isProgram hprogram hbody hends hbound) _).trans ?_
  refine (bind_eq_of_ok (skippable_ok (expect_of_took _ hend (by simp [hloop.endWord]))) _).trans ?_
  refine (bind_eq_of_ok (skippable_ok (expect_of_took _ hfor (by simp [hloop.forWord]))) _).trans ?_
  refine congrFun (g := (throw Stop.skip : Parse Stmt)) ?_ c₁₀
  split
  · cases lacking with
    | counter => cases hsome₁
    | inWord => cases hsome₂
    | first => cases hsome₃
    | range => cases hsome₄
    | last => cases hsome₅
    | doWord => cases hsome₆
  · rfl

/-- A list of statements leaves out a loop that lacks a piece of its head, and goes on
behind the semicolon. -/
theorem leads_of_missing_piece {separator : Token}
    (hloop : loop.IsLoop start.source first last body) (hseparator : separator.kind = .semicolon)
    (hpending : start.pending = loop.without lacking ++ ([separator] ++ rest)) :
    ∃ after, start.Reaches rest [loop.missing lacking] after ∧ Leads start [] after := by
  obtain ⟨middle, hreaches, hread⟩ := loop_of_missing_piece hloop hpending
  obtain ⟨after, htook, hafter⟩ := hreaches.exists_took
  refine ⟨after, hafter, ?_⟩
  have hkind : start.current.kind = .forKeyword := by
    rw [Cursor.current, hpending]
    exact hloop.keyword
  have hfirst : start.sees statementFirst = true := by
    rw [Cursor.sees, Token.isOneOf, hkind]
    decide
  have hlength : loop.body.length + middle.pending.length < start.pending.length := by
    rw [hpending, hreaches.pending_eq]
    simp only [LoopTokens.without, LoopTokens.fromPieces, List.length_append, List.length_cons]
    omega
  have hattempt : ∀ bound, start.pending.length ≤ bound + 1 →
      attempt (statementWith (statementsWithin bound)) start = .ok .skipped middle := by
    intro bound hbound
    have hstatement : statementWith (statementsWithin bound) start =
        Grammar.loop (statementsWithin bound) start := by
      refine (bind_eq_of_ok rfl _).trans ?_
      rw [hkind]
    rw [attempt, hstatement, hread bound (by omega)]
  have hleads := Leads.step hfirst hattempt (by omega)
  have hsees : middle.sees [.semicolon] = true := by
    rw [Cursor.sees, htook.current_eq_of_cons]
    exact List.contains_iff_mem.2 (List.mem_singleton.2 hseparator)
  rw [Cursor.afterAttempt, if_pos hsees, htook.take_eq] at hleads
  exact hleads

end Head

/-! ## Programs -/

/-- Statements with their semicolons, and then a program, are a program. -/
theorem IsTerminated.isProgram_append {source : String} {front rest : List Token}
    {before after : Program} (hfront : IsTerminated source front before)
    (hrest : IsProgram source rest after) : IsProgram source (front ++ rest) (before ++ after) := by
  induction hfront with
  | nil => exact hrest
  | cons hstmt hseparator _ ih =>
    rw [List.append_assoc]
    exact .separated hstmt hseparator ih

/-- A program is read around a loop that lacks a piece of its head. -/
theorem program_of_missing_piece {start : Cursor} (hended : start.endToken.kind = .endOfFile)
    {front rest : List Token} {loop : LoopTokens} {separator : Token} {first last : Expr}
    {before body after : Program} {lacking : HeadPiece}
    (hpending : start.pending = front ++ (loop.without lacking ++ separator :: rest))
    (hfront : IsTerminated start.source front before)
    (hloop : loop.IsLoop start.source first last body) (hseparator : separator.kind = .semicolon)
    (hrest : IsProgram start.source rest after) :
    ∃ final, Grammar.program start = .ok (before ++ after) final ∧
      final.diagnostics = start.diagnostics ++ [loop.missing lacking] := by
  generalize hmiddle : start.past front (loop.without lacking ++ separator :: rest) = middle
  have htook : start.Took front middle := by
    rw [← hmiddle]
    exact ⟨hpending, rfl⟩
  have hpending : middle.pending = loop.without lacking ++ ([separator] ++ rest) := by
    rw [← hmiddle]
    rfl
  rw [← htook.source_eq] at hloop
  obtain ⟨behind, hreaches, hbehind⟩ := leads_of_missing_piece hloop hseparator hpending
  have hleads : Leads start (before ++ []) behind :=
    (leads_of_isTerminated hfront rfl htook).trans hbehind
  rw [List.append_nil] at hleads
  have hend : behind.endToken.kind = .endOfFile := by
    rw [hreaches.endToken_eq, htook.endToken_eq]
    exact hended
  have hprogram : IsProgram behind.source behind.pending after := by
    rw [hreaches.pending_eq, hreaches.source_eq, htook.source_eq]
    exact hrest
  refine ⟨behind.past behind.pending [], ?_, ?_⟩
  · exact bind_ok rfl (programWithin_of_leads hleads hend hprogram (Nat.le_refl _))
  · have hquiet : middle.diagnostics = start.diagnostics := by
      rw [← hmiddle]
      rfl
    rw [← hquiet]
    exact hreaches.diagnostics_eq

/-- A loop between other statements is read with them.  Whichever piece its head lacks,
there is then one mistake, the missing piece, and all statements but the loop are read,
with none of its body among them. -/
theorem ofStream_of_missing_head_piece {stream : TokenStream} {front rest : List Token}
    {loop : LoopTokens} {separator : Token} {first last : Expr} {before body after : Program}
    (hended : stream.endToken.kind = .endOfFile) (hfront : IsTerminated stream.source front before)
    (hloop : loop.IsLoop stream.source first last body)
    (hseparator : separator.kind = .semicolon) (hrest : IsProgram stream.source rest after)
    (piece : HeadPiece) :
    Program.ofStream { stream with pending := front ++ (loop.tokens ++ separator :: rest) } =
        .ok (before ++ .loop loop.counter first last body :: after, []) ∧
      Program.ofStream
          { stream with pending := front ++ (loop.without piece ++ separator :: rest) } =
        .ok (before ++ after, [loop.missing piece]) := by
  constructor
  · have hstmt := LoopTokens.isStatement_loop_iff.2 ⟨loop, rfl, rfl, hloop⟩
    have hprogram := hfront.isProgram_append (.separated hstmt hseparator hrest)
    generalize front ++ (loop.tokens ++ separator :: rest) = tokens at hprogram ⊢
    have hrun : Grammar.program (.ofStream { stream with pending := tokens }) = .ok _ _ :=
      program_of_omits hended hprogram (.refl _)
    rw [Program.ofStream, hrun]
    rfl
  · generalize hdamaged : front ++ (loop.without piece ++ separator :: rest) = tokens
    obtain ⟨final, hrun, hmistakes⟩ : ∃ final,
        Grammar.program (.ofStream { stream with pending := tokens }) =
          .ok (before ++ after) final ∧ final.diagnostics = [] ++ [loop.missing piece] :=
      program_of_missing_piece hended hdamaged.symm hfront hloop hseparator hrest
    rw [Program.ofStream, hrun]
    simp only [hmistakes, List.nil_append]

/-- A source with a loop between two statements. -/
def counted : String := "read n; for i in 1..n do print i; end for; print n"

/-- The tokens of the loop. -/
def countedLoop : LoopTokens where
  keyword := ⟨.forKeyword, "for", 1, 9, 8, 11⟩
  counter := ⟨.identifier, "i", 1, 13, 12, 13⟩
  inWord := ⟨.inKeyword, "in", 1, 15, 14, 16⟩
  first := [⟨.integerLiteral, "1", 1, 18, 17, 18⟩]
  range := ⟨.range, "..", 1, 19, 18, 20⟩
  last := [⟨.identifier, "n", 1, 21, 20, 21⟩]
  doWord := ⟨.doKeyword, "do", 1, 23, 22, 24⟩
  body := [⟨.printKeyword, "print", 1, 26, 25, 30⟩, ⟨.identifier, "i", 1, 32, 31, 32⟩,
    ⟨.semicolon, ";", 1, 33, 32, 33⟩]
  endWord := ⟨.endKeyword, "end", 1, 35, 34, 37⟩
  forWord := ⟨.forKeyword, "for", 1, 39, 38, 41⟩

/-- With the `do` of its loop, the source is read as it stands.  Without it, the mistake
is at the first token of the body, and the two statements around the loop are read. -/
theorem ofStream_counted :
    Program.ofStream (.ofSource counted) =
        .ok ([.read ⟨.identifier, "n", 1, 6, 5, 6⟩,
          .loop ⟨.identifier, "i", 1, 13, 12, 13⟩ (.leaf ⟨.integerLiteral, "1", 1, 18, 17, 18⟩)
            (.leaf ⟨.identifier, "n", 1, 21, 20, 21⟩)
            [.print (.leaf ⟨.identifier, "i", 1, 32, 31, 32⟩)],
          .print (.leaf ⟨.identifier, "n", 1, 50, 49, 50⟩)], []) ∧
      Program.ofStream { TokenStream.ofSource counted with
          pending := (TokenStream.ofSource counted).pending.eraseIdx 9 } =
        .ok ([.read ⟨.identifier, "n", 1, 6, 5, 6⟩,
          .print (.leaf ⟨.identifier, "n", 1, 50, 49, 50⟩)],
          [.about ⟨.printKeyword, "print", 1, 26, 25, 30⟩
            (.unexpectedToken [.doKeyword] .printKeyword)]) := by
  have hleaf : ∀ {token : Token}, token.isOperand = true →
      Expr.IsExpression [token] (.leaf token) :=
    fun hoperand => ⟨_, [], .single (.operand hoperand), .operand _⟩
  have hpending : (TokenStream.ofSource counted).pending =
      [⟨.readKeyword, "read", 1, 1, 0, 4⟩, ⟨.identifier, "n", 1, 6, 5, 6⟩,
        ⟨.semicolon, ";", 1, 7, 6, 7⟩] ++ (countedLoop.tokens ++ ⟨.semicolon, ";", 1, 42, 41, 42⟩ ::
      [⟨.printKeyword, "print", 1, 44, 43, 48⟩, ⟨.identifier, "n", 1, 50, 49, 50⟩]) := by
    decide +kernel
  have hloop : countedLoop.IsLoop counted (.leaf ⟨.integerLiteral, "1", 1, 18, 17, 18⟩)
      (.leaf ⟨.identifier, "n", 1, 21, 20, 21⟩)
      [.print (.leaf ⟨.identifier, "i", 1, 32, 31, 32⟩)] :=
    ⟨rfl, rfl, rfl, hleaf rfl, rfl, hleaf rfl, rfl, .separated (.print rfl (hleaf rfl)) rfl .empty,
      rfl, rfl⟩
  have hended : (TokenStream.ofSource counted).endToken.kind = .endOfFile := rfl
  have hfront : IsTerminated counted [⟨.readKeyword, "read", 1, 1, 0, 4⟩,
      ⟨.identifier, "n", 1, 6, 5, 6⟩, ⟨.semicolon, ";", 1, 7, 6, 7⟩]
      [.read ⟨.identifier, "n", 1, 6, 5, 6⟩] := .cons (.read rfl rfl) rfl .nil
  have hrest : IsProgram counted [⟨.printKeyword, "print", 1, 44, 43, 48⟩,
      ⟨.identifier, "n", 1, 50, 49, 50⟩] [.print (.leaf ⟨.identifier, "n", 1, 50, 49, 50⟩)] :=
    .last (.print rfl (hleaf rfl))
  have hseparator : Token.kind ⟨.semicolon, ";", 1, 42, 41, 42⟩ = .semicolon := rfl
  obtain ⟨hwhole, hdamaged⟩ :=
    ofStream_of_missing_head_piece hended hfront hloop hseparator hrest .doWord
  rw [← hpending] at hwhole
  refine ⟨hwhole, ?_⟩
  rw [hpending]
  exact hdamaged

end Grammar

end LoopLang
