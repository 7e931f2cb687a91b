import LoopLang.Proofs.Diagnostic.Anchors

/-!
# The order of diagnostics

The diagnostics of each stage come in the order of the source.  Reading meets its
mistakes from left to right; a complaint about statements is about the next token,
which never comes before one that was complained about already.  The check reports
a mistake of an operator only if its operands have none, so that the anchors of its
mistakes are some of the tokens of the program, each at most once.

Main definitions:

- `AnchoredOn`: diagnostics and the tokens that they are about, one by one.
- `Cursor.Orderly`: complaints in the order of the tokens.
- `InOrderOf`: mistakes about some of the tokens, in their order.

Main results:

- Theorem `Cursor.Orderly.advances`: reading keeps the complaints in order.
- Theorem `Program.check_inOrderOf`: the mistakes of a program are in the order of
  its tokens.
- Theorem `diagnostics_in_source_order`: the order of the diagnostics of a source.
-/

namespace LoopLang

/-- The diagnostics are about the tokens, the first one about the first token and so
on. -/
def AnchoredOn (diagnostics : List Diagnostic) (anchors : List Token) : Prop :=
  diagnostics.map Diagnostic.anchor = anchors.map some

/-- Rows of mistakes are joined as the rows of their anchors are. -/
theorem AnchoredOn.append {first second : List Diagnostic} {anchors others : List Token}
    (hfirst : AnchoredOn first anchors) (hsecond : AnchoredOn second others) :
    AnchoredOn (first ++ second) (anchors ++ others) := by
  unfold AnchoredOn at *
  rw [List.map_append, List.map_append, hfirst, hsecond]

/-- A token that a diagnostic is about is one of the anchors, and no other. -/
theorem AnchoredOn.forall_mem {diagnostics : List Diagnostic} {anchors tokens : List Token}
    (hanchors : AnchoredOn diagnostics anchors)
    (hanchored : ∀ diagnostic ∈ diagnostics, diagnostic.AnchoredIn tokens) :
    ∀ anchor ∈ anchors, anchor ∈ tokens := by
  intro anchor hanchor
  have hsome : some anchor ∈ diagnostics.map Diagnostic.anchor := by
    rw [hanchors]
    exact List.mem_map_of_mem hanchor
  rcases List.mem_map.1 hsome with ⟨diagnostic, hdiagnostic, hsame⟩
  rcases hanchored diagnostic hdiagnostic with ⟨token, htoken, hother⟩
  rw [hsame] at hother
  cases hother
  exact htoken

/-! ## Places of the pieces and of the end -/

/-- Reading a text ends after its last character. -/
theorem Scan.finish_ofTextAt (start : Position) (text : List Char) :
    (ofTextAt start text).finish = start.after text := by
  fun_induction ofTextAt start text with
  | case1 start text pos hrest =>
    have hwhole := List.takeWhile_append_dropWhile (p := Lexeme.isBlank) (l := text)
    rw [hrest, List.append_nil] at hwhole
    exact congrArg start.after hwhole
  | case2 start text pos c rest hrest lexeme stop more ih =>
    have hwhole := List.takeWhile_append_dropWhile (p := Lexeme.isBlank) (l := text)
    rw [hrest, ← Lexeme.characters_append_rest] at hwhole
    calc more.finish = (pos.after lexeme.characters).after lexeme.rest := ih
      _ = start.after (text.takeWhile Lexeme.isBlank ++ (lexeme.characters ++ lexeme.rest)) := by
          rw [Position.after_append, Position.after_append]
      _ = start.after text := congrArg start.after hwhole

/-- No item ends after the text. -/
theorem Scan.Tiled.stop_le {start : Position} {text : List Char} {items : List Item}
    (htiled : Tiled start text items) :
    ∀ item ∈ items, item.place.stop ≤ (start.after text).offset := by
  intro item hitem
  rcases htiled.located item hitem with ⟨front, c, rest, rfl, -, rfl⟩
  rw [Item.stop_place_ofMeaning, ← Lexeme.characters_append_rest, Position.after_append,
    Position.after_append, Position.offset_after _ (Lexeme.read c rest).rest]
  exact Nat.le_add_right _ _

/-- The pieces that account for a source begin one after the other. -/
theorem Source.Accounts.pairwise_start {source : String} {pieces : List Token}
    (haccounts : Source.Accounts source pieces) :
    pieces.Pairwise fun piece later => piece.start < later.start := by
  refine haccounts.ordered.imp_of_mem ?_
  intro piece later hpiece _ hordered
  exact Nat.lt_of_lt_of_le (haccounts.nonempty piece hpiece) hordered

namespace TokenStream

/-- Each token of a source begins in front of the next one. -/
theorem pairwise_start_pending (source : String) :
    (ofSource source).pending.Pairwise fun token later => token.start < later.start := by
  rw [← (filter_pieces source).1]
  exact (accounts_pieces source).pairwise_start.filter _

/-- The tokens of a source and its end come in the order of the source. -/
theorem pairwise_start_ended (source : String) :
    ((ofSource source).pending ++ [(ofSource source).endToken]).Pairwise
      fun token later => token.start ≤ later.start := by
  refine List.pairwise_append.2 ⟨?_, List.pairwise_singleton _ _, ?_⟩
  · exact (pairwise_start_pending source).imp Nat.le_of_lt
  · intro token htoken later hlater
    have hpiece : token ∈ pieces source := by
      rw [← (filter_pieces source).1] at htoken
      exact (List.mem_filter.1 htoken).1
    rcases List.mem_map.1 hpiece with ⟨item, hitem, rfl⟩
    have hstop := (tiled_ofSource source).stop_le item hitem
    have hstart := (accounts_pieces source).nonempty item.place hpiece
    rw [List.mem_singleton.1 hlater]
    have hend : (ofSource source).endToken.start = (Position.start.after source.toList).offset :=
      congrArg Position.offset (Scan.finish_ofTextAt .start source.toList)
    omega

end TokenStream

/-! ## Complaints about statements -/

namespace Grammar

/-- The tokens that are left come in the order of the source.  So do the anchors of
the complaints, and none of them comes after the next token. -/
structure Cursor.Orderly (cursor : Cursor) : Prop where
  tokens : (cursor.pending ++ [cursor.endToken]).Pairwise
    fun token later => token.start ≤ later.start
  complaints : ∃ anchors, AnchoredOn cursor.diagnostics anchors ∧
    (anchors ++ [cursor.current]).Pairwise fun anchor later => anchor.start ≤ later.start

namespace Cursor.Orderly

variable {before after : Cursor}

/-- Going over tokens moves the next token on. -/
theorem passed (horderly : before.Orderly) {tokens : List Token}
    (hpassed : before.Passed tokens after) (hquiet : after.diagnostics = before.diagnostics) :
    after.Orderly := by
  have htokens := horderly.tokens
  rw [hpassed.pending_eq, ← hpassed.endToken_eq, List.append_assoc] at htokens
  have hcurrent : before.current.start ≤ after.current.start := by
    rcases List.mem_append.1 hpassed.current_mem with hearlier | hsame
    · have hmem : after.current ∈ after.pending ++ [after.endToken] := by
        unfold Cursor.current
        cases after.pending <;> simp
      exact (List.pairwise_append.1 htokens).2.2 _ hearlier _ hmem
    · exact Nat.le_of_eq (congrArg Token.start (List.mem_singleton.1 hsame))
  refine ⟨(List.pairwise_append.1 htokens).2.1, ?_⟩
  rcases horderly.complaints with ⟨anchors, hanchors, hordered⟩
  rcases List.pairwise_append.1 hordered with ⟨hanchorsOrdered, -, hlast⟩
  refine ⟨anchors, by rwa [hquiet], List.pairwise_append.2 ⟨hanchorsOrdered, by simp, ?_⟩⟩
  intro anchor hanchor later hlater
  rw [List.mem_singleton.1 hlater]
  exact Nat.le_trans (hlast anchor hanchor _ List.mem_cons_self) hcurrent

/-- A complaint about the next token is the last one. -/
theorem complain (horderly : before.Orderly) (expected : List TokenKind) :
    (before.complain expected).Orderly := by
  rcases horderly.complaints with ⟨anchors, hanchors, hordered⟩
  refine ⟨horderly.tokens, anchors ++ [before.current], hanchors.append rfl, ?_⟩
  have hcurrent : (before.complain expected).current = before.current := rfl
  rw [hcurrent]
  refine List.pairwise_append.2 ⟨hordered, by simp, ?_⟩
  intro anchor hanchor later hlater
  rw [List.mem_singleton.1 hlater]
  rcases List.mem_append.1 hanchor with hearlier | hsame
  · exact (List.pairwise_append.1 hordered).2.2 anchor hearlier _ List.mem_cons_self
  · exact Nat.le_of_eq (congrArg Token.start (List.mem_singleton.1 hsame))

/-- Reading keeps the complaints in order. -/
theorem advances (hmove : before.Advances after) (horderly : before.Orderly) :
    after.Orderly := by
  induction hmove with
  | refl cursor => exact horderly
  | take cursor =>
    rcases (Advances.take cursor).exists_passed with ⟨tokens, hpassed⟩
    exact horderly.passed hpassed rfl
  | takeWhile cursor p =>
    rcases (Advances.takeWhile cursor p).exists_passed with ⟨tokens, hpassed⟩
    exact horderly.passed hpassed rfl
  | discard cursor n => exact horderly.passed (.discard cursor n) rfl
  | complain cursor expected => exact horderly.complain expected
  | trans _ _ ihfirst ihsecond => exact ihsecond (ihfirst horderly)

end Cursor.Orderly

/-- Before the first token nothing has been recorded. -/
theorem Cursor.orderly_ofStream (source : String) :
    (Cursor.ofStream (.ofSource source)).Orderly :=
  ⟨TokenStream.pairwise_start_ended source, [], rfl, by simp⟩

end Grammar

/-! ## Mistakes that the check reports -/

/-- The mistakes are about some of the tokens, in their order and none of them
twice. -/
def InOrderOf (tokens : List Token) (mistakes : List Diagnostic) : Prop :=
  ∃ anchors, AnchoredOn mistakes anchors ∧ anchors.Sublist tokens

namespace InOrderOf

variable {tokens others : List Token} {mistakes more : List Diagnostic}

theorem nil (tokens : List Token) : InOrderOf tokens [] :=
  ⟨[], rfl, List.nil_sublist tokens⟩

theorem single {token : Token} (htoken : token ∈ tokens) (cause : Cause) :
    InOrderOf tokens [.about token cause] :=
  ⟨[token], rfl, List.singleton_sublist.2 htoken⟩

/-- Mistakes in two rows of tokens, one behind the other. -/
theorem append (hmistakes : InOrderOf tokens mistakes) (hmore : InOrderOf others more) :
    InOrderOf (tokens ++ others) (mistakes ++ more) := by
  rcases hmistakes with ⟨anchors, hanchors, hsub⟩
  rcases hmore with ⟨further, hfurther, hsubMore⟩
  exact ⟨anchors ++ further, hanchors.append hfurther, hsub.append hsubMore⟩

theorem mono (hmistakes : InOrderOf tokens mistakes) (hsub : tokens.Sublist others) :
    InOrderOf others mistakes := by
  rcases hmistakes with ⟨anchors, hanchors, hanchorsSub⟩
  exact ⟨anchors, hanchors, hanchorsSub.trans hsub⟩

end InOrderOf

namespace Expr

/-- An expression that has a type has no mistakes. -/
theorem infer_snd_of_fst {scope : TypeScope} {expr : Expr} {ty : Ty}
    (hty : (expr.infer scope).1 = some ty) : (expr.infer scope).2 = [] := by
  induction expr generalizing ty with
  | leaf token =>
    unfold infer at hty ⊢
    split
    · next hkind =>
      cases hfound : scope.ty? token.text with
      | none => simp [hkind, hfound] at hty
      | some found => rfl
    · rfl
  | unary op token operand ih =>
    unfold infer at hty ⊢
    rcases hoperand : operand.infer scope with ⟨found, mistakes⟩
    rw [hoperand] at hty ih
    cases found with
    | none => cases hty
    | some operandTy =>
      have hquiet : mistakes = [] := ih rfl
      unfold Ty.applied at hty ⊢
      cases hresult : operandTy.result? op with
      | none => simp [hresult] at hty
      | some result => simpa [hresult] using hquiet
  | binary op token left right ihleft ihright =>
    unfold infer at hty ⊢
    rcases hleft : left.infer scope with ⟨leftFound, before⟩
    rcases hright : right.infer scope with ⟨rightFound, after⟩
    rw [hleft, hright] at hty
    rw [hleft] at ihleft
    rw [hright] at ihright
    cases leftFound with
    | none => cases hty
    | some leftTy =>
      cases rightFound with
      | none => cases hty
      | some rightTy =>
        have hquietLeft : before = [] := ihleft rfl
        have hquietRight : after = [] := ihright rfl
        by_cases hsame : leftTy = rightTy
        · subst hsame
          unfold Ty.applied at hty ⊢
          cases hresult : leftTy.result? op with
          | none => simp [hresult] at hty
          | some result => simp [hresult, hquietLeft, hquietRight]
        · simp [hsame] at hty

/-- An operator is blamed once at the most. -/
theorem inOrderOf_applied {tokens : List Token} {token : Token} (htoken : token ∈ tokens)
    (op : Operator) (ty : Ty) : InOrderOf tokens (ty.applied op token).2 := by
  unfold Ty.applied
  split
  · exact .nil tokens
  · exact .single htoken _

/-- The mistakes in an expression are in the order of its tokens. -/
theorem inOrderOf_infer (scope : TypeScope) (expr : Expr) :
    InOrderOf expr.tokens (expr.infer scope).2 := by
  induction expr with
  | leaf token =>
    have htoken : token ∈ (Expr.leaf token).tokens := by simp [tokens]
    unfold infer
    split
    · split
      · exact .nil _
      · exact .single htoken _
    · exact .nil _
  | unary op token operand ih =>
    have htoken : token ∈ (Expr.unary op token operand).tokens := by simp [tokens]
    have hquiet := @infer_snd_of_fst scope operand
    unfold infer
    rcases hoperand : operand.infer scope with ⟨found, mistakes⟩
    rw [hoperand] at hquiet ih
    cases found with
    | none => exact ih.mono (List.sublist_cons_self _ _)
    | some ty =>
      rw [show mistakes = [] from hquiet rfl]
      exact inOrderOf_applied htoken op ty
  | binary op token left right ihleft ihright =>
    have htoken : token ∈ (Expr.binary op token left right).tokens := by simp [tokens]
    have hquietLeft := @infer_snd_of_fst scope left
    have hquietRight := @infer_snd_of_fst scope right
    have hboth : InOrderOf (Expr.binary op token left right).tokens
        ((left.infer scope).2 ++ (right.infer scope).2) :=
      ihleft.append (ihright.mono (List.sublist_cons_self _ _))
    unfold infer
    rcases hleft : left.infer scope with ⟨leftFound, before⟩
    rcases hright : right.infer scope with ⟨rightFound, after⟩
    rw [hleft, hright] at hboth
    rw [hleft] at hquietLeft
    rw [hright] at hquietRight
    cases leftFound with
    | none => exact hboth
    | some leftTy =>
      cases rightFound with
      | none => exact hboth
      | some rightTy =>
        rw [show before = [] from hquietLeft rfl, show after = [] from hquietRight rfl]
        by_cases hsame : leftTy = rightTy
        · simp only [hsame, if_true, List.nil_append]
          exact inOrderOf_applied htoken op rightTy
        · simp only [hsame, if_false, List.nil_append]
          exact .single htoken _

/-- The mistakes in an expression of which a type is required are in the order of its
tokens: only an expression without mistakes is blamed for its own type. -/
theorem inOrderOf_require (scope : TypeScope) (expected : Ty) (expr : Expr) :
    InOrderOf expr.tokens (expr.require scope expected) := by
  have hinfer := inOrderOf_infer scope expr
  have hquiet := @infer_snd_of_fst scope expr
  unfold require
  rcases hfound : expr.infer scope with ⟨found, mistakes⟩
  rw [hfound] at hinfer hquiet
  cases found with
  | none => exact hinfer
  | some received =>
    rw [show mistakes = [] from hquiet rfl]
    by_cases hsame : received = expected
    · simp only [hsame, if_true]
      exact .nil _
    · simp only [hsame, if_false]
      exact .single expr.head_mem_tokens _

end Expr

/-- A name that cannot be assigned is blamed once. -/
theorem Scope.inOrderOf_assignable {scope : TypeScope} {name : Token} {mistake : Diagnostic}
    {tokens : List Token} (hrefused : scope.assignable name = .error mistake)
    (hname : name ∈ tokens) : InOrderOf tokens [mistake] := by
  unfold Scope.assignable at hrefused
  split at hrefused
  · cases hrefused
  · cases hrefused
    exact .single hname _
  · cases hrefused
    exact .single hname _

mutual

/-- The mistakes in a statement are in the order of its tokens. -/
theorem Stmt.check_inOrderOf : ∀ (stmt : Stmt) (scope : TypeScope),
    InOrderOf stmt.tokens (stmt.check scope).2
  | .declare name typeToken ty initial, scope => by
    unfold Stmt.check
    cases scope.declare name.text ty () with
    | error refusal =>
      refine .single ?_ _
      cases initial <;> simp [Stmt.tokens]
    | ok after =>
      cases initial with
      | none => exact .nil _
      | some value =>
        refine (value.inOrderOf_require after ty).mono ?_
        exact ((List.Sublist.refl _).cons _).cons _
  | .assign name value, scope => by
    unfold Stmt.check
    cases hassignable : scope.assignable name with
    | error mistake => exact Scope.inOrderOf_assignable hassignable (by simp [Stmt.tokens])
    | ok ty => exact (value.inOrderOf_require scope ty).mono (List.sublist_cons_self _ _)
  | .loop counter first last body, scope => by
    have hcounter : counter ∈ (Stmt.loop counter first last body).tokens := by
      simp [Stmt.tokens]
    unfold Stmt.check
    cases hassignable : scope.assignable counter with
    | error mistake => exact Scope.inOrderOf_assignable hassignable hcounter
    | ok ty =>
      by_cases hint : ty = .int
      · simp only [hint, if_true]
        let locked := scope.lock counter.text
        have hfirst := first.inOrderOf_require locked .int
        have hlast := last.inOrderOf_require locked .int
        have hbody := Program.check_inOrderOf body locked
        have hall := (hfirst.append hlast).append hbody
        rw [List.append_assoc] at hall
        exact hall.mono (List.sublist_cons_self _ _)
      · simp only [hint, if_false]
        exact .single hcounter _
  | .print value, scope => by
    unfold Stmt.check Stmt.tokens
    exact value.inOrderOf_infer scope
  | .read name, scope => by
    unfold Stmt.check
    cases hassignable : scope.assignable name with
    | error mistake => exact Scope.inOrderOf_assignable hassignable (by simp [Stmt.tokens])
    | ok ty => exact .nil _
  | .assert keyword condition quotation, scope => by
    unfold Stmt.check
    exact (condition.inOrderOf_require scope .bool).mono (List.sublist_cons_self _ _)

/-- The mistakes in a program are in the order of its tokens. -/
theorem Program.check_inOrderOf : ∀ (program : List Stmt) (scope : TypeScope),
    InOrderOf (Program.tokens program) (Program.check program scope).2
  | [], scope => by
    unfold Program.check
    exact .nil _
  | stmt :: rest, scope => by
    unfold Program.check Program.tokens
    exact (Stmt.check_inOrderOf stmt scope).append
      (Program.check_inOrderOf rest (stmt.check scope).1)

end

/-! ## The diagnostics of a source -/

/-- The diagnostics of each stage come in the order of the source.  No two mistakes
in words begin at the same place.  Mistakes in statements are about tokens of the
source or about its end, and several of them may be about the same token.  No two
mistakes that the check finds are about the same token. -/
theorem diagnostics_in_source_order (source : String) :
    ∃ program syntactic, Program.ofStream (.ofSource source) = .ok (program, syntactic) ∧
      (∃ anchors, AnchoredOn (TokenStream.ofSource source).diagnostics anchors ∧
        anchors.Pairwise fun anchor later => anchor.start < later.start) ∧
      (∃ anchors, AnchoredOn syntactic anchors ∧
        (anchors.Pairwise fun anchor later => anchor.start ≤ later.start) ∧
        ∀ anchor ∈ anchors, anchor ∈ (TokenStream.ofSource source).pending ∨
          anchor = (TokenStream.ofSource source).endToken) ∧
      ∃ anchors, AnchoredOn (Program.mistakes program) anchors ∧
        (anchors.Pairwise fun anchor later => anchor.start < later.start) ∧ anchors.Nodup := by
  rcases Grammar.exists_ofStream_madeOf source with ⟨program, syntactic, hread, hmadeOf⟩
  refine ⟨program, syntactic, hread, ?_, ?_, ?_⟩
  · refine ⟨(TokenStream.pieces source).filter Token.isMissing,
      (TokenStream.filter_pieces source).2.symm, ?_⟩
    exact (TokenStream.accounts_pieces source).pairwise_start.filter _
  · have hanchored := Grammar.anchoredIn_of_ofStream hread
    rcases Grammar.exists_advances_of_ofStream hread with ⟨after, hmove, rfl⟩
    have horderly := Grammar.Cursor.Orderly.advances hmove
      (Grammar.Cursor.orderly_ofStream source)
    rcases horderly.complaints with ⟨anchors, hanchors, hordered⟩
    refine ⟨anchors, hanchors, (List.pairwise_append.1 hordered).1, ?_⟩
    intro anchor hanchor
    simpa using hanchors.forall_mem hanchored anchor hanchor
  · rcases Program.check_inOrderOf program .empty with ⟨anchors, hanchors, hsub⟩
    have hordered : anchors.Pairwise fun anchor later => anchor.start < later.start :=
      (TokenStream.pairwise_start_pending source).sublist (hsub.trans hmadeOf.sublist)
    refine ⟨anchors, hanchors, hordered, hordered.imp ?_⟩
    rintro anchor later hbefore rfl
    exact Nat.lt_irrefl _ hbefore

end LoopLang
