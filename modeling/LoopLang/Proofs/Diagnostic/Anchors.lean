import LoopLang.Proofs.Grammar.Confinement
import LoopLang.Proofs.Token.Spans
import LoopLang.Typing

/-!
# What diagnostics are about

Each stage anchors its diagnostics on tokens that it was given.  Reading the words
of a source does so on the places of the mistakes, reading its statements on
tokens of the source and on the token that marks its end, and the check of a
program on the tokens of the program.

Main definitions:

- `SemanticAbout`: diagnostics of the check, all about some of the given tokens.
- `reported`: the diagnostics of all stages for a source.

Main results:

- Theorem `Program.check_semanticAbout`: the check reports mistakes about tokens
  of the program.
- Theorem `anchoredIn_of_mem_reported`: what is reported for a source is about one
  of its pieces or about its end.
-/

namespace LoopLang

/-- A diagnostic about one of some tokens is about one of more tokens. -/
theorem Diagnostic.AnchoredIn.mono {tokens others : List Token} {diagnostic : Diagnostic}
    (hanchored : diagnostic.AnchoredIn tokens) (hsub : tokens ⊆ others) :
    diagnostic.AnchoredIn others := by
  rcases hanchored with ⟨token, htoken, hanchor⟩
  exact ⟨token, hsub htoken, hanchor⟩

/-! ## Mistakes that the check reports -/

/-- All of the mistakes are of the kind that the check of a program reports, and
about some of the tokens. -/
def SemanticAbout (tokens : List Token) (mistakes : List Diagnostic) : Prop :=
  ∀ mistake ∈ mistakes, mistake.stage = .semantic ∧ mistake.AnchoredIn tokens

namespace SemanticAbout

variable {tokens others : List Token} {mistakes more : List Diagnostic}

theorem nil (tokens : List Token) : SemanticAbout tokens [] := by
  simp [SemanticAbout]

theorem single {token : Token} {cause : Cause} (htoken : token ∈ tokens)
    (hstage : cause.stage = .semantic) : SemanticAbout tokens [.about token cause] := by
  intro mistake hmistake
  rw [List.mem_singleton.1 hmistake]
  exact ⟨hstage, token, htoken, rfl⟩

theorem append (hmistakes : SemanticAbout tokens mistakes) (hmore : SemanticAbout tokens more) :
    SemanticAbout tokens (mistakes ++ more) :=
  List.forall_mem_append.2 ⟨hmistakes, hmore⟩

theorem mono (hmistakes : SemanticAbout tokens mistakes) (hsub : tokens ⊆ others) :
    SemanticAbout others mistakes := by
  intro mistake hmistake
  rcases hmistakes mistake hmistake with ⟨hstage, hanchored⟩
  exact ⟨hstage, hanchored.mono hsub⟩

end SemanticAbout

namespace Expr

/-- An expression is reported on at one of its own tokens. -/
theorem head_mem_tokens (expr : Expr) : expr.head ∈ expr.tokens := by
  cases expr <;> simp [head, tokens]

/-- An operator that does not fit its operands is the token that is blamed. -/
theorem semanticAbout_applied {tokens : List Token} {token : Token} (htoken : token ∈ tokens)
    (op : Operator) (ty : Ty) : SemanticAbout tokens (ty.applied op token).2 := by
  unfold Ty.applied
  split
  · exact .nil tokens
  · exact .single htoken rfl

/-- The mistakes in an expression are about its tokens. -/
theorem semanticAbout_infer (scope : TypeScope) (expr : Expr) :
    SemanticAbout expr.tokens (expr.infer scope).2 := by
  induction expr with
  | leaf token =>
    have htoken : token ∈ (Expr.leaf token).tokens := by simp [tokens]
    unfold infer
    split
    · split
      · exact .nil _
      · exact .single htoken rfl
    · exact .nil _
  | unary op token operand ih =>
    have htoken : token ∈ (Expr.unary op token operand).tokens := by simp [tokens]
    have hoperand : SemanticAbout (Expr.unary op token operand).tokens (operand.infer scope).2 :=
      ih.mono (by simp [tokens])
    unfold infer
    rcases hinfer : operand.infer scope with ⟨found, mistakes⟩
    rw [hinfer] at hoperand
    cases found with
    | none => exact hoperand
    | some ty => exact hoperand.append (semanticAbout_applied htoken op ty)
  | binary op token left right ihleft ihright =>
    have htoken : token ∈ (Expr.binary op token left right).tokens := by simp [tokens]
    have hboth : SemanticAbout (Expr.binary op token left right).tokens
        ((left.infer scope).2 ++ (right.infer scope).2) := by
      refine (ihleft.mono ?_).append (ihright.mono ?_)
      · simp [tokens]
      · intro other hother
        simp [tokens, hother]
    unfold infer
    rcases hleft : left.infer scope with ⟨leftFound, before⟩
    rcases hright : right.infer scope with ⟨rightFound, after⟩
    rw [hleft, hright] at hboth
    cases leftFound with
    | none => exact hboth
    | some leftTy =>
      cases rightFound with
      | none => exact hboth
      | some rightTy =>
        by_cases hsame : leftTy = rightTy
        · simp only [hsame, if_true]
          exact hboth.append (semanticAbout_applied htoken op rightTy)
        · simp only [hsame, if_false]
          exact hboth.append (.single htoken rfl)

/-- So are the mistakes in an expression of which a type is required. -/
theorem semanticAbout_require (scope : TypeScope) (expected : Ty) (expr : Expr) :
    SemanticAbout expr.tokens (expr.require scope expected) := by
  have hinfer := semanticAbout_infer scope expr
  unfold require
  rcases hfound : expr.infer scope with ⟨found, mistakes⟩
  rw [hfound] at hinfer
  cases found with
  | none => exact hinfer
  | some received =>
    by_cases hsame : received = expected
    · simpa only [hsame, if_true] using hinfer
    · simp only [hsame, if_false]
      exact hinfer.append (.single expr.head_mem_tokens rfl)

end Expr

/-- A name that cannot be assigned is the token that is blamed. -/
theorem Scope.semanticAbout_assignable {scope : TypeScope} {name : Token} {mistake : Diagnostic}
    {tokens : List Token} (hrefused : scope.assignable name = .error mistake)
    (hname : name ∈ tokens) : SemanticAbout tokens [mistake] := by
  unfold Scope.assignable at hrefused
  split at hrefused
  · cases hrefused
  · cases hrefused
    exact .single hname rfl
  · cases hrefused
    exact .single hname rfl

mutual

/-- The mistakes in a statement are about its tokens. -/
theorem Stmt.check_semanticAbout : ∀ (stmt : Stmt) (scope : TypeScope),
    SemanticAbout stmt.tokens (stmt.check scope).2
  | .declare name typeToken ty initial, scope => by
    unfold Stmt.check
    cases scope.declare name.text ty () with
    | error refusal =>
      refine .single ?_ rfl
      cases initial <;> simp [Stmt.tokens]
    | ok after =>
      cases initial with
      | none => exact .nil _
      | some value =>
        refine (value.semanticAbout_require after ty).mono ?_
        intro token htoken
        simp [Stmt.tokens, htoken]
  | .assign name value, scope => by
    unfold Stmt.check
    cases hassignable : scope.assignable name with
    | error mistake =>
      exact Scope.semanticAbout_assignable hassignable (by simp [Stmt.tokens])
    | ok ty =>
      refine (value.semanticAbout_require scope ty).mono ?_
      simp [Stmt.tokens]
  | .loop counter first last body, scope => by
    have hcounter : counter ∈ (Stmt.loop counter first last body).tokens := by
      simp [Stmt.tokens]
    unfold Stmt.check
    cases hassignable : scope.assignable counter with
    | error mistake => exact Scope.semanticAbout_assignable hassignable hcounter
    | ok ty =>
      by_cases hint : ty = .int
      · simp only [hint, if_true]
        let locked := scope.lock counter.text
        have hfirst := first.semanticAbout_require locked .int
        have hlast := last.semanticAbout_require locked .int
        have hbody := Program.check_semanticAbout body locked
        refine ((hfirst.mono ?_).append (hlast.mono ?_)).append (hbody.mono ?_) <;>
          · intro token htoken
            simp [Stmt.tokens, htoken]
      · simp only [hint, if_false]
        exact .single hcounter rfl
  | .print value, scope => by
    unfold Stmt.check Stmt.tokens
    exact value.semanticAbout_infer scope
  | .read name, scope => by
    unfold Stmt.check
    cases hassignable : scope.assignable name with
    | error mistake =>
      exact Scope.semanticAbout_assignable hassignable (by simp [Stmt.tokens])
    | ok ty => exact .nil _
  | .assert keyword condition quotation, scope => by
    unfold Stmt.check
    refine (condition.semanticAbout_require scope .bool).mono ?_
    simp [Stmt.tokens]

/-- The mistakes in a program are about its tokens. -/
theorem Program.check_semanticAbout : ∀ (program : List Stmt) (scope : TypeScope),
    SemanticAbout (Program.tokens program) (Program.check program scope).2
  | [], scope => by
    unfold Program.check
    exact .nil _
  | stmt :: rest, scope => by
    unfold Program.check Program.tokens
    have hstmt := Stmt.check_semanticAbout stmt scope
    have hrest := Program.check_semanticAbout rest (stmt.check scope).1
    exact (hstmt.mono (List.subset_append_left _ _)).append
      (hrest.mono (List.subset_append_right _ _))

end

/-! ## Mistakes in words and statements -/

namespace TokenStream

/-- A mistake in the words of a source is about the place where it was met. -/
theorem anchoredIn_of_mem_diagnostics {source : String} {diagnostic : Diagnostic}
    (hdiagnostic : diagnostic ∈ (ofSource source).diagnostics) :
    diagnostic.AnchoredIn (pieces source) := by
  have hanchor : diagnostic.anchor ∈ (ofSource source).diagnostics.map Diagnostic.anchor :=
    List.mem_map_of_mem hdiagnostic
  rw [← (filter_pieces source).2] at hanchor
  rcases List.mem_map.1 hanchor with ⟨piece, hpiece, hsome⟩
  exact ⟨piece, (List.mem_filter.1 hpiece).1, hsome.symm⟩

/-- The tokens of a source are pieces of it. -/
theorem pending_subset_pieces (source : String) : (ofSource source).pending ⊆ pieces source := by
  rw [← (filter_pieces source).1]
  exact List.filter_sublist.subset

end TokenStream

namespace Grammar

/-- The mistakes of a program are the complaints on the way to some place. -/
theorem exists_advances_of_ofStream {source : String} {program : Program}
    {mistakes : List Diagnostic}
    (hread : Program.ofStream (.ofSource source) = .ok (program, mistakes)) :
    ∃ after, (Cursor.ofStream (.ofSource source)).Advances after ∧
      after.diagnostics = mistakes := by
  have hreads : Reads False Grammar.program (.ofStream (.ofSource source)) fun program _ =>
      False ∧ IsProgram source (TokenStream.ofSource source).pending program :=
    Reads.get_bind (Reads.programWithin _ False.elim)
  unfold Program.ofStream at hread
  unfold Reads at hreads
  cases hrun : Grammar.program (.ofStream (.ofSource source)) with
  | ok other after =>
    rw [hrun] at hread hreads
    cases hread
    exact ⟨after, hreads.1, rfl⟩
  | error stop after =>
    rw [hrun] at hread hreads
    cases stop with
    | fatal fault => cases hread
    | skip | halt =>
      cases hread
      exact ⟨after, hreads.1, rfl⟩

/-- A mistake in the statements of a source is about one of its tokens or about its
end. -/
theorem anchoredIn_of_ofStream {source : String} {program : Program} {mistakes : List Diagnostic}
    (hread : Program.ofStream (.ofSource source) = .ok (program, mistakes)) :
    ∀ mistake ∈ mistakes, mistake.AnchoredIn
      ((TokenStream.ofSource source).pending ++ [(TokenStream.ofSource source).endToken]) := by
  rcases exists_advances_of_ofStream hread with ⟨after, hmove, rfl⟩
  rcases hmove.exists_crossed with ⟨tokens, hcrossed⟩
  rcases hcrossed.complains with ⟨new, hnew, hanchored⟩
  have hpending : (TokenStream.ofSource source).pending = tokens ++ after.pending :=
    hcrossed.passed.pending_eq
  have hend : after.endToken = (TokenStream.ofSource source).endToken :=
    hcrossed.passed.endToken_eq
  have hcurrent : after.current ∈ after.pending ++ [after.endToken] := by
    unfold Cursor.current
    cases after.pending <;> simp
  intro mistake hmistake
  have hmem : mistake ∈ new := by
    rw [hnew] at hmistake
    exact hmistake
  refine (hanchored mistake hmem).mono ?_
  rw [hpending, ← hend, List.append_assoc]
  refine List.append_subset.2 ⟨List.subset_append_left _ _, ?_⟩
  apply List.subset_append_of_subset_right
  exact List.cons_subset.2 ⟨hcurrent, List.nil_subset _⟩

end Grammar

/-! ## What is reported for a source -/

/-- The diagnostics of all stages for a source.  The program is checked whatever
mistakes there are in its words and statements. -/
def reported (source : String) : List Diagnostic :=
  let stream := TokenStream.ofSource source
  stream.diagnostics ++
    match Program.ofStream stream with
    | .ok (program, mistakes) => mistakes ++ Program.mistakes program
    | .error _ => []

/-- Whatever is reported for a source is about one of its pieces or about its
end. -/
theorem anchoredIn_of_mem_reported {source : String} {diagnostic : Diagnostic}
    (hreported : diagnostic ∈ reported source) :
    diagnostic.AnchoredIn
      (TokenStream.pieces source ++ [(TokenStream.ofSource source).endToken]) := by
  have hpending := TokenStream.pending_subset_pieces source
  unfold reported at hreported
  rcases List.mem_append.1 hreported with hlexical | hlater
  · exact (TokenStream.anchoredIn_of_mem_diagnostics hlexical).mono (List.subset_append_left _ _)
  · split at hlater
    · next program mistakes hread =>
      rcases List.mem_append.1 hlater with hsyntactic | hsemantic
      · refine (Grammar.anchoredIn_of_ofStream hread diagnostic hsyntactic).mono ?_
        exact List.append_subset.2
          ⟨List.subset_append_of_subset_left _ hpending, List.subset_append_right _ _⟩
      · have hmadeOf := Grammar.madeOf_of_ofStream hread
        have hanchored := (Program.check_semanticAbout program .empty diagnostic hsemantic).2
        refine hanchored.mono ?_
        exact List.subset_append_of_subset_left _
          (List.Subset.trans hmadeOf.sublist.subset hpending)
    · cases hlater

end LoopLang
