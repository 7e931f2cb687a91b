import LoopLang.Diagnostic
import LoopLang.Proofs.Grammar.Tree

/-!
# Missing separators

The tokens of a program from which some of the semicolons between statements
were left out.  A semicolon of a program stands between two statements, at any
depth, exactly if a token that begins a statement comes after it; in front of
`end` and at the end of the source there is no statement that it separates.

Main definitions:

- `Omits`: tokens from which some separators were left out, with the tokens that
  come after the gaps.
- `missingSeparator`: the complaint about a gap.

Main results:

- Theorem `Omits.append`: the gaps of two parts that no gap lies between.
- Theorem `Derives.semicolon_not_mem`: an expression has no semicolons.
- Theorem `Omits.of_loop`: in a loop, only the body can have gaps.
-/

namespace LoopLang

namespace Grammar

/-- The complaint that there is no semicolon in front of a token. -/
def missingSeparator (token : Token) : Diagnostic :=
  .about token (.unexpectedToken [.semicolon] token.kind)

/-- `Omits tokens left gaps`: what is left of the tokens after some separators
between statements were taken out, and the tokens after the gaps, which begin the
statements there. -/
inductive Omits : List Token → List Token → List Token → Prop where
  | nil : Omits [] [] []
  | keep (token : Token) {tokens left gaps : List Token} (hmore : Omits tokens left gaps) :
      Omits (token :: tokens) (token :: left) gaps
  | gap {separator next : Token} {tokens left gaps : List Token}
      (hseparator : separator.kind = .semicolon) (hnext : next.kind ∈ statementFirst)
      (hmore : Omits (next :: tokens) left gaps) :
      Omits (separator :: next :: tokens) left (next :: gaps)

namespace Omits

/-- All separators may be there. -/
theorem refl (tokens : List Token) : Omits tokens tokens [] := by
  induction tokens with
  | nil => exact .nil
  | cons token tokens ih => exact .keep token ih

/-- A token that is no semicolon is left. -/
theorem of_cons {token : Token} {tokens left gaps : List Token}
    (homits : Omits (token :: tokens) left gaps) (hkind : token.kind ≠ .semicolon) :
    ∃ rest, left = token :: rest ∧ Omits tokens rest gaps := by
  cases homits with
  | @keep _ _ rest _ hmore => exact ⟨rest, rfl, hmore⟩
  | gap hseparator => exact absurd hseparator hkind

/-- Tokens without semicolons are left as they are. -/
theorem eq_of_semicolon_not_mem {tokens left gaps : List Token} (homits : Omits tokens left gaps)
    (hnone : TokenKind.semicolon ∉ tokens.map Token.kind) : left = tokens ∧ gaps = [] := by
  induction homits with
  | nil => exact ⟨rfl, rfl⟩
  | keep token hmore ih =>
    rw [List.map_cons, List.mem_cons, not_or] at hnone
    rcases ih hnone.2 with ⟨rfl, rfl⟩
    exact ⟨rfl, rfl⟩
  | gap hseparator =>
    rw [List.map_cons, hseparator] at hnone
    exact absurd List.mem_cons_self hnone

/-- Something is left of every token list. -/
theorem eq_nil {tokens left gaps : List Token} (homits : Omits tokens left gaps)
    (hleft : left = []) : tokens = [] ∧ gaps = [] := by
  induction homits with
  | nil => exact ⟨rfl, rfl⟩
  | keep => cases hleft
  | gap hseparator hnext hmore ih => cases (ih hleft).1

/-- Two parts have their own gaps if the second one does not begin with a
statement. -/
theorem append {front rest left gaps : List Token} {token : Token}
    (homits : Omits (front ++ token :: rest) left gaps) (hkind : token.kind ∉ statementFirst) :
    ∃ leftFront leftRest gapsFront gapsRest, left = leftFront ++ leftRest ∧
      gaps = gapsFront ++ gapsRest ∧ Omits front leftFront gapsFront ∧
      Omits (token :: rest) leftRest gapsRest := by
  induction front generalizing left gaps with
  | nil => exact ⟨[], left, [], gaps, rfl, rfl, .nil, homits⟩
  | cons other front ih =>
    rw [List.cons_append] at homits
    generalize htail : front ++ token :: rest = tail at homits
    cases homits with
    | @keep _ _ left _ hmore =>
      rw [← htail] at hmore
      rcases ih hmore with ⟨leftFront, leftRest, gapsFront, gapsRest, rfl, rfl, hfront, hrest⟩
      exact ⟨other :: leftFront, leftRest, gapsFront, gapsRest, rfl, rfl, .keep other hfront, hrest⟩
    | @gap _ next tokens _ gaps hseparator hnext hmore =>
      rw [← htail] at hmore
      rcases ih hmore with ⟨leftFront, leftRest, gapsFront, gapsRest, rfl, rfl, hfront, hrest⟩
      refine ⟨leftFront, leftRest, next :: gapsFront, gapsRest, rfl, rfl, ?_, hrest⟩
      cases front with
      | nil =>
        rw [List.nil_append, List.cons.injEq] at htail
        rw [← htail.1] at hnext
        exact absurd hnext hkind
      | cons head front =>
        rw [List.cons_append, List.cons.injEq] at htail
        rw [htail.1] at hfront ⊢
        exact .gap hseparator hnext hfront

end Omits

/-! ## Gaps in phrases -/

/-- The parts of an expression have no semicolons. -/
theorem Derives.semicolon_not_mem {phrase : Phrase} {kinds : List TokenKind}
    (hderives : Derives phrase kinds) (hphrase : phrase ∉ [Phrase.statements, Phrase.statement]) :
    TokenKind.semicolon ∉ kinds := by
  induction hderives with
  | empty | last | separated | declaration | initialised | assignment | loop | read | print
  | assertion => simp at hphrase
  | single _ ih => exact ih (by decide)
  | chain _ _ ihterm ihrest => simp [ihterm (by decide), ihrest (by decide)]
  | bare _ ih => exact ih (by decide)
  | prefixed _ ih => simp [ih (by decide)]
  | @literal kind hkind =>
    rw [List.mem_singleton]
    rintro rfl
    cases hkind
  | identifier => decide
  | group _ ih => simp [ih (by decide)]

end Grammar

/-- An expression has no semicolons. -/
theorem Expr.IsExpression.semicolon_not_mem {tokens : List Token} {expr : Expr}
    (hexpr : IsExpression tokens expr) : TokenKind.semicolon ∉ tokens.map Token.kind :=
  hexpr.derives.semicolon_not_mem (by decide)

namespace Grammar

/-- The part of a phrase up to a token that no statement begins with is left as it
is if it has no semicolons. -/
theorem Omits.after {front rest left gaps : List Token} {token : Token}
    (homits : Omits (front ++ token :: rest) left gaps)
    (hnone : TokenKind.semicolon ∉ front.map Token.kind)
    (hkind : token.kind ≠ .semicolon) (hfirst : token.kind ∉ statementFirst) :
    ∃ more, left = front ++ token :: more ∧ Omits rest more gaps := by
  rcases homits.append hfirst with ⟨_, _, _, _, rfl, rfl, hfront, hrest⟩
  rcases hfront.eq_of_semicolon_not_mem hnone with ⟨rfl, rfl⟩
  rcases hrest.of_cons hkind with ⟨more, rfl, hmore⟩
  exact ⟨more, rfl, hmore⟩

/-- In a loop, only the body can have gaps. -/
theorem Omits.of_loop {keyword counter inWord range doWord endWord forWord : Token}
    {firstTokens lastTokens bodyTokens left gaps : List Token} {first last : Expr}
    (homits : Omits (keyword :: counter :: inWord :: (firstTokens ++ range ::
      (lastTokens ++ doWord :: (bodyTokens ++ [endWord, forWord])))) left gaps)
    (hkeyword : keyword.kind = .forKeyword) (hcounter : counter.kind = .identifier)
    (hin : inWord.kind = .inKeyword) (hfirst : Expr.IsExpression firstTokens first)
    (hrange : range.kind = .range) (hlast : Expr.IsExpression lastTokens last)
    (hdo : doWord.kind = .doKeyword) (hend : endWord.kind = .endKeyword)
    (hfor : forWord.kind = .forKeyword) :
    ∃ leftBody, Omits bodyTokens leftBody gaps ∧
      left = keyword :: counter :: inWord :: (firstTokens ++ range ::
        (lastTokens ++ doWord :: (leftBody ++ [endWord, forWord]))) := by
  have hsplit : Omits ((keyword :: counter :: inWord :: firstTokens) ++ range ::
      (lastTokens ++ doWord :: (bodyTokens ++ [endWord, forWord]))) left gaps := homits
  have hhead : TokenKind.semicolon ∉
      (keyword :: counter :: inWord :: firstTokens).map Token.kind := by
    have hnone := hfirst.semicolon_not_mem
    simpa [hkeyword, hcounter, hin] using hnone
  obtain ⟨_, rfl, hbounds⟩ := hsplit.after hhead (by simp [hrange]) (by rw [hrange]; decide)
  obtain ⟨_, rfl, hrest⟩ :=
    hbounds.after hlast.semicolon_not_mem (by simp [hdo]) (by rw [hdo]; decide)
  obtain ⟨leftBody, _, _, _, rfl, rfl, hbody, hclosing⟩ := hrest.append (by rw [hend]; decide)
  obtain ⟨rfl, rfl⟩ := hclosing.eq_of_semicolon_not_mem (by simp [hend, hfor])
  rw [List.append_nil]
  exact ⟨leftBody, hbody, rfl⟩

end Grammar

end LoopLang
