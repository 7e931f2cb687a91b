import LoopLang.Token.Stream
import LoopLang.Value

/-!
# Spellings

What the category of a token that was read from a source says about its text.
No token of a stream marks an end or an absence, its operators are known, and
its literals denote values.

Main definitions:

- `TokenKind.Spells`: the texts that a category can have.
- `Token.Scanned`: a token whose text fits its category.

Main results:

- Theorem `TokenStream.scanned_ofSource`: the tokens of every source text are of
  this kind.
- Theorem `Token.Scanned.literal`: a literal denotes a value of its type.
-/

namespace LoopLang

/-- The texts that tokens of a category have.  Nothing is said of the categories
whose tokens are used without a look at their text. -/
def TokenKind.Spells : TokenKind → String → Prop
  | .binaryOperator, text => ∃ op, Operator.ofLexeme? text = some op ∧ op ≠ .not
  | .unaryOperator, text => Operator.ofLexeme? text = some .not
  | .integerLiteral, text => (Numeral.toInt64? text.toList).isSome = true
  | .booleanLiteral, text => text = "true" ∨ text = "false"
  | .endOfFile, _ | .missing, _ => False
  | _, _ => True

/-- A token whose text fits its category. -/
def Token.Scanned (token : Token) : Prop :=
  token.kind.Spells token.text

namespace Lexeme

/-- A meaning that is a token has a text that fits. -/
def Fits : Meaning → Prop
  | .token kind text => kind.Spells text
  | .mistake _ _ => True

/-- A character that is a lexeme of its own has a text that fits. -/
theorem spells_simpleKind? {c : Char} {kind : TokenKind} (hkind : simpleKind? c = some kind) :
    kind.Spells (String.singleton c) := by
  unfold simpleKind? at hkind
  split at hkind <;> cases hkind
  · exact trivial
  · exact trivial
  · exact ⟨.less, by decide, by decide⟩
  · exact ⟨.equality, by decide, by decide⟩
  · exact ⟨.and, by decide, by decide⟩
  · exact ⟨.addition, by decide, by decide⟩
  · exact ⟨.subtraction, by decide, by decide⟩
  · exact ⟨.multiplication, by decide, by decide⟩
  · exact ⟨.division, by decide, by decide⟩
  · exact (by decide : Operator.ofLexeme? "!" = some .not)
  · exact trivial

/-- Keywords are used without a look at their text. -/
theorem spells_keyword {word : String} {kind : TokenKind}
    (hfound : keywords.lookup word = some kind) : kind.Spells word := by
  rcases List.lookup_eq_some_iff.1 hfound with ⟨before, after, hsplit, -⟩
  have hmem : (word, kind) ∈ keywords := by
    rw [hsplit]
    exact List.mem_append_right before List.mem_cons_self
  simp only [keywords, List.mem_cons, Prod.mk.injEq, List.not_mem_nil, or_false] at hmem
  rcases hmem with ⟨-, rfl⟩ | ⟨-, rfl⟩ | ⟨-, rfl⟩ | ⟨-, rfl⟩ | ⟨-, rfl⟩ | ⟨-, rfl⟩ | ⟨-, rfl⟩ |
    ⟨-, rfl⟩ | ⟨-, rfl⟩ | ⟨-, rfl⟩ | ⟨-, rfl⟩ <;> exact trivial

/-- A word is a keyword, a Boolean or an identifier, or it is a mistake. -/
theorem fits_wordMeaning (word : String) : Fits (wordMeaning word) := by
  unfold wordMeaning
  split
  · next kind hfound => exact spells_keyword hfound
  · split
    · next htruth =>
      rcases Bool.or_eq_true_iff.1 htruth with htrue | hfalse
      · exact .inl (of_decide_eq_true htrue)
      · exact .inr (of_decide_eq_true hfalse)
    · split <;> exact trivial

theorem fits_numberMeaning (digits : List Char) : Fits (numberMeaning digits) := by
  unfold numberMeaning
  split
  · next hfits =>
    rw [Fits, TokenKind.Spells, String.toList_ofList]
    exact hfits
  · exact trivial

/-- Every lexeme has a meaning that fits. -/
theorem fits_read (c : Char) (text : List Char) : Fits (read c text).meaning := by
  unfold read
  split
  · next kind hkind => exact spells_simpleKind? hkind
  · split
    · exact fits_wordMeaning _
    · split
      · exact fits_numberMeaning _
      · split
        · unfold string
          dsimp only
          split <;> exact trivial
        · split
          · unfold colon
            split <;> exact trivial
          · split
            · unfold dots stray
              split <;> exact trivial
            · exact trivial

end Lexeme

/-! ## Tokens of a source -/

/-- The tokens of a text that begins anywhere fit their categories. -/
theorem Scan.scanned_ofTextAt (start : Position) (text : List Char) :
    ∀ token ∈ (Scan.ofTextAt start text).tokens, token.Scanned := by
  fun_induction Scan.ofTextAt start text with
  | case1 => simp [Scan.tokens]
  | case2 start text pos c rest hrest lexeme stop more ih =>
    intro token htoken
    have hfits := Lexeme.fits_read c rest
    cases hmeaning : lexeme.meaning with
    | token kind spelling =>
      simp only [Scan.tokens, hmeaning, Item.ofMeaning, List.filterMap_cons, Item.token?,
        List.mem_cons] at htoken
      rcases htoken with rfl | htoken
      · rw [show (Lexeme.read c rest).meaning = _ from hmeaning] at hfits
        exact hfits
      · exact ih token htoken
    | mistake cause spelling =>
      simp only [Scan.tokens, hmeaning, Item.ofMeaning, List.filterMap_cons, Item.token?]
        at htoken
      exact ih token htoken

/-- The tokens of a source text fit their categories. -/
theorem TokenStream.scanned_ofSource (source : String) :
    ∀ token ∈ (TokenStream.ofSource source).pending, token.Scanned :=
  Scan.scanned_ofTextAt Position.start source.toList

/-! ## What a fitting text gives -/

/-- An operator token spells the operator that it stands for. -/
theorem Token.lexeme_of_operator? {token : Token} {op : Operator}
    (hop : token.operator? = some op) : op.lexeme = token.text := by
  unfold Token.operator? at hop
  split at hop
  · exact Operator.lexeme_of_ofLexeme? hop
  · exact Operator.lexeme_of_ofLexeme? hop
  · cases hop

namespace Token.Scanned

variable {token : Token}

/-- A binary operator of a source is none of the prefix ones. -/
theorem binary (hscanned : token.Scanned) (hkind : token.kind = .binaryOperator) :
    ∃ op, token.operator? = some op ∧ op ≠ .not := by
  rw [Token.Scanned, hkind] at hscanned
  rcases hscanned with ⟨op, hop, hnot⟩
  exact ⟨op, by simp [Token.operator?, hkind, hop], hnot⟩

/-- A prefix operator of a source is the negation. -/
theorem unary (hscanned : token.Scanned) (hkind : token.kind = .unaryOperator) :
    token.operator? = some .not := by
  rw [Token.Scanned, hkind] at hscanned
  have hop : Operator.ofLexeme? token.text = some .not := hscanned
  simp [Token.operator?, hkind, hop]

/-- No token of a source marks its end. -/
theorem not_endOfFile (hscanned : token.Scanned) : token.kind ≠ .endOfFile := by
  intro hkind
  rw [Token.Scanned, hkind] at hscanned
  exact hscanned

/-- No token of a source stands for the absence of one. -/
theorem not_missing (hscanned : token.Scanned) : token.kind ≠ .missing := by
  intro hkind
  rw [Token.Scanned, hkind] at hscanned
  exact hscanned

/-- A literal of a source denotes a value of its type. -/
theorem literal (hscanned : token.Scanned) {ty : Ty} (hty : token.kind.literalType? = some ty) :
    ∃ value, Value.ofText? token.text ty = some value := by
  cases hkind : token.kind <;> rw [hkind] at hty <;> cases hty <;>
    rw [Token.Scanned, hkind] at hscanned
  · rcases Option.isSome_iff_exists.1 hscanned with ⟨i, hi⟩
    exact ⟨.int i, by simp [Value.ofText?, hi]⟩
  · exact ⟨.string token.text, rfl⟩
  · rcases hscanned with htext | htext
    · exact ⟨.bool true, by simp [Value.ofText?, htext]⟩
    · exact ⟨.bool false, by simp [Value.ofText?, htext]⟩

end Token.Scanned

end LoopLang
