import LoopLang.Expr
import LoopLang.Proofs.Token.Scanning

/-!
# Quoted strings read as literals

A quoted string is always read as one string literal.  Quoting knows more
escapes than reading does: reading gives a newline and a tab their letters back
and takes the character after any other backslash as it stands.  So the literal
denotes the string that was quoted only if every character of it is copied by
quoting or is one of four.

Main definitions:

- `Lexeme.Denotes`: what the characters between two quotes stand for.
- `Lexeme.reread`: what is read where a character was quoted.
- `Quoted.Faithful`: a character that is read back.

Main results:

- Theorem `Lexeme.Denotes.stringTail_eq`: the characters of a literal are read as
  what they stand for.
- Theorem `Lexeme.flatMap_reread_eq_self_iff`: the strings that are read back.
- Theorem `TokenStream.ofSource_stringLeaf`: the tokens of a printed literal.
-/

namespace LoopLang

/-- A character that quoting copies, or whose escape is understood in string
literals. -/
def Quoted.Faithful (c : Char) : Prop :=
  escape '"' c = [c] ∨ c ∈ ['\n', '\t', '"', '\\']

instance (c : Char) : Decidable (Quoted.Faithful c) :=
  inferInstanceAs (Decidable (_ ∨ _))

namespace Lexeme

/-! ## The characters of a literal -/

/-- The characters between two quotes, and the content they stand for.  A backslash
and `n` are a newline, a backslash and `t` are a tab, and any other character after a
backslash stands for itself, as does a character that nothing sets off. -/
inductive Denotes : List Char → List Char → Prop
  | nil : Denotes [] []
  | plain {c : Char} {spelling content : List Char} (hquote : c ≠ '"') (hbackslash : c ≠ '\\')
      (hmore : Denotes spelling content) : Denotes (c :: spelling) (c :: content)
  | newline {spelling content : List Char} (hmore : Denotes spelling content) :
      Denotes ('\\' :: 'n' :: spelling) ('\n' :: content)
  | tab {spelling content : List Char} (hmore : Denotes spelling content) :
      Denotes ('\\' :: 't' :: spelling) ('\t' :: content)
  | escaped {c : Char} {spelling content : List Char} (hnewline : c ≠ 'n') (htab : c ≠ 't')
      (hmore : Denotes spelling content) : Denotes ('\\' :: c :: spelling) (c :: content)

/-- Scanning reads the character after a backslash as what the two stand for. -/
theorem denotes_unescape (c : Char) {spelling content : List Char}
    (hmore : Denotes spelling content) :
    Denotes ('\\' :: c :: spelling) (unescape c :: content) := by
  by_cases hnewline : c = 'n'
  · subst hnewline
    exact .newline hmore
  by_cases htab : c = 't'
  · subst htab
    exact .tab hmore
  rw [unescape, if_neg hnewline, if_neg htab]
  exact .escaped hnewline htab hmore

/-- Two spellings in a row stand for both contents. -/
theorem Denotes.append {spelling content more others : List Char}
    (hfirst : Denotes spelling content) (hsecond : Denotes more others) :
    Denotes (spelling ++ more) (content ++ others) := by
  induction hfirst with
  | nil => exact hsecond
  | plain hquote hbackslash _ ih => exact .plain hquote hbackslash ih
  | newline _ ih => exact .newline ih
  | tab _ ih => exact .tab ih
  | escaped hnewline htab _ ih => exact .escaped hnewline htab ih

/-- Characters that nothing sets off stand for themselves. -/
theorem denotes_self {spelling : List Char} (hplain : ∀ c ∈ spelling, c ≠ '"' ∧ c ≠ '\\') :
    Denotes spelling spelling := by
  induction spelling with
  | nil => exact .nil
  | cons c spelling ih =>
    rcases List.forall_mem_cons.1 hplain with ⟨⟨hquote, hbackslash⟩, hmore⟩
    exact .plain hquote hbackslash (ih hmore)

/-- The characters of a literal are read up to the closing quote, as what they
stand for. -/
theorem Denotes.stringTail_eq {spelling content : List Char} (hdenotes : Denotes spelling content)
    (rest : List Char) :
    stringTail (spelling ++ '"' :: rest) = ⟨spelling ++ ['"'], rest, content, true⟩ := by
  induction hdenotes with
  | nil => rfl
  | plain hquote hbackslash _ ih =>
    rw [List.cons_append, stringTail, ih]
    · rfl
    · exact hquote
    · intro hlone
      exact absurd hlone hbackslash
    · intro d more hescape
      exact absurd hescape hbackslash
  | newline _ ih | tab _ ih =>
    rw [List.cons_append, List.cons_append, stringTail, ih]
    rfl
  | escaped hnewline htab _ ih =>
    rw [List.cons_append, List.cons_append, stringTail, ih, unescape, if_neg hnewline, if_neg htab]
    rfl

/-! ## Quoted characters -/

/-- What is read where a character was quoted. -/
def reread (c : Char) : List Char :=
  match Quoted.escape '"' c with
  | '\\' :: d :: more => unescape d :: more
  | spelling => spelling

/-- Neither a quote nor a backslash is a digit. -/
theorem toDigits_plain (n : Nat) : ∀ c ∈ Nat.toDigits 16 n, c ≠ '"' ∧ c ≠ '\\' := by
  have hdigit : ∀ k < 16, k.digitChar ≠ '"' ∧ k.digitChar ≠ '\\' := by decide
  induction n using Nat.strongRecOn with
  | _ n ih =>
    intro c hc
    rcases Nat.lt_or_ge n 16 with hsmall | hlarge
    · rw [Nat.toDigits_of_lt_base hsmall, List.mem_singleton] at hc
      rw [hc]
      exact hdigit n hsmall
    · rw [Nat.toDigits_of_base_le (by decide) hlarge, List.mem_append, List.mem_singleton] at hc
      rcases hc with hc | rfl
      · exact ih (n / 16) (Nat.div_lt_self (by omega) (by decide)) c hc
      · exact hdigit (n % 16) (Nat.mod_lt n (by decide))

/-- How a character is quoted: it is copied, or a backslash sets off a letter.  The
letter is read as the character for four characters and for no other. -/
theorem escape_cases (c : Char) :
    (Quoted.escape '"' c = [c] ∧ c ≠ '"' ∧ c ≠ '\\') ∨
      ∃ letter more, Quoted.escape '"' c = '\\' :: letter :: more ∧
        (∀ d ∈ more, d ≠ '"' ∧ d ≠ '\\') ∧
        (c ∈ ['\n', '\t', '"', '\\'] ∧ unescape letter = c ∧ more = [] ∨
          c ∉ ['\n', '\t', '"', '\\'] ∧ unescape letter ≠ c) := by
  have hplainU : Quoted.isPlain 'u' = true := by decide +kernel
  unfold Quoted.escape
  split
  · next hnul =>
    subst hnul
    exact .inr ⟨'0', [], rfl, by simp, .inr (by decide)⟩
  split
  · next htab =>
    subst htab
    exact .inr ⟨'t', [], rfl, by simp, .inl (by decide)⟩
  split
  · next hnewline =>
    subst hnewline
    exact .inr ⟨'n', [], rfl, by simp, .inl (by decide)⟩
  split
  · next hreturn =>
    subst hreturn
    exact .inr ⟨'r', [], rfl, by simp, .inr (by decide)⟩
  split
  · next hmark =>
    rw [Bool.or_eq_true, decide_eq_true_eq, decide_eq_true_eq] at hmark
    rcases hmark with rfl | rfl
    · exact .inr ⟨'\\', [], rfl, by simp, .inl (by decide)⟩
    · exact .inr ⟨'"', [], rfl, by simp, .inl (by decide)⟩
  next htab hnewline _ hmark =>
  rw [Bool.or_eq_true, decide_eq_true_eq, decide_eq_true_eq, not_or] at hmark
  split
  · exact .inl ⟨rfl, hmark.2, hmark.1⟩
  · next hplain =>
    refine .inr ⟨'u', ['\x7b'] ++ Nat.toDigits 16 c.toNat ++ ['\x7d'], rfl, ?_, .inr ⟨?_, ?_⟩⟩
    · simp only [List.forall_mem_append, List.forall_mem_singleton]
      exact ⟨⟨by decide, toDigits_plain c.toNat⟩, by decide⟩
    · simp [htab, hnewline, hmark]
    · rintro rfl
      exact hplain hplainU

/-- A copied character is read as itself. -/
theorem reread_of_copied {c : Char} (hcopied : Quoted.escape '"' c = [c]) : reread c = [c] := by
  rw [reread, hcopied]
  split <;> simp_all

/-- Where a character was set off, the letter after the backslash is read. -/
theorem reread_of_set_off {c letter : Char} {more : List Char}
    (hset : Quoted.escape '"' c = '\\' :: letter :: more) :
    reread c = unescape letter :: more := by
  rw [reread, hset]
  rfl

/-- A quoted character stands for what is read in its place. -/
theorem denotes_reread (c : Char) : Denotes (Quoted.escape '"' c) (reread c) := by
  rcases escape_cases c with ⟨hcopied, hquote, hbackslash⟩ | ⟨letter, more, hset, hmore, -⟩
  · rw [reread_of_copied hcopied, hcopied]
    exact .plain hquote hbackslash .nil
  · rw [reread_of_set_off hset, hset]
    exact denotes_unescape letter (denotes_self hmore)

/-- Where a faithful character was quoted, it is read back. -/
theorem reread_of_faithful {c : Char} (hfaithful : Quoted.Faithful c) : reread c = [c] := by
  rcases escape_cases c with ⟨hcopied, -, -⟩ |
    ⟨letter, more, hset, -, ⟨-, hletter, rfl⟩ | ⟨hmem, -⟩⟩
  · exact reread_of_copied hcopied
  · rw [reread_of_set_off hset, hletter]
  · rcases hfaithful with hcopied | hfaithful
    · exact reread_of_copied hcopied
    · exact absurd hfaithful hmem

/-- Where another character was quoted, something else is read. -/
theorem reread_of_not_faithful {c : Char} (hfaithful : ¬Quoted.Faithful c) :
    ∃ letter more, reread c = letter :: more ∧ letter ≠ c := by
  rw [Quoted.Faithful, not_or] at hfaithful
  rcases escape_cases c with ⟨hcopied, -, -⟩ |
    ⟨letter, more, hset, -, ⟨hmem, -⟩ | ⟨-, hletter⟩⟩
  · exact absurd hcopied hfaithful.1
  · exact absurd hmem hfaithful.2
  · exact ⟨unescape letter, more, reread_of_set_off hset, hletter⟩

/-- A string is read back exactly if all its characters are. -/
theorem flatMap_reread_eq_self_iff {content : List Char} :
    content.flatMap reread = content ↔ ∀ c ∈ content, Quoted.Faithful c := by
  induction content with
  | nil => simp
  | cons c content ih =>
    rw [List.flatMap_cons, List.forall_mem_cons, ← ih]
    by_cases hfaithful : Quoted.Faithful c
    · simp [reread_of_faithful hfaithful, hfaithful]
    · rcases reread_of_not_faithful hfaithful with ⟨letter, more, hreread, hletter⟩
      simp [hreread, hletter, hfaithful]

/-- A quoted string stands for what is read in the places of its characters. -/
theorem denotes_flatMap_reread (content : List Char) :
    Denotes (content.flatMap (Quoted.escape '"')) (content.flatMap reread) := by
  induction content with
  | nil => exact .nil
  | cons c content ih =>
    rw [List.flatMap_cons, List.flatMap_cons]
    exact (denotes_reread c).append ih

end Lexeme

/-! ## Quoted strings -/

/-- A quoted string gives one string literal. -/
theorem Scan.gives_quoted (content rest : List Char) :
    Gives (Quoted.text '"' content) rest
      [.bare .stringLiteral (String.ofList (content.flatMap Lexeme.reread))] := by
  refine Gives.lexeme rfl ?_
  rw [Lexeme.read_quote, Lexeme.string, List.append_assoc, List.singleton_append,
    (Lexeme.denotes_flatMap_reread content).stringTail_eq rest]
  rfl

/-- A string literal of faithful characters is read from its quoted text. -/
theorem Scan.gives_quoted_of_faithful {token : Token} (hkind : token.kind = .stringLiteral)
    (hfaithful : ∀ c ∈ token.text.toList, Quoted.Faithful c) (rest : List Char) :
    Gives (Quoted.text '"' token.text.toList) rest [token.unplaced] := by
  have hgives := gives_quoted token.text.toList rest
  rw [Lexeme.flatMap_reread_eq_self_iff.2 hfaithful, String.ofList_toList] at hgives
  rw [Token.unplaced, hkind]
  exact hgives

namespace TokenStream

/-- The printed form of a string literal is read as one string literal, without
mistakes.  It denotes the same string exactly if each character of the string is
copied by quoting or is a newline, a tab, a quote or a backslash. -/
theorem ofSource_stringLeaf {token : Token} (hkind : token.kind = .stringLiteral) :
    ∃ again, (ofSource (Expr.leaf token).text).pending = [again] ∧
      (ofSource (Expr.leaf token).text).diagnostics = [] ∧ again.kind = .stringLiteral ∧
      (again.text = token.text ↔ ∀ c ∈ token.text.toList, Quoted.Faithful c) := by
  have hgives : Scan.Gives (Expr.leaf token).text.toList []
      [.bare .stringLiteral (String.ofList (token.text.toList.flatMap Lexeme.reread))] := by
    rw [Expr.text, if_pos hkind, Quoted.string, String.toList_ofList]
    exact Scan.gives_quoted token.text.toList []
  rcases ofSource_of_gives hgives with ⟨hpending, hdiagnostics⟩
  rcases List.map_eq_singleton_iff.1 hpending with ⟨again, hagain, hunplaced⟩
  have htext : again.text = String.ofList (token.text.toList.flatMap Lexeme.reread) :=
    congrArg Token.text hunplaced
  refine ⟨again, hagain, hdiagnostics, congrArg Token.kind hunplaced, ?_⟩
  rw [htext, ← Lexeme.flatMap_reread_eq_self_iff, ← String.toList_inj, String.toList_ofList]

/-- A carriage return is quoted with an escape that string literals lack. -/
theorem ofSource_stringLeaf_return :
    ∃ token again, (ofSource "\"\r\"").pending = [token] ∧ token.kind = .stringLiteral ∧
      (ofSource (Expr.leaf token).text).pending = [again] ∧ again.text ≠ token.text := by
  have hreturn : ¬∀ c ∈ "\r".toList, Quoted.Faithful c := by
    intro hfaithful
    exact absurd (hfaithful '\r' (List.mem_singleton_self '\r')) (by decide)
  have hpending : (ofSource "\"\r\"").pending =
      [.between .start (Position.start.after ['"', '\r', '"']) .stringLiteral "\r"] := by
    decide +kernel
  rcases ofSource_stringLeaf (rfl : (Token.between .start
    (Position.start.after ['"', '\r', '"']) .stringLiteral "\r").kind = .stringLiteral)
    with ⟨again, hagain, -, -, hiff⟩
  exact ⟨_, again, hpending, rfl, hagain, fun hsame => hreturn (hiff.1 hsame)⟩

end TokenStream

end LoopLang
