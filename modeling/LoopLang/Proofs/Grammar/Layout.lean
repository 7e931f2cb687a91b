import LoopLang.Proofs.Grammar.Places
import LoopLang.Proofs.Token.Spans

/-!
# Layout does not matter

The words of a source can be set anew, with any blanks around them and at least one
between two of them.  The new text has the same tokens, so it is read in the same
way: each word is read from its own characters alone when a blank comes after it.

Main definitions:

- `Layout`: blanks before, between and after the words of a text.
- `Layout.text`: the words set with these blanks.
- `Token.slice`: the word of a source that a token was read from.

Main results:

- Theorem `Token.gives_slice`: a word gives its token before a blank.
- Theorem `Layout.gives_text`: words that are set anew give the same tokens.
- Theorem `Layout.ofStream_text_relaid`: they have the same mistakes and the same
  program.
-/

namespace LoopLang

open Lexeme (Separates isBlank isBlank_iff)

open Scan (Gives)

/-! ## Setting words -/

/-- The blanks around a number of words: one text before the first of them, and one
after each. -/
structure Layout (count : Nat) where
  /-- What stands before the first word. -/
  lead : String
  /-- What stands after each of the words. -/
  gaps : List String
  length_gaps : gaps.length = count
  /-- Nothing but blanks stands around the words. -/
  blank : ∀ gap ∈ lead :: gaps, ∀ c ∈ gap.toList, c ∈ [' ', '\t', '\r', '\n']
  /-- Only the text after the last word may be empty. -/
  separate : ∀ gap ∈ gaps.dropLast, gap ≠ ""

namespace Layout

/-- One space after each word. -/
instance (count : Nat) : Inhabited (Layout count) where
  default :=
    { lead := ""
      gaps := List.replicate count " "
      length_gaps := List.length_replicate
      blank := by
        intro gap hgap c hc
        rcases List.mem_cons.1 hgap with rfl | hgap
        · cases hc
        · rw [List.eq_of_mem_replicate hgap] at hc
          rw [List.mem_singleton.1 hc]
          decide
      separate := by
        intro gap hgap
        rw [List.eq_of_mem_replicate (List.dropLast_subset _ hgap)]
        decide }

/-- Each of the words with the text that comes after it. -/
def interleave : List String → List String → String
  | word :: words, gap :: gaps => word ++ (gap ++ interleave words gaps)
  | _, _ => ""

/-- The words set with the given blanks. -/
def text {count : Nat} (layout : Layout count) (words : List String) : String :=
  layout.lead ++ interleave words layout.gaps

end Layout

/-- The word of a source that a token was read from. -/
def Token.slice (source : String) (token : Token) : String :=
  (Source.slice? source token.start token.stop).getD ""

/-! ## Words before blanks -/

/-- The text is empty or begins with a blank. -/
def Lexeme.SetOff (rest : List Char) : Prop :=
  ∀ c, rest.head? = some c → isBlank c = true

namespace Lexeme.SetOff

variable {rest : List Char}

/-- A blank ends words and numbers. -/
theorem separates (hrest : SetOff rest) : Separates rest := by
  intro c hc
  simp [endsWord, hrest c hc]

/-- Blanks set a text off from what comes before, if there are any. -/
theorem append {gap : List Char} (hgap : ∀ c ∈ gap, isBlank c = true)
    (hrest : gap ≠ [] ∨ rest = []) : SetOff (gap ++ rest) := by
  intro c hc
  cases gap with
  | nil =>
    rcases hrest with hnonempty | rfl
    · exact absurd rfl hnonempty
    · cases hc
  | cons d gap =>
    cases hc
    exact hgap c List.mem_cons_self

/-- A blank does not turn a colon into an assignment sign. -/
theorem head?_ne_equals (hrest : SetOff rest) : rest.head? ≠ some '=' := by
  intro hequals
  cases hrest '=' hequals

end Lexeme.SetOff

/-- The word that a token was read from gives the token before a blank. -/
theorem Token.gives_slice {source : String} {token : Token}
    (htoken : token ∈ (TokenStream.ofSource source).pending) {rest : List Char}
    (hrest : Lexeme.SetOff rest) : Gives (token.slice source).toList rest [token.unplaced] := by
  rcases TokenStream.transcribes_of_mem_pending htoken with ⟨characters, hslice, hwritten⟩
  rw [slice, hslice, Option.getD_some, String.toList_ofList]
  by_cases hstring : token.kind = .stringLiteral
  · rw [TokenKind.WrittenAs, if_pos hstring] at hwritten
    rcases hwritten with ⟨body, rfl, hdenotes⟩
    rw [unplaced, hstring]
    refine Gives.lexeme rfl ?_
    rw [Lexeme.read_quote, Lexeme.string, List.append_assoc, List.singleton_append,
      hdenotes.stringTail_eq rest]
    simp
  · rw [(TokenKind.writtenAs_iff hstring).1 hwritten]
    exact Scan.gives_of_mem_tokens htoken hstring hrest.separates fun _ => hrest.head?_ne_equals

namespace Layout

/-! ## Texts set anew -/

/-- Words with blanks after them give the tokens they were read from. -/
theorem gives_interleave {source : String} {tokens : List Token} {gaps : List String}
    (htokens : ∀ token ∈ tokens, token ∈ (TokenStream.ofSource source).pending)
    (hlength : gaps.length = tokens.length)
    (hblank : ∀ gap ∈ gaps, ∀ c ∈ gap.toList, isBlank c = true)
    (hseparate : ∀ gap ∈ gaps.dropLast, gap ≠ "") :
    Gives (interleave (tokens.map (Token.slice source)) gaps).toList []
      (tokens.map Token.unplaced) := by
  induction tokens generalizing gaps with
  | nil => exact .nil []
  | cons token tokens ih =>
    cases gaps with
    | nil => cases hlength
    | cons gap gaps =>
      rcases List.forall_mem_cons.1 htokens with ⟨htoken, hothers⟩
      rcases List.forall_mem_cons.1 hblank with ⟨hgap, hgaps⟩
      have hsplit : (gap ≠ "" ∨ gaps = []) ∧ ∀ other ∈ gaps.dropLast, other ≠ "" := by
        cases gaps with
        | nil => simp
        | cons next gaps =>
          rcases List.forall_mem_cons.1 hseparate with ⟨hfirst, hlater⟩
          exact ⟨.inl hfirst, hlater⟩
      have hmore := ih hothers (Nat.succ.inj hlength) hgaps hsplit.2
      have hrest : Lexeme.SetOff
          (gap.toList ++ (interleave (tokens.map (Token.slice source)) gaps).toList) := by
        refine .append hgap ?_
        rcases hsplit.1 with hnonempty | rfl
        · exact .inl fun hnil => hnonempty (String.toList_eq_nil_iff.1 hnil)
        · rw [List.eq_nil_of_length_eq_zero (Nat.succ.inj hlength).symm]
          exact .inr rfl
      simp only [List.map_cons, interleave, String.toList_append]
      refine Gives.cons ?_ (hmore.blanks hgap)
      rw [List.append_nil]
      exact Token.gives_slice htoken hrest

/-- Words that are set anew give the tokens they were read from. -/
theorem gives_text {source : String}
    (layout : Layout (TokenStream.ofSource source).pending.length) :
    Gives (layout.text ((TokenStream.ofSource source).pending.map (Token.slice source))).toList []
      ((TokenStream.ofSource source).pending.map Token.unplaced) := by
  have hblank : ∀ gap ∈ layout.lead :: layout.gaps, ∀ c ∈ gap.toList, isBlank c = true := by
    intro gap hgap c hc
    exact isBlank_iff.2 (layout.blank gap hgap c hc)
  rcases List.forall_mem_cons.1 hblank with ⟨hlead, hgaps⟩
  rw [text, String.toList_append]
  exact (gives_interleave (fun _ htoken => htoken) layout.length_gaps hgaps layout.separate).blanks
    hlead

/-- The words of a source, set anew with any blanks around them, have the same tokens
and no mistake among them; this is so for every source, those with mistakes of their
own included.  They are read in the same way: the same mistakes are recorded, with
what was expected and what was found, and the program is the same up to places and
quotations. -/
theorem ofStream_text_relaid (source : String)
    (layout : Layout (TokenStream.ofSource source).pending.length) :
    let relaid := layout.text ((TokenStream.ofSource source).pending.map (Token.slice source))
    (TokenStream.ofSource relaid).diagnostics = [] ∧
      (TokenStream.ofSource relaid).pending.map Token.unplaced =
        (TokenStream.ofSource source).pending.map Token.unplaced ∧
      ∃ program mistakes again mistakes',
        Program.ofStream (.ofSource source) = .ok (program, mistakes) ∧
        Program.ofStream (.ofSource relaid) = .ok (again, mistakes') ∧
        mistakes'.map Diagnostic.unplaced = mistakes.map Diagnostic.unplaced ∧
        Program.unplaced again = Program.unplaced program := by
  intro relaid
  rcases TokenStream.ofSource_of_gives layout.gives_text with ⟨hpending, hdiagnostics⟩
  rcases Grammar.exists_ofStream_madeOf source with ⟨program, mistakes, hread, -⟩
  rcases Grammar.ofStream_of_unplaced hpending.symm rfl hread
    with ⟨again, mistakes', hagain, hsame, hmistakes⟩
  exact ⟨hdiagnostics, hpending, program, mistakes, again, mistakes', hread, hagain, hmistakes,
    hsame⟩

end Layout

end LoopLang
