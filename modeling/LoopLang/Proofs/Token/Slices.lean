import LoopLang.Proofs.Token.Spans

/-!
# Slices of a source

A source is read from left to right and without looking far: a token is read in the
same way if everything after it, or anything behind some later place, is cut off.  So
the text from the beginning of one token to the end of another is read as the tokens
in between, and nothing else of the source is needed for it.

Main definitions:

- `Lexeme.Stable`: a token is read in the same way if the text behind it is cut off.

Main results:

- Theorem `Lexeme.stable_read`: all tokens are read so.
- Theorem `Scan.Tiled.exists_slice`: the text of a row of tokens gives these tokens.
- Theorem `TokenStream.exists_slice`: a row of tokens of a source, cut out of it.
-/

namespace LoopLang

namespace Lexeme

/-! ## One token -/

/-- What is left behind a maximal run does not go on with it, wherever it is cut off. -/
theorem head?_of_dropWhile {p : Char → Bool} {text kept lost : List Char}
    (hrest : text.dropWhile p = kept ++ lost) : ∀ c, kept.head? = some c → p c = false := by
  intro c hc
  have hhead : (text.dropWhile p).head? = some c := by
    rw [hrest, List.head?_append, hc, Option.some_or]
  have hstops := List.head?_dropWhile_not p text
  rw [hhead] at hstops
  exact hstops

/-- A token that the reader gives for the texts after `c` is given again before any front
part of what came after it. -/
def Stable (c : Char) (reader : List Char → Lexeme) : Prop :=
  ∀ {text kept lost : List Char} {kind : TokenKind} {spelling : String},
    (reader text).meaning = .token kind spelling → (reader text).rest = kept ++ lost →
      ∃ more, (reader text).characters = c :: more ∧
        reader (more ++ kept) = ⟨c :: more, kept, .token kind spelling⟩

/-- A word goes up to a character that ends words, or to the cut. -/
theorem stable_word (c : Char) : Stable c (word c) := by
  intro text kept lost kind spelling hmeaning hrest
  have hmore : ∀ d ∈ text.takeWhile (fun d => !endsWord d), (!endsWord d) = true :=
    List.all_eq_true.1 List.all_takeWhile
  have hkept : Separates kept := by
    intro d hd
    simpa using head?_of_dropWhile hrest d hd
  refine ⟨text.takeWhile fun d => !endsWord d, rfl, ?_⟩
  rw [word_append hmore hkept]
  exact congrArg (Lexeme.mk _ _) hmeaning

/-- A number is read again from its own characters. -/
theorem stable_number (c : Char) : Stable c (number c) := by
  intro text kept lost kind spelling hmeaning hrest
  have hmore : ∀ d ∈ text.takeWhile Char.isDigit, d.isDigit = true :=
    List.all_eq_true.1 List.all_takeWhile
  refine ⟨text.takeWhile Char.isDigit, rfl, ?_⟩
  rw [number_append hmore (head?_of_dropWhile hrest)]
  exact congrArg (Lexeme.mk _ _) hmeaning

/-- A string literal ends with its closing quote. -/
theorem stable_string : Stable '"' string := by
  intro text kept lost kind spelling hmeaning hrest
  unfold string at hmeaning
  dsimp only at hmeaning
  split at hmeaning
  · next hclosed =>
    cases hmeaning
    rcases denotes_of_closed hclosed with ⟨body, hcharacters, hdenotes⟩
    refine ⟨body ++ ['"'], ?_, ?_⟩
    · rw [string, hcharacters]
    · rw [List.append_assoc, List.singleton_append, string, hdenotes.stringTail_eq kept]
      rfl
  · cases hmeaning

/-- A colon that no equals sign follows is one also where the text is cut off. -/
theorem stable_colon : Stable ':' colon := by
  intro text kept lost kind spelling hmeaning hrest
  by_cases hequals : text.head? = some '='
  · cases text with
    | nil => cases hequals
    | cons d rest =>
      cases hequals
      cases hmeaning
      exact ⟨['='], rfl, rfl⟩
  · rw [colon_of_ne hequals] at hmeaning hrest ⊢
    have htext : text = kept ++ lost := hrest
    have hkept : kept.head? ≠ some '=' := by
      intro hkept
      rw [htext, List.head?_append, hkept] at hequals
      exact hequals rfl
    cases hmeaning
    exact ⟨[], rfl, colon_of_ne hkept⟩

theorem stable_dots : Stable '.' dots := by
  intro text kept lost kind spelling hmeaning hrest
  unfold dots stray at hmeaning
  split at hmeaning
  · cases hmeaning
    exact ⟨['.'], rfl, rfl⟩
  · cases hmeaning

/-- All tokens are read in the same way if the text behind them is cut off. -/
theorem stable_read (c : Char) : Stable c (read c) := by
  unfold read
  cases hsimple : simpleKind? c with
  | some kind =>
    intro text kept lost kind spelling hmeaning hrest
    cases hmeaning
    exact ⟨[], rfl, rfl⟩
  | none =>
    dsimp only
    split
    · exact stable_word c
    split
    · exact stable_number c
    split
    · next hquote =>
      rw [hquote]
      exact stable_string
    split
    · next hcolon =>
      rw [hcolon]
      exact stable_colon
    split
    · next hdot =>
      rw [hdot]
      exact stable_dots
    · intro text kept lost kind spelling hmeaning hrest
      cases hmeaning

end Lexeme

namespace Scan

open Lexeme (isBlank)

/-! ## Rows of tokens -/

/-- An item that is a token has the token as its meaning. -/
theorem meaning_of_ofMeaning_eq_token {start stop : Position} {meaning : Meaning} {token : Token}
    (hitem : Item.ofMeaning start stop meaning = .token token) :
    meaning = .token token.kind token.text ∧ token.start = start.offset ∧
      token.stop = stop.offset := by
  cases meaning with
  | token kind text =>
    cases hitem
    exact ⟨rfl, rfl, rfl⟩
  | mistake cause text => cases hitem

namespace Tiled

variable {start : Position} {text : List Char}

/-- The items after some others belong to the rest of the text. -/
theorem exists_rest {front items : List Item} (htiled : Tiled start text (front ++ items)) :
    ∃ before rest, text = before ++ rest ∧ Tiled (start.after before) rest items := by
  induction front generalizing start text with
  | nil => exact ⟨[], text, rfl, htiled⟩
  | cons item front ih =>
    generalize hrow : item :: front ++ items = row at htiled
    cases htiled with
    | blanks => cases hrow
    | @lexeme _ blanks others c more hblanks hfirst hmore =>
      rcases List.cons.inj hrow with ⟨-, rfl⟩
      rcases ih hmore with ⟨before, rest, hothers, hrest⟩
      refine ⟨blanks ++ ((Lexeme.read c others).characters ++ before), rest, ?_, ?_⟩
      · rw [List.append_assoc, List.append_assoc, ← hothers, Lexeme.characters_append_rest]
      · rwa [Position.after_append, Position.after_append]

/-- The first token stands behind blanks.  Before any front part of what comes after it,
its characters give the token. -/
theorem exists_characters {token : Token} {items : List Item}
    (htiled : Tiled start text (.token token :: items)) :
    ∃ blanks characters rest, text = blanks ++ (characters ++ rest) ∧
      (∀ c ∈ blanks, isBlank c = true) ∧ characters ≠ [] ∧
      token.start = (start.after blanks).offset ∧
      token.stop = ((start.after blanks).after characters).offset ∧
      Tiled ((start.after blanks).after characters) rest items ∧
      ∀ kept lost, rest = kept ++ lost → Gives characters kept [token.unplaced] := by
  generalize hrow : Item.token token :: items = row at htiled
  cases htiled with
  | blanks => cases hrow
  | @lexeme _ blanks others c more hblanks hfirst hmore =>
    rcases List.cons.inj hrow with ⟨hitem, rfl⟩
    rcases meaning_of_ofMeaning_eq_token hitem.symm with ⟨hmeaning, hstart, hstop⟩
    refine ⟨blanks, (Lexeme.read c others).characters, (Lexeme.read c others).rest, ?_, hblanks,
      Lexeme.characters_ne_nil c others, hstart, hstop, hmore, ?_⟩
    · rw [Lexeme.characters_append_rest]
    · intro kept lost hkept
      rcases Lexeme.stable_read c hmeaning hkept with ⟨tail, hcharacters, hread⟩
      rw [hcharacters]
      exact Gives.lexeme hfirst hread

/-- A row of tokens is a slice of the text, from the beginning of the first to the end of
the last one.  Before any front part of what comes after it, the slice gives these
tokens. -/
theorem exists_slice {token : Token} {tokens : List Token} {items : List Item}
    (htiled : Tiled start text ((token :: tokens).map Item.token ++ items)) :
    ∃ blanks slice rest, text = blanks ++ (slice ++ rest) ∧
      (∀ c ∈ blanks, isBlank c = true) ∧ slice ≠ [] ∧
      token.start = (start.after blanks).offset ∧
      ((token :: tokens).getLastD .missing).stop = ((start.after blanks).after slice).offset ∧
      ∀ kept lost, rest = kept ++ lost →
        Gives slice kept ((token :: tokens).map Token.unplaced) := by
  induction tokens generalizing start text token with
  | nil =>
    rcases htiled.exists_characters with
      ⟨blanks, characters, rest, htext, hblanks, hnonempty, hstart, hstop, -, hgives⟩
    exact ⟨blanks, characters, rest, htext, hblanks, hnonempty, hstart, hstop, hgives⟩
  | cons next tokens ih =>
    rcases htiled.exists_characters with
      ⟨blanks, characters, others, htext, hblanks, hnonempty, hstart, -, hmore, htoken⟩
    rcases ih hmore with ⟨gap, slice, rest, hothers, hgap, -, -, hlast, htokens⟩
    refine ⟨blanks, characters ++ (gap ++ slice), rest, ?_, hblanks, ?_, hstart, ?_, ?_⟩
    · simp [htext, hothers]
    · exact List.append_ne_nil_of_left_ne_nil hnonempty _
    · rw [Position.after_append, Position.after_append, ← hlast]
      rfl
    · intro kept lost hkept
      have hcut : others = (gap ++ slice ++ kept) ++ lost := by
        simp [hothers, hkept]
      exact Gives.cons (htoken _ lost hcut) (Gives.blanks hgap (htokens kept lost hkept))

end Tiled

end Scan

namespace TokenStream

/-! ## Slices of a source -/

/-- Without mistakes, the items of a source are its tokens. -/
theorem items_eq_map_pending {source : String} (hquiet : (ofSource source).diagnostics = []) :
    (Scan.ofText source.toList).items = (ofSource source).pending.map Item.token := by
  have hitems : ∀ items : List Item, items.filterMap Item.diagnostic? = [] →
      items = (items.filterMap Item.token?).map Item.token := by
    intro items hnone
    induction items with
    | nil => rfl
    | cons item items ih =>
      cases item with
      | token token =>
        have hmore := ih hnone
        simpa [Item.token?] using hmore
      | mistake diagnostic => cases hnone
  exact hitems _ hquiet

/-- A row of tokens of a source without mistakes, cut out of it, is read as these tokens
and without mistakes. -/
theorem exists_slice {source : String} (hquiet : (ofSource source).diagnostics = [])
    {front tokens back : List Token} (htokens : tokens ≠ [])
    (hpending : (ofSource source).pending = front ++ tokens ++ back) :
    ∃ slice, slice ≠ "" ∧ Source.slice? source (tokens.headD .missing).start
        (tokens.getLastD .missing).stop = some slice ∧
      (ofSource slice).diagnostics = [] ∧
      (ofSource slice).pending.map Token.unplaced = tokens.map Token.unplaced := by
  rcases List.exists_cons_of_ne_nil htokens with ⟨token, others, rfl⟩
  have htiled := tiled_ofSource source
  rw [items_eq_map_pending hquiet, hpending, List.append_assoc, List.map_append,
    List.map_append] at htiled
  rcases htiled.exists_rest with ⟨before, text, hsource, hrest⟩
  rcases hrest.exists_slice with
    ⟨blanks, slice, rest, htext, -, hnonempty, hstart, hstop, hgives⟩
  have hwhole : source.toList = (before ++ blanks) ++ (slice ++ rest) := by
    rw [hsource, htext, List.append_assoc]
  have hoffset : ∀ text, (Position.start.after text).offset = Source.byteSize text := by
    intro text
    rw [Position.offset_after]
    exact Nat.zero_add _
  rw [← Position.after_append, hoffset] at hstart
  rw [Position.offset_after, ← Position.after_append, hoffset] at hstop
  have hslice := Source.slice?_of_append hwhole
  rw [← hstop, ← hstart] at hslice
  have hread : Scan.Gives (String.ofList slice).toList []
      ((token :: others).map Token.unplaced) := by
    rw [String.toList_ofList]
    exact hgives [] rest rfl
  rcases ofSource_of_gives hread with ⟨hsame, hdiagnostics⟩
  refine ⟨String.ofList slice, ?_, hslice, hdiagnostics, hsame⟩
  intro hempty
  have hnil := congrArg String.toList hempty
  rw [String.toList_ofList] at hnil
  exact hnonempty hnil

end TokenStream

end LoopLang
