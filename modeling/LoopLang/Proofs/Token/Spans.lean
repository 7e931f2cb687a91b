import LoopLang.Proofs.Token.Spelling
import LoopLang.Proofs.Token.StringLiteral

/-!
# Spans

Reading a source cuts it into lexemes with blanks between them.  Each lexeme is
a token or a mistake and has the place of its characters, so the tokens and the
places of the mistakes share out all characters that are not blank.

Main definitions:

- `Scan.Tiled`: a text as a row of blanks and lexemes.
- `Item.place`: the token that stands for an item at its place.
- `Source.Accounts`: every character of a source is a blank or belongs to one of
  the pieces.
- `Token.Transcribes`: the text of a token is the one at its place.

Main results:

- Theorem `Scan.tiled_ofTextAt`: reading a text cuts it in this way.
- Theorem `Scan.Tiled.located`: an item comes from the lexeme at its place.
- Theorem `Scan.Tiled.ordered`: no item begins before the one in front of it ends.
- Theorem `Scan.Tiled.covered`: a character is a blank or lies in an item.
- Theorem `TokenStream.ofSource_accounts`: the pieces that a source is cut into.
-/

namespace LoopLang

/-! ## Offsets -/

/-- The size of a text is the sum of those of its parts. -/
theorem Source.byteSize_append (front rest : List Char) :
    byteSize (front ++ rest) = byteSize front + byteSize rest := by
  induction front with
  | nil => simp [byteSize]
  | cons c front ih =>
    simp only [List.cons_append, byteSize, ih]
    omega

/-- A text with a character has at least one byte. -/
theorem Source.byteSize_pos {text : List Char} (htext : text ≠ []) : 0 < byteSize text := by
  rcases List.exists_cons_of_ne_nil htext with ⟨c, rest, rfl⟩
  have hsize := Char.utf8Size_pos c
  simp only [byteSize]
  omega

/-- Reading moves a place on by the bytes that were read. -/
theorem Position.offset_after (pos : Position) (text : List Char) :
    (pos.after text).offset = pos.offset + Source.byteSize text := by
  induction text generalizing pos with
  | nil => rfl
  | cons c text ih =>
    have hnext : (pos.next c).offset = pos.offset + c.utf8Size := by
      unfold Position.next
      split <;> rfl
    rw [Position.after_cons, ih, hnext, Source.byteSize]
    omega

/-- The text between two offsets is the one that stands there. -/
theorem Source.slice?_of_append {source : String} {front slice rest : List Char}
    (hsource : source.toList = front ++ (slice ++ rest)) :
    Source.slice? source (byteSize front) (byteSize front + byteSize slice) =
      some (String.ofList slice) := by
  have hfront : splitBytes? (byteSize front) source.toList = some (front, slice ++ rest) :=
    splitBytes?_eq_some_iff.2 ⟨hsource.symm, rfl⟩
  have hslice : splitBytes? (byteSize slice) (slice ++ rest) = some (slice, rest) :=
    splitBytes?_eq_some_iff.2 ⟨rfl, rfl⟩
  have hsize : byteSize front + byteSize slice - byteSize front = byteSize slice := by omega
  simp only [Source.slice?, if_pos (Nat.le_add_right _ _), hfront, hsize, Option.bind_some, hslice,
    Option.map_some]

namespace Lexeme

/-! ## What a token was read from -/

/-- A literal with a closing quote stands for its content. -/
theorem denotes_of_closed {text : List Char} (hclosed : (stringTail text).closed = true) :
    ∃ spelling, (stringTail text).characters = spelling ++ ['"'] ∧
      Denotes spelling (stringTail text).content := by
  fun_induction stringTail text with
  | case1 => cases hclosed
  | case2 rest => exact ⟨[], rfl, .nil⟩
  | case3 => cases hclosed
  | case4 c rest ih =>
    rcases ih hclosed with ⟨spelling, hcharacters, hdenotes⟩
    refine ⟨'\\' :: c :: spelling, ?_, denotes_unescape c hdenotes⟩
    simp [StringTail.push, hcharacters]
  | case5 c rest hquote hlone hescape ih =>
    have hbackslash : c ≠ '\\' := by
      intro hc
      cases rest with
      | nil => exact hlone hc rfl
      | cons d more => exact hescape d more hc rfl
    rcases ih hclosed with ⟨spelling, hcharacters, hdenotes⟩
    refine ⟨c :: spelling, ?_, .plain hquote hbackslash hdenotes⟩
    simp [StringTail.push, hcharacters]

end Lexeme

/-- The characters that a token of a category and text is written with: a string
literal is quoted, and all other tokens are their own text. -/
def TokenKind.WrittenAs (kind : TokenKind) (text : String) (characters : List Char) : Prop :=
  if kind = .stringLiteral then
    ∃ body, characters = '"' :: (body ++ ['"']) ∧ Lexeme.Denotes body text.toList
  else characters = text.toList

/-- Any other token is written as its text. -/
theorem TokenKind.writtenAs_iff {kind : TokenKind} (hkind : kind ≠ .stringLiteral) {text : String}
    {characters : List Char} : kind.WrittenAs text characters ↔ characters = text.toList := by
  rw [WrittenAs, if_neg hkind]

namespace Lexeme

/-- A meaning that is a token is written with the characters. -/
def Transcribes (characters : List Char) : Meaning → Prop
  | .token kind text => kind.WrittenAs text characters
  | .mistake _ _ => True

/-- No character that is a lexeme of its own is a string literal. -/
theorem ne_stringLiteral_of_simpleKind? {c : Char} {kind : TokenKind}
    (hkind : simpleKind? c = some kind) : kind ≠ .stringLiteral := by
  rintro rfl
  unfold simpleKind? at hkind
  split at hkind <;> cases hkind

/-- No keyword is a string literal. -/
theorem ne_stringLiteral_of_keyword {word : String} {kind : TokenKind}
    (hfound : keywords.lookup word = some kind) : kind ≠ .stringLiteral := by
  rintro rfl
  rcases List.lookup_eq_some_iff.1 hfound with ⟨before, after, hsplit, -⟩
  have hmem : (word, TokenKind.stringLiteral) ∈ keywords := by
    rw [hsplit]
    exact List.mem_append_right before List.mem_cons_self
  simp [keywords] at hmem

/-- A word is written as its text. -/
theorem transcribes_word (characters : List Char) :
    Transcribes characters (wordMeaning (String.ofList characters)) := by
  have hself : ∀ kind : TokenKind, kind ≠ .stringLiteral →
      kind.WrittenAs (String.ofList characters) characters := by
    intro kind hkind
    rw [TokenKind.writtenAs_iff hkind, String.toList_ofList]
  unfold wordMeaning
  split
  · next kind hfound => exact hself kind (ne_stringLiteral_of_keyword hfound)
  · split
    · exact hself .booleanLiteral (by decide)
    · split
      · exact hself .identifier (by decide)
      · trivial

theorem transcribes_number (digits : List Char) : Transcribes digits (numberMeaning digits) := by
  unfold numberMeaning
  dsimp only
  split
  · rw [Transcribes, TokenKind.writtenAs_iff (by decide), String.toList_ofList]
  · trivial

/-- A string literal is written between quotes, as characters that stand for its text. -/
theorem transcribes_string (text : List Char) :
    Transcribes (string text).characters (string text).meaning := by
  unfold string
  dsimp only
  split
  · next hclosed =>
    rcases denotes_of_closed hclosed with ⟨body, hcharacters, hdenotes⟩
    rw [Transcribes, TokenKind.WrittenAs, if_pos rfl, hcharacters, String.toList_ofList]
    exact ⟨body, rfl, hdenotes⟩
  · trivial

/-- Every lexeme is written with its characters. -/
theorem transcribes_read (c : Char) (text : List Char) :
    Transcribes (read c text).characters (read c text).meaning := by
  unfold read
  split
  · next kind hsimple =>
    rw [Transcribes, TokenKind.writtenAs_iff (ne_stringLiteral_of_simpleKind? hsimple),
      String.toList_singleton]
  · split
    · exact transcribes_word _
    · split
      · exact transcribes_number _
      · split
        · exact transcribes_string text
        · split
          · unfold colon
            split <;> exact (TokenKind.writtenAs_iff (by decide)).2 rfl
          · split
            · unfold dots stray
              split
              · exact (TokenKind.writtenAs_iff (by decide)).2 rfl
              · trivial
            · trivial

end Lexeme

/-! ## Blanks and lexemes -/

/-- The token of an item; for a mistake, the token that it is anchored on. -/
def Item.place : Item → Token
  | token t => t
  | mistake d => d.anchor.getD .missing

@[simp]
theorem Item.start_place_ofMeaning (start stop : Position) (meaning : Meaning) :
    (ofMeaning start stop meaning).place.start = start.offset := by
  cases meaning <;> rfl

@[simp]
theorem Item.stop_place_ofMeaning (start stop : Position) (meaning : Meaning) :
    (ofMeaning start stop meaning).place.stop = stop.offset := by
  cases meaning <;> rfl

namespace Scan

open Lexeme

/-- From the given place on, the text is a row of blanks and lexemes, and each of
the items is one of the lexemes at its place. -/
inductive Tiled : Position → List Char → List Item → Prop where
  | blanks {start : Position} {text : List Char} (hblank : ∀ c ∈ text, isBlank c = true) :
      Tiled start text []
  | lexeme {start : Position} {blanks rest : List Char} {c : Char} {items : List Item}
      (hblanks : ∀ b ∈ blanks, isBlank b = true) (hfirst : isBlank c = false)
      (hmore : Tiled ((start.after blanks).after (Lexeme.read c rest).characters)
        (Lexeme.read c rest).rest items) :
      Tiled start (blanks ++ c :: rest)
        (.ofMeaning (start.after blanks)
          ((start.after blanks).after (Lexeme.read c rest).characters)
          (Lexeme.read c rest).meaning :: items)

/-- Reading a text cuts it into blanks and lexemes. -/
theorem tiled_ofTextAt (start : Position) (text : List Char) :
    Tiled start text (ofTextAt start text).items := by
  have hblanks : ∀ text : List Char, ∀ c ∈ text.takeWhile isBlank, isBlank c = true := by
    intro text
    exact List.all_eq_true.1 List.all_takeWhile
  fun_induction ofTextAt start text with
  | case1 start text pos hrest =>
    have hwhole : text.takeWhile isBlank = text := by
      have happend := List.takeWhile_append_dropWhile (p := isBlank) (l := text)
      rwa [hrest, List.append_nil] at happend
    apply Tiled.blanks
    rw [← hwhole]
    exact hblanks text
  | case2 start text pos c rest hrest lexeme stop more ih =>
    have hwhole : text = text.takeWhile isBlank ++ c :: rest := by
      rw [← hrest, List.takeWhile_append_dropWhile]
    have hfirst : isBlank c = false := by
      have hstops := List.head?_dropWhile_not isBlank text
      simpa [hrest] using hstops
    have htiled := Tiled.lexeme (hblanks text) hfirst ih
    rw [← hwhole] at htiled
    exact htiled

namespace Tiled

variable {start : Position} {text : List Char} {items : List Item}

/-- An item comes from the lexeme at its place, which does not begin with a
blank. -/
theorem located (htiled : Tiled start text items) :
    ∀ item ∈ items, ∃ front c rest, text = front ++ c :: rest ∧ isBlank c = false ∧
      item = .ofMeaning (start.after front)
        ((start.after front).after (Lexeme.read c rest).characters)
        (Lexeme.read c rest).meaning := by
  induction htiled with
  | blanks => simp
  | @lexeme start blanks rest c items hblanks hfirst hmore ih =>
    intro item hitem
    rcases List.mem_cons.1 hitem with rfl | hitem
    · exact ⟨blanks, c, rest, rfl, hfirst, rfl⟩
    · rcases ih item hitem with ⟨front, d, others, hrest, hlater, rfl⟩
      refine ⟨blanks ++ ((Lexeme.read c rest).characters ++ front), d, others, ?_, hlater, ?_⟩
      · rw [List.append_assoc, List.append_assoc, ← hrest, characters_append_rest]
      · rw [Position.after_append, Position.after_append]

/-- No item begins before the place where the text does. -/
theorem offset_le_start (htiled : Tiled start text items) :
    ∀ item ∈ items, start.offset ≤ item.place.start := by
  intro item hitem
  rcases htiled.located item hitem with ⟨front, c, rest, -, -, rfl⟩
  rw [Item.start_place_ofMeaning, Position.offset_after]
  omega

/-- No item begins before the one in front of it ends. -/
theorem ordered (htiled : Tiled start text items) :
    items.Pairwise fun item later => item.place.stop ≤ later.place.start := by
  induction htiled with
  | blanks => exact .nil
  | lexeme hblanks hfirst hmore ih =>
    refine .cons ?_ ih
    intro later hlater
    rw [Item.stop_place_ofMeaning]
    exact hmore.offset_le_start later hlater

end Tiled

/-- A character of two joined texts belongs to the first or to the second one. -/
theorem exists_split_of_append {first second front back : List Char} {c : Char}
    (htext : first ++ second = front ++ c :: back) :
    (∃ more, first = front ++ c :: more) ∨
      ∃ others, front = first ++ others ∧ second = others ++ c :: back := by
  rcases List.append_eq_append_iff.1 htext with ⟨others, hfront, hsecond⟩ | ⟨more, hfirst, hback⟩
  · exact .inr ⟨others, hfront, hsecond⟩
  · cases more with
    | nil =>
      refine .inr ⟨[], ?_, hback.symm⟩
      rw [hfirst, List.append_nil, List.append_nil]
    | cons d more =>
      rw [List.cons_append, List.cons.injEq] at hback
      exact .inl ⟨more, by rw [hfirst, hback.1]⟩

/-- A character is a blank or lies in an item. -/
theorem Tiled.covered {start : Position} {text : List Char} {items : List Item}
    (htiled : Tiled start text items) {front back : List Char} {c : Char}
    (htext : text = front ++ c :: back) :
    isBlank c = true ∨ ∃ item ∈ items,
      item.place.start ≤ start.offset + Source.byteSize front ∧
        start.offset + Source.byteSize front + c.utf8Size ≤ item.place.stop := by
  induction htiled generalizing front with
  | blanks hblank =>
    have hmem : c ∈ front ++ c :: back := by simp
    exact .inl (hblank c (by rwa [htext]))
  | @lexeme start blanks rest d items hblanks hfirst hmore ih =>
    rw [← characters_append_rest] at htext
    rcases exists_split_of_append htext with ⟨others, hsplit⟩ | ⟨inner, hfront, hinner⟩
    · have hmem : c ∈ front ++ c :: others := by simp
      exact .inl (hblanks c (by rwa [hsplit]))
    rcases exists_split_of_append hinner with ⟨others, hsplit⟩ | ⟨later, hlater, hrest⟩
    · refine .inr ⟨_, List.mem_cons_self, ?_, ?_⟩
      · rw [Item.start_place_ofMeaning, Position.offset_after, hfront, Source.byteSize_append]
        omega
      · rw [Item.stop_place_ofMeaning, Position.offset_after, Position.offset_after, hfront,
          hsplit, Source.byteSize_append, Source.byteSize_append, Source.byteSize]
        omega
    · rcases ih hrest with hblank | ⟨item, hitem, hstart, hstop⟩
      · exact .inl hblank
      · rw [Position.offset_after, Position.offset_after] at hstart hstop
        rw [hfront, hlater, Source.byteSize_append, Source.byteSize_append]
        exact .inr ⟨item, List.mem_cons_of_mem _ hitem, by omega, by omega⟩

end Scan

/-! ## The pieces of a source -/

namespace Scan

/-- The tokens of a row of items and the places of its mistakes can be told apart
by their categories. -/
theorem filter_place {items : List Item}
    (hitems : ∀ item ∈ items, ∃ start stop meaning, item = .ofMeaning start stop meaning ∧
      Lexeme.Fits meaning) :
    (items.map Item.place).filter (fun piece => !piece.isMissing) = items.filterMap Item.token? ∧
      ((items.map Item.place).filter Token.isMissing).map some =
        (items.filterMap Item.diagnostic?).map Diagnostic.anchor := by
  induction items with
  | nil => exact ⟨rfl, rfl⟩
  | cons item items ih =>
    rcases List.forall_mem_cons.1 hitems with ⟨⟨start, stop, meaning, rfl, hfits⟩, hmore⟩
    rcases ih hmore with ⟨htokens, hmistakes⟩
    cases meaning with
    | token kind text =>
      have hkind : kind ≠ .missing := by
        rintro rfl
        exact hfits
      have hpresent : (Token.between start stop kind text).isMissing = false :=
        beq_eq_false_iff_ne.2 hkind
      simp [Item.ofMeaning, Item.place, Item.token?, Item.diagnostic?, List.filterMap_cons,
        hpresent, htokens, hmistakes]
    | mistake cause text =>
      have hmissing : (Token.between start stop .missing text).isMissing = true := rfl
      simp [Item.ofMeaning, Item.place, Item.token?, Item.diagnostic?, Diagnostic.about,
        List.filterMap_cons, hmissing, htokens, hmistakes]

end Scan

/-- Every character of the source is a blank or belongs to exactly one of the
pieces, which stand in the order of the source. -/
structure Source.Accounts (source : String) (pieces : List Token) : Prop where
  /-- No piece is empty. -/
  nonempty : ∀ piece ∈ pieces, piece.start < piece.stop
  /-- The ends of a piece stand between characters of the source. -/
  bounded : ∀ piece ∈ pieces, ∃ text, Source.slice? source piece.start piece.stop = some text
  /-- No two pieces overlap, and the earlier one comes first. -/
  ordered : pieces.Pairwise fun piece later => piece.stop ≤ later.start
  /-- What lies in no piece is one of the four blanks. -/
  covered : ∀ front c back, source.toList = front ++ c :: back →
    c ∈ [' ', '\t', '\r', '\n'] ∨ ∃ piece ∈ pieces, piece.start ≤ Source.byteSize front ∧
      Source.byteSize front + c.utf8Size ≤ piece.stop

/-- The source has the token's text at the token's place. -/
def Token.Transcribes (source : String) (token : Token) : Prop :=
  ∃ characters, Source.slice? source token.start token.stop = some (String.ofList characters) ∧
    token.kind.WrittenAs token.text characters

namespace TokenStream

/-- The tokens and the places of the mistakes of a source, in one row. -/
def pieces (source : String) : List Token :=
  (Scan.ofText source.toList).items.map Item.place

/-- A source is a row of blanks and lexemes. -/
theorem tiled_ofSource (source : String) :
    Scan.Tiled .start source.toList (Scan.ofText source.toList).items :=
  Scan.tiled_ofTextAt .start source.toList

/-- An item of a source comes from the characters at its place. -/
theorem slice?_of_mem_items {source : String} {item : Item}
    (hitem : item ∈ (Scan.ofText source.toList).items) :
    ∃ c rest start stop, item = .ofMeaning start stop (Lexeme.read c rest).meaning ∧
      start.offset < stop.offset ∧ Source.slice? source start.offset stop.offset =
        some (String.ofList (Lexeme.read c rest).characters) := by
  rcases (tiled_ofSource source).located item hitem with ⟨front, c, rest, hsource, -, rfl⟩
  have hnonempty := Source.byteSize_pos (Lexeme.characters_ne_nil c rest)
  have hstart : (Position.start.after front).offset = Source.byteSize front := by
    rw [Position.offset_after]
    exact Nat.zero_add _
  have hstop : ((Position.start.after front).after (Lexeme.read c rest).characters).offset =
      Source.byteSize front + Source.byteSize (Lexeme.read c rest).characters := by
    rw [Position.offset_after, hstart]
  rw [← Lexeme.characters_append_rest] at hsource
  refine ⟨c, rest, _, _, rfl, by omega, ?_⟩
  rw [hstart, hstop]
  exact Source.slice?_of_append hsource

/-- The pieces of a source account for all its characters. -/
theorem accounts_pieces (source : String) : Source.Accounts source (pieces source) := by
  have htiled := tiled_ofSource source
  constructor
  · intro piece hpiece
    rcases List.mem_map.1 hpiece with ⟨item, hitem, rfl⟩
    rcases slice?_of_mem_items hitem with ⟨c, rest, start, stop, rfl, hnonempty, -⟩
    simpa using hnonempty
  · intro piece hpiece
    rcases List.mem_map.1 hpiece with ⟨item, hitem, rfl⟩
    rcases slice?_of_mem_items hitem with ⟨c, rest, start, stop, rfl, -, hslice⟩
    rw [Item.start_place_ofMeaning, Item.stop_place_ofMeaning]
    exact ⟨_, hslice⟩
  · exact List.pairwise_map.2 htiled.ordered
  · intro front c back hsource
    have hzero : ∀ n, Position.start.offset + n = n := Nat.zero_add
    rcases htiled.covered hsource with hblank | ⟨item, hitem, hstart, hstop⟩
    · exact .inl (Lexeme.isBlank_iff.1 hblank)
    · rw [hzero] at hstart hstop
      exact .inr ⟨item.place, List.mem_map_of_mem hitem, hstart, hstop⟩

/-- The pieces are the tokens and the places of the mistakes. -/
theorem filter_pieces (source : String) :
    (pieces source).filter (fun piece => !piece.isMissing) = (ofSource source).pending ∧
      ((pieces source).filter Token.isMissing).map some =
        (ofSource source).diagnostics.map Diagnostic.anchor := by
  apply Scan.filter_place
  intro item hitem
  rcases slice?_of_mem_items hitem with ⟨c, rest, start, stop, rfl, -⟩
  exact ⟨start, stop, _, rfl, Lexeme.fits_read c rest⟩

/-- The tokens of a source stand in its order and do not overlap. -/
theorem pairwise_pending (source : String) :
    (ofSource source).pending.Pairwise fun token later => token.stop ≤ later.start := by
  rw [← (filter_pieces source).1]
  exact (accounts_pieces source).ordered.filter _

/-- No token of a source is empty. -/
theorem start_lt_stop_of_mem_pending {source : String} {token : Token}
    (htoken : token ∈ (ofSource source).pending) : token.start < token.stop := by
  rw [← (filter_pieces source).1] at htoken
  exact (accounts_pieces source).nonempty token (List.mem_filter.1 htoken).1

/-- A token of a source has the text that stands at its place. -/
theorem transcribes_of_mem_pending {source : String} {token : Token}
    (htoken : token ∈ (ofSource source).pending) : token.Transcribes source := by
  have hitems : token ∈ (Scan.ofText source.toList).items.filterMap Item.token? := htoken
  rcases List.mem_filterMap.1 hitems with ⟨item, hitem, hsome⟩
  rcases slice?_of_mem_items hitem with ⟨c, rest, start, stop, rfl, -, hslice⟩
  have hwritten := Lexeme.transcribes_read c rest
  cases hmeaning : (Lexeme.read c rest).meaning with
  | token kind text =>
    rw [hmeaning] at hsome hwritten
    cases hsome
    exact ⟨_, hslice, hwritten⟩
  | mistake cause text =>
    rw [hmeaning] at hsome
    cases hsome

/-- Reading a source accounts for every character exactly once.  The tokens and
the places of the mistakes, merged into one row, are not empty, do not overlap,
stand between characters, and leave out nothing but blanks.  Both come in the
order of the source.  Each token has the text that stands at its place, and a
string literal denotes what is quoted there. -/
theorem ofSource_accounts (source : String) :
    (∃ pieces, pieces.filter (fun piece => !piece.isMissing) = (ofSource source).pending ∧
      (pieces.filter Token.isMissing).map some =
        (ofSource source).diagnostics.map Diagnostic.anchor ∧
      Source.Accounts source pieces) ∧
    ((ofSource source).pending.Pairwise fun token later => token.stop ≤ later.start) ∧
    (((ofSource source).diagnostics.filterMap Diagnostic.anchor).Pairwise
      fun anchor later => anchor.stop ≤ later.start) ∧
    ∀ token ∈ (ofSource source).pending, token.Transcribes source := by
  rcases filter_pieces source with ⟨htokens, hmistakes⟩
  have haccounts := accounts_pieces source
  have hanchors : (ofSource source).diagnostics.filterMap Diagnostic.anchor =
      (pieces source).filter Token.isMissing := by
    calc (ofSource source).diagnostics.filterMap Diagnostic.anchor
        = ((ofSource source).diagnostics.map Diagnostic.anchor).filterMap id := by
          rw [List.filterMap_map]
          rfl
      _ = (((pieces source).filter Token.isMissing).map some).filterMap id := by rw [hmistakes]
      _ = (pieces source).filter Token.isMissing := by
          rw [List.filterMap_map]
          exact List.filterMap_some
  refine ⟨⟨pieces source, htokens, hmistakes, haccounts⟩, pairwise_pending source, ?_, ?_⟩
  · rw [hanchors]
    exact haccounts.ordered.filter _
  · intro token htoken
    exact transcribes_of_mem_pending htoken

end TokenStream

end LoopLang
