import LoopLang.Token.Stream

/-!
# Scanning piece by piece

A text that is put together from lexemes is read as these lexemes, if each of
them ends where the next one begins.  What a lexeme is does not depend on its
place, so tokens are compared without their places.

Main definitions:

- `Token.unplaced`: a token without its place.
- `Lexeme.Separates`: no word and no number goes on in the text.
- `Scan.Gives`: before a given rest, the text is read as the given tokens.

Main results:

- Theorem `Lexeme.read_again`: a lexeme is read again from its own characters.
- Theorem `Scan.Gives.append`: two texts, one after the other.
- Theorem `Scan.gives_of_mem_tokens`: the text of a token gives the token back.
- Theorem `TokenStream.ofSource_of_gives`: a text that gives tokens is read
  without mistakes.
-/

namespace LoopLang

/-! ## Tokens without places -/

/-- A token of the given category and text that has no place. -/
def Token.bare (kind : TokenKind) (text : String) : Token :=
  ⟨kind, text, 0, 0, 0, 0⟩

/-- A token without its place. -/
def Token.unplaced (token : Token) : Token :=
  .bare token.kind token.text

@[simp]
theorem Token.kind_unplaced (token : Token) : token.unplaced.kind = token.kind := rfl

@[simp]
theorem Token.text_unplaced (token : Token) : token.unplaced.text = token.text := rfl

/-- Tokens are the same without places if their categories and texts are. -/
theorem Token.unplaced_eq_iff {token other : Token} :
    token.unplaced = other.unplaced ↔ token.kind = other.kind ∧ token.text = other.text := by
  simp [unplaced, bare]

namespace Lexeme

/-! ## Lexemes before other texts -/

/-- The characters between lexemes are the space, the tab and both line ends. -/
theorem isBlank_iff {c : Char} : isBlank c = true ↔ c ∈ [' ', '\t', '\r', '\n'] := by
  simp only [isBlank, Bool.or_eq_true, beq_iff_eq, List.mem_cons, List.not_mem_nil, or_false,
    or_assoc]
  exact or_congr_right (or_congr_right or_comm)

/-- No word and no number goes on in the text. -/
def Separates (rest : List Char) : Prop :=
  ∀ c, rest.head? = some c → endsWord c = true

/-- A character that ends words separates what comes before it. -/
theorem separates_cons {c : Char} (hends : endsWord c = true) (rest : List Char) :
    Separates (c :: rest) := by
  intro d hd
  cases hd
  exact hends

/-- Digits do not end words. -/
theorem isDigit_eq_false {c : Char} (hends : endsWord c = true) : c.isDigit = false := by
  have hmem : c ∈ ['(', ')', '<', '=', '&', '+', '-', '*', '/', '!', ';', ' ', '\t', '\n', '\r',
      '.', ':', '"'] := by
    simp only [endsWord, isBlank, Bool.or_eq_true, beq_iff_eq, or_assoc] at hends
    unfold simpleKind? at hends
    split at hends <;> simp_all
  have hall : ['(', ')', '<', '=', '&', '+', '-', '*', '/', '!', ';', ' ', '\t', '\n', '\r',
      '.', ':', '"'].all (fun d => !d.isDigit) = true := by
    decide
  simpa using List.all_eq_true.1 hall c hmem

/-- A maximal run ends where its text is cut. -/
theorem takeWhile_append_eq {p : Char → Bool} {run rest : List Char}
    (hrun : ∀ c ∈ run, p c = true) (hrest : ∀ c, rest.head? = some c → p c = false) :
    (run ++ rest).takeWhile p = run ∧ (run ++ rest).dropWhile p = rest := by
  rw [List.takeWhile_append_of_pos hrun, List.dropWhile_append_of_pos hrun]
  cases rest with
  | nil => simp
  | cons c rest => simp [hrest c rfl]

/-- A word is read up to a text that no word goes on in. -/
theorem word_append {first : Char} {more rest : List Char}
    (hmore : ∀ c ∈ more, (!endsWord c) = true) (hrest : Separates rest) :
    word first (more ++ rest) =
      ⟨first :: more, rest, wordMeaning (String.ofList (first :: more))⟩ := by
  have hstop : ∀ c, rest.head? = some c → (!endsWord c) = false := by
    intro c hc
    rw [hrest c hc]
    rfl
  rcases takeWhile_append_eq hmore hstop with ⟨htake, hdrop⟩
  rw [word, htake, hdrop]

/-- A number is read up to a text that no number goes on in. -/
theorem number_append {first : Char} {more rest : List Char}
    (hmore : ∀ c ∈ more, c.isDigit = true)
    (hrest : ∀ c, rest.head? = some c → c.isDigit = false) :
    number first (more ++ rest) = ⟨first :: more, rest, numberMeaning (first :: more)⟩ := by
  rcases takeWhile_append_eq hmore hrest with ⟨htake, hdrop⟩
  rw [number, htake, hdrop]

/-- A token that is a word has the word as its text. -/
theorem text_of_wordMeaning {word text : String} {kind : TokenKind}
    (hmeaning : wordMeaning word = .token kind text) : text = word := by
  unfold wordMeaning at hmeaning
  split at hmeaning
  · cases hmeaning
    rfl
  · split at hmeaning
    · cases hmeaning
      rfl
    · split at hmeaning <;> cases hmeaning
      rfl

/-- A token that is a number has its digits as its text. -/
theorem text_of_numberMeaning {digits : List Char} {text : String} {kind : TokenKind}
    (hmeaning : numberMeaning digits = .token kind text) : text = String.ofList digits := by
  unfold numberMeaning at hmeaning
  dsimp only at hmeaning
  split at hmeaning <;> cases hmeaning
  rfl

/-- A character that is a lexeme of its own. -/
theorem read_of_simpleKind? {c : Char} {kind : TokenKind} (hsimple : simpleKind? c = some kind)
    (text : List Char) : read c text = ⟨[c], text, .token kind (String.singleton c)⟩ := by
  unfold read
  rw [hsimple]

/-- A lexeme that begins with an alphabetic character is a word. -/
theorem read_of_beginsWord {c : Char} (hsimple : simpleKind? c = none)
    (hbegins : beginsWord c = true) (text : List Char) : read c text = word c text := by
  unfold read
  rw [hsimple]
  exact if_pos hbegins

/-- A lexeme that begins with a digit is a number. -/
theorem read_of_isDigit {c : Char} (hsimple : simpleKind? c = none)
    (hbegins : ¬beginsWord c = true) (hdigit : c.isDigit = true) (text : List Char) :
    read c text = number c text := by
  unfold read
  rw [hsimple]
  exact (if_neg hbegins).trans (if_pos hdigit)

theorem beginsWord_quote : beginsWord '"' = false := by
  decide +kernel

theorem beginsWord_colon : beginsWord ':' = false := by
  decide +kernel

theorem beginsWord_dot : beginsWord '.' = false := by
  decide +kernel

/-- A quote begins a string literal. -/
theorem read_quote (text : List Char) : read '"' text = string text := by
  simp [read, simpleKind?, beginsWord_quote]

theorem read_colon (text : List Char) : read ':' text = colon text := by
  simp [read, simpleKind?, beginsWord_colon]

theorem read_dot (text : List Char) : read '.' text = dots text := by
  simp [read, simpleKind?, beginsWord_dot]

/-- A colon is no assignment sign without an equals sign behind it. -/
theorem colon_of_ne {text : List Char} (hequals : text.head? ≠ some '=') :
    colon text = ⟨[':'], text, .token .colon ":"⟩ := by
  unfold colon
  split
  · exact absurd rfl hequals
  · rfl

/-- Only the keywords of the table have the categories of keywords. -/
theorem mem_keywords_of_wordMeaning {word text other : String} {kind : TokenKind}
    (hmeaning : wordMeaning word = .token kind text) (hother : (other, kind) ∈ keywords) :
    (text, kind) ∈ keywords := by
  unfold wordMeaning at hmeaning
  split at hmeaning
  · next hfound =>
    cases hmeaning
    rcases List.lookup_eq_some_iff.1 hfound with ⟨before, after, hsplit, -⟩
    rw [hsplit]
    exact List.mem_append_right before List.mem_cons_self
  · split at hmeaning
    · cases hmeaning
      simp [keywords] at hother
    · split at hmeaning <;> cases hmeaning
      simp [keywords] at hother

/-- The tokens that lexemes are, by the forms of lexemes. -/
theorem read_token_cases {c : Char} {text : List Char} {kind : TokenKind} {spelling : String}
    (hmeaning : (read c text).meaning = .token kind spelling) :
    (simpleKind? c = some kind ∧ spelling = String.singleton c) ∨
      (simpleKind? c = none ∧ beginsWord c = true ∧ (word c text).meaning = .token kind spelling) ∨
      (simpleKind? c = none ∧ ¬beginsWord c = true ∧ c.isDigit = true ∧ kind = .integerLiteral ∧
        (number c text).meaning = .token kind spelling) ∨
      kind = .stringLiteral ∨ (c = ':' ∧ kind = .colon ∧ spelling = ":") ∨
      (c = ':' ∧ kind = .assignment ∧ spelling = ":=") ∨
      (c = '.' ∧ kind = .range ∧ spelling = "..") := by
  unfold read at hmeaning
  split at hmeaning
  · next hsimple =>
    cases hmeaning
    exact .inl ⟨hsimple, rfl⟩
  next hsimple =>
  split at hmeaning
  · next hbegins => exact .inr (.inl ⟨hsimple, hbegins, hmeaning⟩)
  next hbegins =>
  split at hmeaning
  · next hdigit =>
    refine .inr (.inr (.inl ⟨hsimple, hbegins, hdigit, ?_, hmeaning⟩))
    unfold number numberMeaning at hmeaning
    dsimp only at hmeaning
    split at hmeaning <;> cases hmeaning
    rfl
  split at hmeaning
  · unfold string at hmeaning
    dsimp only at hmeaning
    split at hmeaning <;> cases hmeaning
    simp
  split at hmeaning
  · next hcolon =>
    unfold colon at hmeaning
    split at hmeaning <;> cases hmeaning <;> simp [hcolon]
  split at hmeaning
  · next hdot =>
    unfold dots stray at hmeaning
    split at hmeaning <;> cases hmeaning
    simp [hdot]
  · cases hmeaning

/-- A lexeme with the category of a keyword is that keyword. -/
theorem mem_keywords_of_read {c : Char} {text : List Char} {kind : TokenKind}
    {spelling other : String} (hmeaning : (read c text).meaning = .token kind spelling)
    (hother : (other, kind) ∈ keywords) : (spelling, kind) ∈ keywords := by
  rcases read_token_cases hmeaning with ⟨hsimple, -⟩ | ⟨-, -, hword⟩ | ⟨-, -, -, rfl, -⟩ | rfl |
    ⟨-, rfl, -⟩ | ⟨-, rfl, -⟩ | ⟨-, rfl, -⟩
  · unfold simpleKind? at hsimple
    split at hsimple <;> cases hsimple <;> simp [keywords] at hother
  · exact mem_keywords_of_wordMeaning hword hother
  all_goals simp [keywords] at hother

/-- A token other than a string literal is read again from its own characters, before
every text that separates.  A colon must not get an equals sign behind it. -/
theorem read_again {c : Char} {text : List Char} {kind : TokenKind} {spelling : String}
    (hmeaning : (read c text).meaning = .token kind spelling) (hstring : kind ≠ .stringLiteral)
    {rest : List Char} (hrest : Separates rest) (hcolon : kind = .colon → rest.head? ≠ some '=') :
    ∃ more, spelling.toList = c :: more ∧
      read c (more ++ rest) = ⟨c :: more, rest, .token kind spelling⟩ := by
  rcases read_token_cases hmeaning with ⟨hsimple, rfl⟩ | ⟨hsimple, hbegins, hword⟩ |
    ⟨hsimple, hbegins, hdigit, -, hnumber⟩ | rfl | ⟨rfl, rfl, rfl⟩ | ⟨rfl, rfl, rfl⟩ |
    ⟨rfl, rfl, rfl⟩
  · exact ⟨[], String.toList_singleton c, read_of_simpleKind? hsimple rest⟩
  · have hmore : ∀ d ∈ text.takeWhile (fun d => !endsWord d), (!endsWord d) = true :=
      List.all_eq_true.1 List.all_takeWhile
    refine ⟨text.takeWhile fun d => !endsWord d, ?_, ?_⟩
    · rw [text_of_wordMeaning hword, String.toList_ofList]
    · rw [read_of_beginsWord hsimple hbegins, word_append hmore hrest]
      exact congrArg (Lexeme.mk _ _) hword
  · have hmore : ∀ d ∈ text.takeWhile Char.isDigit, d.isDigit = true :=
      List.all_eq_true.1 List.all_takeWhile
    have hstop : ∀ d, rest.head? = some d → d.isDigit = false := by
      intro d hd
      exact isDigit_eq_false (hrest d hd)
    refine ⟨text.takeWhile Char.isDigit, ?_, ?_⟩
    · rw [text_of_numberMeaning hnumber, String.toList_ofList]
    · rw [read_of_isDigit hsimple hbegins hdigit, number_append hmore hstop]
      exact congrArg (Lexeme.mk _ _) hnumber
  · exact absurd rfl hstring
  · exact ⟨[], rfl, (read_colon rest).trans (colon_of_ne (hcolon rfl))⟩
  · exact ⟨['='], rfl, read_colon _⟩
  · exact ⟨['.'], rfl, read_dot _⟩

end Lexeme

namespace Scan

/-! ## Texts before other texts -/

open Lexeme

/-- Where only blanks are left, nothing is read. -/
theorem items_of_dropWhile_eq_nil {text : List Char} (htext : text.dropWhile isBlank = [])
    (start : Position) : (ofTextAt start text).items = [] := by
  rw [ofTextAt]
  split
  · rfl
  · next c rest hcons =>
    rw [htext] at hcons
    cases hcons

/-- After the blanks, one lexeme is read and then the rest. -/
theorem items_of_dropWhile_eq_cons {text rest : List Char} {c : Char}
    (htext : text.dropWhile isBlank = c :: rest) (start : Position) :
    (ofTextAt start text).items =
      .ofMeaning (start.after (text.takeWhile isBlank))
          ((start.after (text.takeWhile isBlank)).after (Lexeme.read c rest).characters)
          (Lexeme.read c rest).meaning ::
        (ofTextAt ((start.after (text.takeWhile isBlank)).after (Lexeme.read c rest).characters)
          (Lexeme.read c rest).rest).items := by
  rw [ofTextAt]
  split
  · next hnil =>
    rw [htext] at hnil
    cases hnil
  · next d others hcons =>
    rw [htext] at hcons
    cases hcons
    rfl

/-- Blanks are passed over. -/
theorem items_blank {c : Char} (hblank : isBlank c = true) (start : Position) (rest : List Char) :
    (ofTextAt start (c :: rest)).items = (ofTextAt (start.next c) rest).items := by
  have hdrop : (c :: rest).dropWhile isBlank = rest.dropWhile isBlank := by simp [hblank]
  have htake : start.after ((c :: rest).takeWhile isBlank) =
      (start.next c).after (rest.takeWhile isBlank) := by
    simp [hblank]
  cases hrest : rest.dropWhile isBlank with
  | nil => rw [items_of_dropWhile_eq_nil hrest, items_of_dropWhile_eq_nil (hdrop.trans hrest)]
  | cons d others =>
    rw [items_of_dropWhile_eq_cons hrest, items_of_dropWhile_eq_cons (hdrop.trans hrest), htake]

/-- A lexeme is read where a text begins with it. -/
theorem items_lexeme {c : Char} (hblank : isBlank c = false) (start : Position)
    (rest : List Char) :
    (ofTextAt start (c :: rest)).items =
      .ofMeaning start (start.after (Lexeme.read c rest).characters)
          (Lexeme.read c rest).meaning ::
        (ofTextAt (start.after (Lexeme.read c rest).characters)
          (Lexeme.read c rest).rest).items := by
  have hdrop : (c :: rest).dropWhile isBlank = c :: rest := by simp [hblank]
  have htake : (c :: rest).takeWhile isBlank = [] := by simp [hblank]
  rw [items_of_dropWhile_eq_cons hdrop, htake, Position.after_nil]

/-- Before the given rest, the text is read as the given tokens, whose places are
not looked at. -/
def Gives (text rest : List Char) (tokens : List Token) : Prop :=
  ∀ start, ∃ (found : List Token) (pos : Position), found.map Token.unplaced = tokens ∧
    (ofTextAt start (text ++ rest)).items = found.map Item.token ++ (ofTextAt pos rest).items

namespace Gives

variable {text others rest : List Char} {tokens more : List Token}

theorem nil (rest : List Char) : Gives [] rest [] :=
  fun start => ⟨[], start, rfl, rfl⟩

/-- Two texts, one after the other. -/
theorem append (htext : Gives text (others ++ rest) tokens) (hothers : Gives others rest more) :
    Gives (text ++ others) rest (tokens ++ more) := by
  intro start
  rcases htext start with ⟨found, middle, htokens, hfound⟩
  rcases hothers middle with ⟨next, pos, hmore, hnext⟩
  refine ⟨found ++ next, pos, by rw [List.map_append, htokens, hmore], ?_⟩
  rw [List.append_assoc, hfound, hnext, List.map_append, List.append_assoc]

/-- A text of one token and the text after it. -/
theorem cons {token : Token} (htext : Gives text (others ++ rest) [token])
    (hothers : Gives others rest more) : Gives (text ++ others) rest (token :: more) :=
  htext.append hothers

/-- Blanks between two texts give nothing. -/
theorem blank {c : Char} (hblank : isBlank c = true) (hothers : Gives others rest tokens) :
    Gives (c :: others) rest tokens := by
  intro start
  rcases hothers (start.next c) with ⟨found, pos, htokens, hfound⟩
  refine ⟨found, pos, htokens, ?_⟩
  rw [List.cons_append, items_blank hblank, hfound]

/-- Any number of blanks gives nothing. -/
theorem blanks {gap : List Char} (hgap : ∀ c ∈ gap, isBlank c = true)
    (hothers : Gives others rest tokens) : Gives (gap ++ others) rest tokens := by
  induction gap with
  | nil => exact hothers
  | cons c gap ih =>
    rcases List.forall_mem_cons.1 hgap with ⟨hblank, hmore⟩
    exact (ih hmore).blank hblank

/-- A space in front of a text gives no token. -/
theorem space (hothers : Gives others rest tokens) : Gives (" ".toList ++ others) rest tokens :=
  hothers.blank rfl

/-- A lexeme gives its token. -/
theorem lexeme {c : Char} {characters : List Char} {kind : TokenKind} {spelling : String}
    (hblank : isBlank c = false)
    (hread : Lexeme.read c (characters ++ rest) = ⟨c :: characters, rest, .token kind spelling⟩) :
    Gives (c :: characters) rest [.bare kind spelling] := by
  intro start
  refine ⟨[Token.between start (start.after (c :: characters)) kind spelling],
    start.after (c :: characters), rfl, ?_⟩
  rw [List.cons_append, items_lexeme hblank, hread]
  rfl

end Gives

/-! ## Single tokens -/

/-- No blank is a lexeme of its own. -/
theorem isBlank_eq_false_of_simpleKind? {c : Char} {kind : TokenKind}
    (hkind : simpleKind? c = some kind) : isBlank c = false := by
  unfold simpleKind? at hkind
  split at hkind <;> first | rfl | cases hkind

/-- A character that is a lexeme of its own. -/
theorem gives_simple {c : Char} {kind : TokenKind} (hkind : simpleKind? c = some kind)
    (rest : List Char) : Gives [c] rest [.bare kind (String.singleton c)] := by
  exact Gives.lexeme (isBlank_eq_false_of_simpleKind? hkind) (read_of_simpleKind? hkind rest)

/-- The keywords are made of letters and stand in their table. -/
theorem keywords_spelled : ∀ entry ∈ keywords, wordMeaning entry.1 = .token entry.2 entry.1 ∧
    ∃ c more, entry.1.toList = c :: more ∧ c.isAlpha = true ∧ simpleKind? c = none ∧
      isBlank c = false ∧ ∀ d ∈ more, (!endsWord d) = true := by
  intro entry hentry
  simp only [keywords, List.mem_cons, List.not_mem_nil, or_false] at hentry
  rcases hentry with rfl | rfl | rfl | rfl | rfl | rfl | rfl | rfl | rfl | rfl | rfl <;>
    exact ⟨by decide, _, _, rfl, by decide, rfl, rfl, List.all_eq_true.1 rfl⟩

/-- A keyword gives its token. -/
theorem gives_keyword {word : String} {kind : TokenKind} (hword : (word, kind) ∈ keywords)
    {rest : List Char} (hrest : Separates rest) : Gives word.toList rest [.bare kind word] := by
  obtain ⟨hmeaning, c, more, hspelling, halpha, hsimple, hblank, hmore⟩ :=
    keywords_spelled (word, kind) hword
  dsimp only at hmeaning hspelling
  have hbegins : beginsWord c = true := CharClass.alphabetic_contains_of_isAlpha halpha
  rw [hspelling]
  refine Gives.lexeme hblank ?_
  rw [read_of_beginsWord hsimple hbegins, word_append hmore hrest, ← hspelling,
    String.ofList_toList, hmeaning]

/-- A colon before a blank is no assignment sign. -/
theorem gives_colon (rest : List Char) : Gives [':'] (' ' :: rest) [.bare .colon ":"] :=
  Gives.lexeme rfl (read_colon _)

theorem gives_assignment (rest : List Char) : Gives [':', '='] rest [.bare .assignment ":="] :=
  Gives.lexeme rfl (read_colon _)

theorem gives_range (rest : List Char) : Gives ['.', '.'] rest [.bare .range ".."] :=
  Gives.lexeme rfl (read_dot _)

/-! ## Tokens of a text -/

/-- Every token of a text was read from a lexeme. -/
theorem exists_read_of_mem_tokens {start : Position} {text : List Char} {token : Token}
    (htoken : token ∈ (ofTextAt start text).tokens) :
    ∃ c rest, isBlank c = false ∧ (Lexeme.read c rest).meaning = .token token.kind token.text := by
  induction hlength : text.length using Nat.strongRecOn generalizing start text with
  | _ length ih =>
    unfold Scan.tokens at htoken
    cases htext : text.dropWhile isBlank with
    | nil =>
      rw [items_of_dropWhile_eq_nil htext] at htoken
      cases htoken
    | cons c rest =>
      have hshorter : (Lexeme.read c rest).rest.length < length := by
        have hrest := length_rest_le c rest
        have hsub : (text.dropWhile isBlank).Sublist text := List.dropWhile_sublist isBlank
        have hdrop := hsub.length_le
        rw [htext, List.length_cons] at hdrop
        omega
      have hblank : isBlank c = false := by
        have hhead := List.head?_dropWhile_not isBlank text
        rw [htext] at hhead
        simpa using hhead
      rw [items_of_dropWhile_eq_cons htext] at htoken
      cases hmeaning : (Lexeme.read c rest).meaning with
      | mistake cause shown =>
        rw [hmeaning] at htoken
        exact ih _ hshorter htoken rfl
      | token kind spelling =>
        rw [hmeaning] at htoken
        simp only [Item.ofMeaning, List.filterMap_cons, Item.token?, List.mem_cons] at htoken
        rcases htoken with rfl | htoken
        · exact ⟨c, rest, hblank, hmeaning⟩
        · exact ih _ hshorter htoken rfl

/-- A token with the category of a keyword is that keyword. -/
theorem mem_keywords_of_mem_tokens {start : Position} {text : List Char} {token : Token}
    (htoken : token ∈ (ofTextAt start text).tokens) {word : String}
    (hword : (word, token.kind) ∈ keywords) : (token.text, token.kind) ∈ keywords := by
  rcases exists_read_of_mem_tokens htoken with ⟨c, others, -, hmeaning⟩
  exact mem_keywords_of_read hmeaning hword

/-- The text of a token other than a string literal gives the token back. -/
theorem gives_of_mem_tokens {start : Position} {text : List Char} {token : Token}
    (htoken : token ∈ (ofTextAt start text).tokens) (hstring : token.kind ≠ .stringLiteral)
    {rest : List Char} (hrest : Separates rest)
    (hcolon : token.kind = .colon → rest.head? ≠ some '=') :
    Gives token.text.toList rest [token.unplaced] := by
  rcases exists_read_of_mem_tokens htoken with ⟨c, others, hblank, hmeaning⟩
  rcases read_again hmeaning hstring hrest hcolon with ⟨more, hspelling, hread⟩
  rw [hspelling]
  exact Gives.lexeme hblank hread

end Scan

/-- A text that gives tokens is read as these tokens, without mistakes. -/
theorem TokenStream.ofSource_of_gives {source : String} {tokens : List Token}
    (hgives : Scan.Gives source.toList [] tokens) :
    (TokenStream.ofSource source).pending.map Token.unplaced = tokens ∧
      (TokenStream.ofSource source).diagnostics = [] := by
  rcases hgives Position.start with ⟨found, pos, htokens, hitems⟩
  rw [List.append_nil, Scan.items_of_dropWhile_eq_nil List.dropWhile_nil, List.append_nil]
    at hitems
  have hpending : (TokenStream.ofSource source).pending = found := by
    simp only [TokenStream.ofSource, Scan.tokens, Scan.ofText, hitems, List.filterMap_map]
    exact List.filterMap_some
  constructor
  · rw [hpending, htokens]
  · simp only [TokenStream.ofSource, Scan.diagnostics, Scan.ofText, hitems, List.filterMap_map]
    exact List.filterMap_eq_nil_iff.2 fun token _ => rfl

end LoopLang
