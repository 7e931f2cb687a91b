import LoopLang.Proofs.Diagnostic.Anchors
import LoopLang.Proofs.Text.Lines

/-!
# Carets

A diagnostic is shown with the line of its anchor and a caret in the next line.
The line and the column of a token are told by the text in front of it, the line
is found again by its number, and what is left out at its front is taken from the
column, so that the caret stands below the first character of the token.

Main definitions:

- `Token.StandsAt`: the place of a token, told by the text around it.
- `Diagnostic.PointsAt`: an excerpt of a line with a caret below a character.

Main results:

- Theorem `TokenStream.exists_standsAt`: every piece of a source has the place of
  its characters.
- Theorem `Diagnostic.pointsAt_excerpt`: the caret of an excerpt.
- Theorem `caret_below_anchor`: the caret of everything that is reported for a
  source.
-/

namespace LoopLang

/-! ## Places of tokens -/

/-- The token has the place of the characters between two parts of the source. -/
structure Token.StandsAt (source : String) (token : Token) (front lexeme back : List Char) :
    Prop where
  source_eq : source.toList = front ++ (lexeme ++ back)
  start_eq : token.start = Source.byteSize front
  stop_eq : token.stop = Source.byteSize (front ++ lexeme)
  /-- Every newline in front of the token begins a line. -/
  line_eq : token.line = (1 + front.count '\n' : Nat)
  /-- The columns count the characters since the last newline. -/
  column_eq : token.column = (1 + (Source.lastLine front).length : Nat)

/-- The numbers of a place are no greater than the number of characters. -/
theorem Token.StandsAt.bounded {source : String} {token : Token} {front lexeme back : List Char}
    {c : Char} (hstands : token.StandsAt source front (c :: lexeme) back) :
    token.line ≤ source.length ∧ token.column ≤ source.length := by
  have hlength : source.length = front.length + (lexeme.length + back.length + 1) := by
    rw [← String.length_toList, hstands.source_eq]
    simp
  have hcount : front.count '\n' ≤ front.length := List.count_le_length
  have hlast := Source.length_lastLine_le front
  rw [hstands.line_eq, hstands.column_eq]
  omega

/-- A lexeme begins with the character that decides its form. -/
theorem Lexeme.exists_characters_eq_cons (c : Char) (text : List Char) :
    ∃ more, (read c text).characters = c :: more := by
  have happend := characters_append_rest c text
  rcases List.exists_cons_of_ne_nil (characters_ne_nil c text) with ⟨d, more, hcharacters⟩
  rw [hcharacters, List.cons_append, List.cons.injEq] at happend
  exact ⟨more, by rw [hcharacters, happend.1]⟩

@[simp]
theorem Item.line_place_ofMeaning (start stop : Position) (meaning : Meaning) :
    (ofMeaning start stop meaning).place.line = start.line := by
  cases meaning <;> rfl

@[simp]
theorem Item.column_place_ofMeaning (start stop : Position) (meaning : Meaning) :
    (ofMeaning start stop meaning).place.column = start.column := by
  cases meaning <;> rfl

/-- Every piece of a source has the place of its characters, the first of which is
no blank. -/
theorem TokenStream.exists_standsAt {source : String} {token : Token}
    (htoken : token ∈ pieces source) :
    ∃ front c lexeme back, token.StandsAt source front (c :: lexeme) back ∧
      Lexeme.isBlank c = false := by
  rcases List.mem_map.1 htoken with ⟨item, hitem, rfl⟩
  rcases (tiled_ofSource source).located item hitem with ⟨front, c, rest, hsource, hfirst, rfl⟩
  rcases Lexeme.exists_characters_eq_cons c rest with ⟨lexeme, hlexeme⟩
  refine ⟨front, c, lexeme, (Lexeme.read c rest).rest, ⟨?_, ?_, ?_, ?_, ?_⟩, hfirst⟩
  · rw [hsource, ← hlexeme, Lexeme.characters_append_rest]
  · rw [Item.start_place_ofMeaning, Position.offset_after]
    exact Nat.zero_add _
  · rw [Item.stop_place_ofMeaning, ← Position.after_append, Position.offset_after, hlexeme]
    exact Nat.zero_add _
  · rw [Item.line_place_ofMeaning, Position.line_after]
    rfl
  · rw [Item.column_place_ofMeaning, Position.column_after_start]

/-! ## Excerpts -/

namespace Diagnostic

/-- A row of spaces. -/
def spaces (width : Nat) : String :=
  String.ofList (List.replicate width ' ')

/-- The text is a line without the spaces and tabs at its front, beside its number, and
below it, beside a blank label of the same width, a caret under the character `c`. -/
def PointsAt (number : Int) (line : String) (c : Char) (text : String) : Prop :=
  ∃ label shown width,
    text = "\n" ++ label ++ " | " ++ shown ++ "\n" ++ spaces label.length ++ " | " ++
      spaces width ++ "^" ∧
    label = "  " ++ Numeral.ofInt number ∧
    shown = String.ofList (line.toList.dropWhile fun d => d == ' ' || d == '\t') ∧
    shown.toList[width]? = some c

/-- Indentation is made of spaces and tabs. -/
theorem isIndentation_eq : isIndentation = fun c => c == ' ' || c == '\t' := rfl

/-- The caret of an excerpt stands below the character in the given column, unless
this belongs to the indentation. -/
theorem pointsAt_excerpt {number : Int} {line : String} {front rest : List Char} {c : Char}
    (hline : line.toList = front ++ c :: rest) (hc : isIndentation c = false) :
    PointsAt number line c (excerpt number (1 + front.length : Nat) line) := by
  have hdrop : line.toList.dropWhile isIndentation =
      front.dropWhile isIndentation ++ c :: rest := by
    rw [hline, Source.dropWhile_append_cons hc]
  have hparts : (line.toList.takeWhile isIndentation).length +
      (line.toList.dropWhile isIndentation).length = line.toList.length := by
    rw [← List.length_append, List.takeWhile_append_dropWhile]
  have hdropLength : (line.toList.dropWhile isIndentation).length =
      (front.dropWhile isIndentation).length + (rest.length + 1) := by
    simp [hdrop]
  have hlineLength : line.toList.length = front.length + (rest.length + 1) := by
    rw [hline]
    simp
  have hwidth : ((1 + front.length : Nat) : Int).toNat -
      (line.toList.takeWhile isIndentation).length - 1 =
        (front.dropWhile isIndentation).length := by
    omega
  rw [PointsAt, ← isIndentation_eq]
  refine ⟨_, _, (front.dropWhile isIndentation).length, ?_, rfl, rfl, ?_⟩
  · have hlabel : ("  " ++ Numeral.ofInt number).length = (Numeral.ofInt number).length + 2 := by
      rw [String.length_append, Nat.add_comm]
      rfl
    simp only [excerpt, hwidth, hlabel]
    apply String.toList_injective
    simp [spaces, List.replicate_succ]
  · rw [String.toList_ofList, hdrop]
    simp

/-- A diagnostic about a token with a place is shown with the line that is found
there. -/
theorem render_of_line? {source line : String} {diagnostic : Diagnostic} {token : Token}
    (hanchor : diagnostic.anchor = some token) (hplace : 0 < token.line ∧ 0 < token.column)
    (hline : Source.line? source token.line = some line) :
    diagnostic.render source =
      diagnostic.message ++ excerpt token.line token.column line := by
  have hposition : diagnostic.position? = some (token.line, token.column) := by
    simp [position?, hanchor, hplace]
  simp only [render, hposition, hline]

end Diagnostic

/-- In a line that goes through a character which is no blank, the caret below this
character is found by the characters in front of it. -/
theorem Token.StandsAt.pointsAt {source : String} {token : Token} {front lexeme back : List Char}
    {c : Char} (hstands : token.StandsAt source front (c :: lexeme) back)
    (hfirst : Lexeme.isBlank c = false) :
    ∃ line, Source.line? source token.line = some line ∧
      line = String.ofList (Source.dropReturns
        (Source.lastLine front ++ (c :: lexeme ++ back).takeWhile (· != '\n'))) ∧
      Diagnostic.PointsAt token.line line c
        (Diagnostic.excerpt token.line token.column line) := by
  simp only [Lexeme.isBlank, Bool.or_eq_false_iff, beq_eq_false_iff_ne] at hfirst
  rcases hfirst with ⟨⟨⟨hspace, htab⟩, hnewline⟩, hreturn⟩
  have htail : (c :: lexeme ++ back).takeWhile (· != '\n') =
      c :: (lexeme ++ back).takeWhile (· != '\n') := by
    simp [hnewline]
  refine ⟨_, ?_, rfl, ?_⟩
  · rw [hstands.line_eq]
    exact Source.line?_of_append hstands.source_eq
  · rw [htail, Source.dropReturns_append_cons hreturn, hstands.column_eq]
    refine Diagnostic.pointsAt_excerpt (String.toList_ofList) ?_
    simp [Diagnostic.isIndentation, hspace, htab]

/-- The caret of everything that is reported for a source stands below its anchor.
The anchor marks the end of the source, or it is a lexeme: its line is counted by
the newlines in front of it and its column by the characters since the last one,
that line is found again by its number, and it is shown without its indentation,
with a caret in the next line that stands below the first character of the
lexeme.  For a source of less than `2 ^ 31` characters the numbers are below this
limit too. -/
theorem caret_below_anchor {source : String} (hshort : source.length < 0x80000000)
    {diagnostic : Diagnostic} (hreported : diagnostic ∈ reported source) :
    ∃ token, diagnostic.anchor = some token ∧
      (token = (TokenStream.ofSource source).endToken ∨
        ∃ front c lexeme back line excerpt,
          token.StandsAt source front (c :: lexeme) back ∧
          token.line < 0x80000000 ∧ token.column < 0x80000000 ∧
          Source.line? source token.line = some line ∧
          line = String.ofList (Source.dropReturns
            (Source.lastLine front ++ (c :: lexeme ++ back).takeWhile (· != '\n'))) ∧
          diagnostic.render source = diagnostic.message ++ excerpt ∧
          Diagnostic.PointsAt token.line line c excerpt) := by
  rcases anchoredIn_of_mem_reported hreported with ⟨token, htoken, hanchor⟩
  refine ⟨token, hanchor, ?_⟩
  rcases List.mem_append.1 htoken with hpiece | hend
  · right
    rcases TokenStream.exists_standsAt hpiece with ⟨front, c, lexeme, back, hstands, hfirst⟩
    rcases hstands.pointsAt hfirst with ⟨line, hline, hshown, hpoints⟩
    have hbounded := hstands.bounded
    have hplace : 0 < token.line ∧ 0 < token.column := by
      rw [hstands.line_eq, hstands.column_eq]
      omega
    exact ⟨front, c, lexeme, back, line, _, hstands, by omega, by omega, hline, hshown,
      Diagnostic.render_of_line? hanchor hplace hline, hpoints⟩
  · left
    exact List.mem_singleton.1 hend

/-- A source with a mistake of each stage; the last one stands behind a string that
goes over the end of its line. -/
def spanning : String :=
  "var é:int;\n\tprint # é);\r\n print \"a\n  \" + y"

/-- In the fourth line, which is shown from the end of the string on, the caret
stands below the name that is not declared. -/
theorem caret_below_anchor_spanning :
    let token : Token := ⟨.identifier, "y", 4, 7, 43, 44⟩
    let diagnostic := Diagnostic.about token (.undeclared "y")
    spanning.length < 0x80000000 ∧ diagnostic ∈ reported spanning ∧
      ∃ front c lexeme back line excerpt,
        token.StandsAt spanning front (c :: lexeme) back ∧
        token.line < 0x80000000 ∧ token.column < 0x80000000 ∧
        Source.line? spanning token.line = some line ∧
        line = String.ofList (Source.dropReturns
          (Source.lastLine front ++ (c :: lexeme ++ back).takeWhile (· != '\n'))) ∧
        diagnostic.render spanning = diagnostic.message ++ excerpt ∧
        Diagnostic.PointsAt token.line line c excerpt := by
  intro token diagnostic
  have hshort : spanning.length < 0x80000000 := by decide
  have hreported : diagnostic ∈ reported spanning := by decide +kernel
  rcases caret_below_anchor hshort hreported with ⟨anchor, hanchor, hend | hbelow⟩
  · have hplace : token ≠ (TokenStream.ofSource spanning).endToken := by decide +kernel
    cases hanchor
    exact absurd hend hplace
  · cases hanchor
    exact ⟨hshort, hreported, hbelow⟩

end LoopLang
