import LoopLang.Text.Source

/-!
# Lines of a source

The line and the column of a place are told by the characters in front of it:
the newlines among them, and the characters after the last one.  The line with
that number begins with those last characters and goes on up to the next newline.

Main definitions:

- `Source.lastLine`: the characters of a text after its last newline.

Main results:

- Theorem `Position.line_after`, `Position.column_after_start`: the place that
  reading a text leads to.
- Theorem `Source.lineAfter_count`: the line that a place stands in.
- Theorem `Source.line?_of_append`: that line, found by the number of its place.
-/

namespace LoopLang

namespace Source

/-- The characters of a text after its last newline. -/
def lastLine : List Char → List Char
  | [] => []
  | c :: text => if '\n' ∈ text then lastLine text else if c = '\n' then text else c :: text

/-- A text without a newline is one line. -/
theorem lastLine_of_not_mem {text : List Char} (hnone : '\n' ∉ text) : lastLine text = text := by
  cases text with
  | nil => rfl
  | cons c text =>
    have hparts : c ≠ '\n' ∧ '\n' ∉ text := by simpa [eq_comm] using hnone
    simp [lastLine, hparts]

/-- The last line begins behind every newline. -/
theorem lastLine_newline_cons (text : List Char) : lastLine ('\n' :: text) = lastLine text := by
  by_cases hmem : '\n' ∈ text
  · simp [lastLine, hmem]
  · simp [lastLine, hmem, lastLine_of_not_mem]

/-- The last line is a part of the text. -/
theorem length_lastLine_le (text : List Char) : (lastLine text).length ≤ text.length := by
  induction text with
  | nil => simp [lastLine]
  | cons c text ih =>
    unfold lastLine
    split
    · simp only [List.length_cons]
      omega
    · split <;> simp

end Source

/-! ## The place after a text -/

namespace Position

/-- Every newline that is read begins a line. -/
theorem line_after (pos : Position) (text : List Char) :
    (pos.after text).line = pos.line + text.count '\n' := by
  induction text generalizing pos with
  | nil => rfl
  | cons c text ih =>
    rw [after_cons, ih]
    by_cases hc : c = '\n'
    · simp only [next, hc, if_true, List.count_cons_self]
      omega
    · simp [next, hc]

/-- Every newline that is read begins the columns anew. -/
theorem column_after (pos : Position) (text : List Char) :
    (pos.after text).column =
      if '\n' ∈ text then 1 + (Source.lastLine text).length else pos.column + text.length := by
  induction text generalizing pos with
  | nil => simp
  | cons c text ih =>
    rw [after_cons, ih]
    by_cases hmem : '\n' ∈ text
    · simp [Source.lastLine, hmem]
    · by_cases hc : c = '\n'
      · simp [next, Source.lastLine, hmem, hc]
      · simp only [next, hmem, hc, Ne.symm hc, if_false, List.mem_cons, or_self, List.length_cons]
        omega

/-- From the first column on, the columns count the characters of the last line. -/
theorem column_after_start (text : List Char) :
    (start.after text).column = 1 + (Source.lastLine text).length := by
  rw [column_after]
  by_cases hmem : '\n' ∈ text
  · rw [if_pos hmem]
  · rw [if_neg hmem, Source.lastLine_of_not_mem hmem]
    rfl

end Position

/-! ## The line of a place -/

namespace Source

/-- The line that a place stands in has the characters since the last newline and
those up to the next one. -/
theorem lineAfter_count (front rest : List Char) :
    lineAfter (front.count '\n') (front ++ rest) =
      some (lastLine front ++ rest.takeWhile (· != '\n')) := by
  induction front with
  | nil => rfl
  | cons c front ih =>
    by_cases hc : c = '\n'
    · rw [hc, List.count_cons_self, lastLine_newline_cons, ← ih]
      simp [lineAfter]
    · rw [List.count_cons_of_ne hc]
      by_cases hmem : '\n' ∈ front
      · rcases Nat.exists_eq_add_one.2 (List.count_pos_iff.2 hmem) with ⟨passed, hpassed⟩
        have hfront : lastLine (c :: front) = lastLine front := by simp [lastLine, hmem]
        rw [hfront, ← ih, hpassed]
        simp [lineAfter, hc]
      · have hall : ∀ d ∈ c :: front, (d != '\n') = true := by
          intro d hd
          simp only [bne_iff_ne]
          rintro rfl
          rcases List.mem_cons.1 hd with hsame | hlater
          · exact hc hsame.symm
          · exact hmem hlater
        have hfront : lastLine (c :: front) = c :: front := by simp [lastLine, hmem, hc]
        rw [hfront, List.count_eq_zero.2 hmem, lineAfter, List.takeWhile_append_of_pos hall]

/-- What is dropped at the front of a text ends at a character that stays. -/
theorem dropWhile_append_cons {p : Char → Bool} {c : Char} (hc : p c = false)
    (front rest : List Char) :
    (front ++ c :: rest).dropWhile p = front.dropWhile p ++ c :: rest := by
  induction front with
  | nil => simp [hc]
  | cons d front ih =>
    by_cases hd : p d = true
    · simp [hd, ih]
    · simp [hd]

/-- Carriage returns are dropped behind the last other character only. -/
theorem dropReturns_append_cons {c : Char} (hc : c ≠ '\r') (front rest : List Char) :
    dropReturns (front ++ c :: rest) = front ++ c :: dropReturns rest := by
  have hreverse : (front ++ c :: rest).reverse = rest.reverse ++ c :: front.reverse := by simp
  have hstays : (c == '\r') = false := by simpa using hc
  rw [dropReturns, hreverse, dropWhile_append_cons (p := (· == '\r')) hstays,
    dropReturns]
  simp

/-- The line of a place is found by the number that the place has. -/
theorem line?_of_append {source : String} {front rest : List Char}
    (hsource : source.toList = front ++ rest) :
    line? source (1 + front.count '\n' : Nat) =
      some (String.ofList (dropReturns (lastLine front ++ rest.takeWhile (· != '\n')))) := by
  have hnumber : ¬((1 + front.count '\n' : Nat) : Int) < 1 := by omega
  have hpassed : ((1 + front.count '\n' : Nat) : Int).toNat - 1 = front.count '\n' := by omega
  rw [line?, if_neg hnumber, hpassed, hsource, lineAfter_count, Option.map_some]

end Source

end LoopLang
