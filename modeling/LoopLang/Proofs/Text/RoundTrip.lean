import LoopLang.Text.Numeral
import LoopLang.Text.Utf8

/-!
# Bytes and numerals that are read back

The bytes of a text are decoded as this text, and the decimal text of an integer is
read as this integer.  The decoder sees one byte at a time, so it is enough to look at
one character in front of any bytes: its first byte opens it with the right bounds on
the second one, and its last byte closes it.

Main results:

- Theorem `Utf8.groupsFrom_encodeChar`: the bytes of a character, whatever comes
  after them.
- Theorem `Utf8.decodeLossy_encode`: the bytes of a text.
- Theorem `Numeral.toInt64?_ofInt`: the decimal text of an integer.
-/

namespace LoopLang

/-! ## UTF-8 -/

namespace Utf8

/-- What a byte begins, by its number. -/
theorem lead_ofNat {n : Nat} (hn : n < 256) :
    lead (UInt8.ofNat n) =
      if n < 0x80 then .whole (Char.ofNat n)
      else if n < 0xC2 then .illFormed
      else if n < 0xE0 then .opened ⟨n - 0xC0, 0, 0x80, 0xBF⟩
      else if n < 0xF0 then
        .opened ⟨n - 0xE0, 1, if n = 0xE0 then 0xA0 else 0x80, if n = 0xED then 0x9F else 0xBF⟩
      else if n < 0xF5 then
        .opened ⟨n - 0xF0, 2, if n = 0xF0 then 0x90 else 0x80, if n = 0xF4 then 0x8F else 0xBF⟩
      else .illFormed := by
  have hbyte : (UInt8.ofNat n).toNat = n := UInt8.toNat_ofNat_of_lt' hn
  unfold lead
  simp only [UInt8.lt_iff_toNat_lt, ← UInt8.toNat_inj, hbyte]
  grind

/-- The first byte of a character that has more of them. -/
theorem groupsFrom_opened {b : UInt8} {part : Unfinished} (hlead : lead b = .opened part)
    (rest : List UInt8) : groupsFrom none (b :: rest) = groupsFrom (some part) rest := by
  simp only [groupsFrom, step, begin, hlead, List.nil_append]

/-- A byte within the bounds goes on with the open character. -/
theorem groupsFrom_extend {part : Unfinished} {n : Nat} (hn : n < 256)
    (hlow : part.low.toNat ≤ n) (hhigh : n ≤ part.high.toNat) (rest : List UInt8) :
    groupsFrom (some part) (UInt8.ofNat n :: rest) =
      match part.later with
      | 0 => some (Char.ofNat (part.value * 64 + (n - 0x80))) :: groupsFrom none rest
      | later + 1 =>
        groupsFrom (some ⟨part.value * 64 + (n - 0x80), later, 0x80, 0xBF⟩) rest := by
  have hbyte : (UInt8.ofNat n).toNat = n := UInt8.toNat_ofNat_of_lt' hn
  have hbounds : part.low ≤ UInt8.ofNat n ∧ UInt8.ofNat n ≤ part.high := by
    rw [UInt8.le_iff_toNat_le, UInt8.le_iff_toNat_le, hbyte]
    exact ⟨hlow, hhigh⟩
  simp only [groupsFrom, step, Unfinished.extend, hbounds, and_self, if_true, hbyte]
  cases part.later <;> rfl

section Characters

variable {v : Nat}

/-- A character of one byte is read back. -/
theorem groupsFrom_one (hv : v ≤ 0x7F) (rest : List UInt8) :
    groupsFrom none (UInt8.ofNat v :: rest) = some (Char.ofNat v) :: groupsFrom none rest := by
  have hlead := @lead_ofNat v (by omega)
  rw [if_pos (by omega)] at hlead
  simp only [groupsFrom, step, begin, hlead, List.cons_append, List.nil_append]

theorem groupsFrom_two (hlow : 0x7F < v) (hhigh : v ≤ 0x7FF) (rest : List UInt8) :
    groupsFrom none (UInt8.ofNat (v / 64 % 32 + 192) :: UInt8.ofNat (v % 64 + 128) :: rest) =
      some (Char.ofNat v) :: groupsFrom none rest := by
  have hlead := @lead_ofNat (v / 64 % 32 + 192) (by omega)
  rw [if_neg (by omega), if_neg (by omega), if_pos (by omega)] at hlead
  have hvalue : (v / 64 % 32 + 192 - 0xC0) * 64 + (v % 64 + 128 - 0x80) = v := by omega
  rw [groupsFrom_opened hlead, groupsFrom_extend (by omega) (by simp) (by simp; omega)]
  simp only [hvalue]

/-- The bounds on the second byte leave out the surrogates and what two bytes are enough
for. -/
theorem groupsFrom_three (hlow : 0x7FF < v) (hhigh : v ≤ 0xFFFF)
    (hvalid : v < 0xD800 ∨ 0xDFFF < v) (rest : List UInt8) :
    groupsFrom none (UInt8.ofNat (v / 4096 % 16 + 224) :: UInt8.ofNat (v / 64 % 64 + 128) ::
        UInt8.ofNat (v % 64 + 128) :: rest) =
      some (Char.ofNat v) :: groupsFrom none rest := by
  have hlead := @lead_ofNat (v / 4096 % 16 + 224) (by omega)
  rw [if_neg (by omega), if_neg (by omega), if_neg (by omega), if_pos (by omega)] at hlead
  have hvalue : ((v / 4096 % 16 + 224 - 0xE0) * 64 + (v / 64 % 64 + 128 - 0x80)) * 64 +
      (v % 64 + 128 - 0x80) = v := by
    omega
  rw [groupsFrom_opened hlead, groupsFrom_extend (by omega)
    (by dsimp only; split <;> simp <;> omega) (by dsimp only; split <;> simp <;> omega)]
  dsimp only
  rw [groupsFrom_extend (by omega) (by simp) (by simp; omega)]
  simp only [hvalue]

/-- The bounds on the second byte leave out what is above the last code point and what
three bytes are enough for. -/
theorem groupsFrom_four (hlow : 0xFFFF < v) (hhigh : v < 0x110000) (rest : List UInt8) :
    groupsFrom none (UInt8.ofNat (v / 262144 % 8 + 240) :: UInt8.ofNat (v / 4096 % 64 + 128) ::
        UInt8.ofNat (v / 64 % 64 + 128) :: UInt8.ofNat (v % 64 + 128) :: rest) =
      some (Char.ofNat v) :: groupsFrom none rest := by
  have hlead := @lead_ofNat (v / 262144 % 8 + 240) (by omega)
  rw [if_neg (by omega), if_neg (by omega), if_neg (by omega), if_neg (by omega),
    if_pos (by omega)] at hlead
  have hvalue : (((v / 262144 % 8 + 240 - 0xF0) * 64 + (v / 4096 % 64 + 128 - 0x80)) * 64 +
      (v / 64 % 64 + 128 - 0x80)) * 64 + (v % 64 + 128 - 0x80) = v := by
    omega
  rw [groupsFrom_opened hlead, groupsFrom_extend (by omega)
    (by dsimp only; split <;> simp <;> omega) (by dsimp only; split <;> simp <;> omega)]
  dsimp only
  rw [groupsFrom_extend (by omega) (by simp) (by simp; omega)]
  dsimp only
  rw [groupsFrom_extend (by omega) (by simp) (by simp; omega)]
  simp only [hvalue]

end Characters

/-- The bytes of a character are read as this character, whatever comes after them. -/
theorem groupsFrom_encodeChar (c : Char) (rest : List UInt8) :
    groupsFrom none (String.utf8EncodeChar c ++ rest) = some c :: groupsFrom none rest := by
  have hvalid : c.val.toNat < 0xD800 ∨ 0xDFFF < c.val.toNat ∧ c.val.toNat < 0x110000 := c.valid
  have hchar : Char.ofNat c.val.toNat = c := Char.ofNat_toNat c
  simp only [String.utf8EncodeChar]
  split
  · next hone =>
    simp only [List.cons_append, List.nil_append]
    rw [groupsFrom_one hone, hchar]
  · split
    · next hone htwo =>
      simp only [List.cons_append, List.nil_append]
      rw [groupsFrom_two (by omega) htwo, hchar]
    · split
      · next htwo hthree =>
        simp only [List.cons_append, List.nil_append]
        rw [groupsFrom_three (by omega) hthree (by omega), hchar]
      · simp only [List.cons_append, List.nil_append]
        rw [groupsFrom_four (by omega) (by omega), hchar]

/-- There are no ill-formed groups among the bytes of a text. -/
theorem groups_encode (text : List Char) : groups (encode text) = text.map some := by
  induction text with
  | nil => rfl
  | cons c text ih =>
    have hhead : encode (c :: text) = String.utf8EncodeChar c ++ encode text := rfl
    rw [hhead, groups, groupsFrom_encodeChar, List.map_cons, ← ih, groups]

/-- The bytes of a text are decoded as this text. -/
theorem decodeLossy_encode (text : List Char) : decodeLossy (encode text) = text := by
  rw [decodeLossy, groups_encode, List.map_map]
  exact List.map_id text

end Utf8

/-! ## Numerals -/

namespace Numeral

/-- The digits of a number denote it. -/
theorem magnitude?_toDigits (n : Nat) : magnitude? (Nat.toDigits 10 n) = some n := by
  have hdigits : (Nat.toDigits 10 n).all Char.isDigit = true :=
    List.all_eq_true.2 fun c hc => Nat.isDigit_of_mem_toDigits (by decide) (by decide) hc
  simp [magnitude?, hdigits, Nat.ofDigitChars_ten_toDigits]

/-- A text that begins with a digit has no sign. -/
theorem toInt?_of_isDigit {c : Char} (hc : c.isDigit = true) (digits : List Char) :
    toInt? (c :: digits) = (magnitude? (c :: digits)).map Int.ofNat := by
  unfold toInt?
  split
  · next hplus =>
    cases hplus
    cases hc
  · next hminus =>
    cases hminus
    cases hc
  · rfl

/-- The characters of a decimal text. -/
theorem mem_ofInt {i : Int} {c : Char} (hc : c ∈ (ofInt i).toList) :
    c.isDigit = true ∨ c = '-' := by
  cases i with
  | ofNat n =>
    rw [ofInt, ofNat, String.toList_ofList] at hc
    exact .inl (Nat.isDigit_of_mem_toDigits (by decide) (by decide) hc)
  | negSucc n =>
    rw [ofInt, String.toList_ofList, List.mem_cons] at hc
    rcases hc with hsign | hdigit
    · exact .inr hsign
    · exact .inl (Nat.isDigit_of_mem_toDigits (by decide) (by decide) hdigit)

/-- Every integer has a digit. -/
theorem ofInt_ne_nil (i : Int) : (ofInt i).toList ≠ [] := by
  cases i with
  | ofNat n =>
    rw [ofInt, ofNat, String.toList_ofList]
    exact Nat.toDigits_ne_nil
  | negSucc n =>
    rw [ofInt, String.toList_ofList]
    exact List.cons_ne_nil _ _

/-- The decimal text of an integer denotes this integer. -/
theorem toInt?_ofInt (i : Int) : toInt? (ofInt i).toList = some i := by
  cases i with
  | ofNat n =>
    rw [ofInt, ofNat, String.toList_ofList]
    cases hchars : Nat.toDigits 10 n with
    | nil => exact absurd hchars Nat.toDigits_ne_nil
    | cons c digits =>
      have hmem : c ∈ Nat.toDigits 10 n := by
        rw [hchars]
        exact List.mem_cons_self
      have hdigit := Nat.isDigit_of_mem_toDigits (by decide) (by decide) hmem
      rw [toInt?_of_isDigit hdigit, ← hchars, magnitude?_toDigits]
      rfl
  | negSucc n =>
    rw [ofInt, String.toList_ofList, toInt?, magnitude?_toDigits]
    rfl

/-- The decimal text of a 64-bit integer is read as this integer. -/
theorem toInt64?_ofInt (i : Int64) : toInt64? (ofInt i.toInt).toList = some i := by
  have hfits : fitsInt64 i.toInt = true := by
    have hleast := i.le_toInt
    have hgreatest := i.toInt_lt
    simp only [fitsInt64, Int64.toInt_minValue, Int64.toInt_maxValue, Bool.and_eq_true,
      decide_eq_true_eq]
    omega
  rw [toInt64?, toInt?_ofInt, Option.bind_some, if_pos hfits, Int64.ofInt_toInt]

end Numeral

end LoopLang
