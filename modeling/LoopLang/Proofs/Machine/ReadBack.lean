import Mathlib.Data.List.Forall2
import LoopLang.Proofs.Machine.Logic
import LoopLang.Proofs.Machine.Words
import LoopLang.Proofs.Text.RoundTrip

/-!
# Printed values that are read back

The output of one program can be the input of another one.  A value that is printed
as one word is read as the same value, and separators between the words are all that
has to be printed beside them.  So successive reads take the values back in their
order, however the bytes arrive.

Main definitions:

- `Value.IsWord`: the value is printed as one word.
- `Spaced`: bytes that hold printed values with separators between them.
- `Input.Offers`: the words of an input are printed values.
- `Scope.setAll`: several names get new contents, one after the other.

Main results:

- Theorem `Value.ofText?_text`: the text of a value denotes this value.
- Theorem `Spaced.words_eq`: the words of the bytes are the printed values.
- Theorem `Program.exec_prints`: prints write the texts of their values.
- Theorem `Program.exec_reads`: reads store the values that an input offers.
- Theorem `read_takes_back_printed`: what a run has printed is read back.
-/

namespace LoopLang

/-! ## Texts of values -/

/-- No byte above the space is whitespace. -/
theorem Input.isWhitespace_ofNat {n : Nat} (hlow : 0x20 < n) (hn : n < 256) :
    Input.isWhitespace (UInt8.ofNat n) = false := by
  have hbyte : (UInt8.ofNat n).toNat = n := UInt8.toNat_ofNat_of_lt' hn
  rw [← Input.isSeparator_eq]
  simp only [Input.isSeparator, Bool.or_eq_false_iff, beq_eq_false_iff_ne, ne_eq,
    ← UInt8.toNat_inj, hbyte, UInt8.reduceToNat]
  omega

namespace Value

/-- The bytes that are written for a value. -/
def bytes (value : Value) : List UInt8 :=
  Utf8.encode value.text.toList

/-- The value is printed as one word.  This holds of all integers and Booleans, and of the
strings that are not empty and have no byte of whitespace. -/
def IsWord : Value → Prop
  | .string s => s ≠ "" ∧ ∀ b ∈ Utf8.encode s.toList, Input.isWhitespace b = false
  | .int _ | .bool _ => True

instance : DecidablePred IsWord
  | .string s =>
    inferInstanceAs (Decidable (s ≠ "" ∧ ∀ b ∈ Utf8.encode s.toList, Input.isWhitespace b = false))
  | .int _ | .bool _ => .isTrue trivial

/-- The text of a value denotes this value. -/
theorem ofText?_text (value : Value) : ofText? value.text value.ty = some value := by
  cases value with
  | int i => rw [text, ty, ofText?, Numeral.toInt64?_ofInt, Option.map_some]
  | string s => rfl
  | bool b => cases b <;> rfl

/-- Written bytes are decoded as the text of the value. -/
theorem decoded_bytes (value : Value) : Input.decoded value.bytes = value.text := by
  rw [Input.decoded, bytes, Utf8.decodeLossy_encode, String.ofList_toList]

/-- Neither a digit nor the minus sign is written with a byte of whitespace. -/
theorem isWhitespace_of_numeral {c : Char} (hc : c.isDigit = true ∨ c = '-') :
    ∀ b ∈ String.utf8EncodeChar c, Input.isWhitespace b = false := by
  have hrange : 0x2D ≤ c.val.toNat ∧ c.val.toNat ≤ 0x39 := by
    rcases hc with hdigit | rfl
    · rw [Char.isDigit, Bool.and_eq_true, decide_eq_true_eq, decide_eq_true_eq, ge_iff_le,
        UInt32.le_iff_toNat_le, UInt32.le_iff_toNat_le] at hdigit
      have hlow : 0x30 ≤ c.val.toNat := hdigit.1
      exact ⟨by omega, hdigit.2⟩
    · decide
  have hone : String.utf8EncodeChar c = [UInt8.ofNat c.val.toNat] := by
    simp only [String.utf8EncodeChar]
    rw [if_pos (by omega)]
  rw [hone]
  intro b hb
  rw [List.mem_singleton.1 hb]
  exact Input.isWhitespace_ofNat (by omega) (by omega)

/-- A word has no whitespace in it. -/
theorem IsWord.isWhitespace_eq_false {value : Value} (hword : value.IsWord) :
    ∀ b ∈ value.bytes, Input.isWhitespace b = false := by
  cases value with
  | int i =>
    intro b hb
    obtain ⟨c, hc, hb⟩ := List.mem_flatMap.1 hb
    exact isWhitespace_of_numeral (Numeral.mem_ofInt hc) b hb
  | string s => exact hword.2
  | bool b => cases b <;> decide +kernel

/-- Some bytes are written for every word. -/
theorem IsWord.bytes_ne_nil {value : Value} (hword : value.IsWord) : value.bytes ≠ [] := by
  have htext : value.text.toList ≠ [] := by
    cases value with
    | int i => exact Numeral.ofInt_ne_nil i.toInt
    | string s =>
      intro hnil
      exact hword.1 (String.toList_eq_nil_iff.1 hnil)
    | bool b => cases b <;> decide
  cases hchars : value.text.toList with
  | nil => exact absurd hchars htext
  | cons c rest =>
    have hsize : 0 < (String.utf8EncodeChar c).length := by
      rw [String.length_utf8EncodeChar]
      exact c.utf8Size_pos
    rw [bytes, hchars]
    exact List.append_ne_nil_of_left_ne_nil (List.length_pos_iff.1 hsize) _

end Value

/-! ## Printed values in an input -/

/-- The bytes hold the printed values in their order.  There is at least one separator
between two of them; there may be others, also at the beginning and at the end. -/
inductive Spaced : List Value → List UInt8 → Prop where
  | blank {gap : List UInt8} (hgap : ∀ b ∈ gap, Input.isWhitespace b = true) : Spaced [] gap
  | last {gap : List UInt8} {value : Value} (hgap : ∀ b ∈ gap, Input.isWhitespace b = true) :
      Spaced [value] (gap ++ value.bytes)
  | next {gap rest : List UInt8} {separator : UInt8} {value : Value} {values : List Value}
      (hgap : ∀ b ∈ gap, Input.isWhitespace b = true)
      (hseparator : Input.isWhitespace separator = true) (hrest : Spaced values rest) :
      Spaced (value :: values) (gap ++ value.bytes ++ separator :: rest)

/-- The words of the bytes are the printed values. -/
theorem Spaced.words_eq {values : List Value} {bytes : List UInt8}
    (hspaced : Spaced values bytes) (hwords : ∀ value ∈ values, value.IsWord) :
    Input.words none bytes = values.map Value.bytes := by
  induction hspaced with
  | @blank gap hgap =>
    have hnone := Input.words_last none hgap (List.forall_mem_nil _)
    simpa using hnone
  | @last gap value hgap =>
    have hword := hwords value (List.mem_singleton.2 rfl)
    rw [Input.words_last none hgap hword.isWhitespace_eq_false]
    simp [hword.bytes_ne_nil]
  | @next gap rest separator value values hgap hseparator _ ih =>
    rw [List.forall_mem_cons] at hwords
    rw [Input.words_separated none hgap hwords.1.isWhitespace_eq_false hwords.1.bytes_ne_nil
      hseparator, ih hwords.2, List.map_cons]

/-- The words of the input are the given values in their order, and then it ends. -/
structure Input.Offers (input : Input) (values : List Value) : Prop where
  words_eq : Input.words none input.bytes = values.map Value.bytes
  failure_eq : input.failure = none

/-- The next word is the text of the first value, and the others are left. -/
theorem Input.Offers.readWord {input : Input} {value : Value} {values : List Value}
    (hoffers : input.Offers (value :: values)) :
    input.readWord.1 = .ok value.text ∧ input.readWord.2.Offers values := by
  obtain ⟨result, hreading, hanswer, hfailure⟩ := Input.reading_readWord input
  have hwords := hoffers.words_eq
  rw [hoffers.failure_eq] at hreading hfailure
  rw [List.map_cons] at hwords
  rcases hreading.words_eq with ⟨word, rfl, hfirst⟩ | ⟨-, hnone, -⟩
  · rw [hwords, List.cons.injEq] at hfirst
    refine ⟨?_, hfirst.2.symm, hfailure⟩
    rw [hanswer, ← hfirst.1, ← value.decoded_bytes]
    rfl
  · rw [hwords] at hnone
    cases hnone

/-! ## Prints -/

/-- What one print writes. -/
theorem Stmt.exec_print {machine : Machine} {expr : Expr} {value : Value}
    (hunlimited : machine.output.capacity = none) (heval : expr.eval machine.store = .ok value) :
    (Stmt.print expr).exec machine =
      .ok () { machine with output := machine.output.store value.bytes } := by
  have hfits : machine.output.fits value.bytes = true := by
    rw [Output.fits, hunlimited]
  simp only [Stmt.exec, bind, EStateM.bind, Exec.compute, heval, Exec.write]
  exact if_pos hfits

/-- Prints write the texts of their values, one after the other. -/
theorem Program.exec_prints {machine : Machine} {exprs : List Expr} {values : List Value}
    (hunlimited : machine.output.capacity = none)
    (hvalues : List.Forall₂ (fun expr value => expr.eval machine.store = .ok value) exprs values) :
    ∃ after, Program.exec (exprs.map .print) machine = .ok () after ∧
      after.output.written.toList =
        machine.output.written.toList ++ values.flatMap Value.bytes := by
  induction exprs generalizing machine values with
  | nil =>
    cases hvalues
    exact ⟨machine, rfl, by simp⟩
  | cons expr exprs ih =>
    cases hvalues with
    | @cons _ value _ values hvalue hrest =>
      have hprint := Stmt.exec_print hunlimited hvalue
      obtain ⟨after, hafter, hwritten⟩ :=
        @ih { machine with output := machine.output.store value.bytes } values hunlimited hrest
      have hfitting : machine.output.fitting value.bytes = value.bytes := by
        rw [Output.fitting, hunlimited]
      refine ⟨after, ?_, ?_⟩
      · simp only [List.map_cons, Program.exec, bind, EStateM.bind, hprint, hafter]
      · rw [hwritten, Output.toList_store, hfitting, List.flatMap_cons, List.append_assoc]

/-! ## Reads -/

/-- The names get the contents, one after the other. -/
def Scope.setAll {α : Type} (scope : Scope α) (contents : List (String × α)) : Scope α :=
  contents.foldl (fun scope entry => scope.set entry.1 entry.2) scope

/-- The name may be assigned values of the type: it was declared with it and is not
locked. -/
def Store.Accepts (store : Store) (name : Token) (ty : Ty) : Prop :=
  store.ty? name.text = some ty ∧ store.isLocked name.text = false

namespace Store.Accepts

variable {store : Store} {name : Token} {ty : Ty}

theorem set (haccepts : store.Accepts name ty) (other : String) (value : Value) :
    Store.Accepts (Scope.set store other value) name ty := by
  rw [Store.Accepts, Scope.ty?_set]
  exact haccepts

theorem setAll (haccepts : store.Accepts name ty) (contents : List (String × Value)) :
    Store.Accepts (Scope.setAll store contents) name ty := by
  induction contents generalizing store with
  | nil => exact haccepts
  | cons entry contents ih => exact ih (haccepts.set entry.1 entry.2)

/-- A name that is assigned has the new value. -/
theorem get?_set (haccepts : store.Accepts name ty) (value : Value) :
    (Scope.set store name.text value).get? name.text = some value := by
  rcases Option.map_eq_some_iff.1 haccepts.1 with ⟨entry, hentry, -⟩
  simp [Scope.get?, Scope.find?_set, hentry]

end Store.Accepts

/-- What one read stores. -/
theorem Stmt.exec_read {machine : Machine} {name : Token} {value : Value} {values : List Value}
    (haccepts : machine.store.Accepts name value.ty)
    (hoffers : machine.input.Offers (value :: values)) :
    (Stmt.read name).exec machine =
      .ok () { machine with
        store := machine.store.set name.text value, input := machine.input.readWord.2 } := by
  have htarget : machine.store.target name.text = .ok value.ty := Scope.target_eq_ok.2 haccepts
  have hword : machine.input.readWord = (.ok value.text, machine.input.readWord.2) :=
    Prod.ext hoffers.readWord.1 rfl
  simp only [Stmt.exec, bind, EStateM.bind, Exec.target, Exec.compute, htarget, Exec.readWord]
  rw [hword]
  simp only [Value.ofText?_text, Exec.assign, Exec.change, Scope.assign, htarget]

/-- Reads store the values that the input offers, one after the other, and leave the
others to the next ones. -/
theorem Program.exec_reads {machine : Machine} {names : List Token} {values more : List Value}
    (htargets : List.Forall₂ (fun name value => machine.store.Accepts name value.ty) names values)
    (hoffers : machine.input.Offers (values ++ more)) :
    ∃ left, left.Offers more ∧
      Program.exec (names.map .read) machine = .ok () { machine with
        store := machine.store.setAll ((names.map Token.text).zip values), input := left } := by
  induction names generalizing machine values with
  | nil =>
    cases htargets
    exact ⟨machine.input, hoffers, rfl⟩
  | cons name names ih =>
    cases htargets with
    | @cons _ value _ values haccepts hrest =>
      have hread := Stmt.exec_read haccepts hoffers
      have hkept : List.Forall₂ (fun other content => Store.Accepts
          (machine.store.set name.text value) other (Value.ty content)) names values :=
        hrest.imp fun other content hother => hother.set name.text value
      obtain ⟨left, hleft, hafter⟩ := @ih { machine with
        store := machine.store.set name.text value, input := machine.input.readWord.2 }
        values hkept hoffers.readWord.2
      refine ⟨left, hleft, ?_⟩
      simp only [List.map_cons, Program.exec, bind, EStateM.bind, hread, hafter]
      rfl

/-! ## From one program to another -/

/-- What is printed is read back.  Prints write the texts of their values.  If all that a
run has written is the printed forms of integers, Booleans and words, with separators
between them, and another machine gets these bytes as its input, in any chunks, then
reads of names with the types of the values do not fail, each of them stores the next
of the values, and nothing else is changed. -/
theorem read_takes_back_printed {values : List Value} (hwords : ∀ value ∈ values, value.IsWord)
    {writer : Machine} {source : Program}
    (hspaced : Spaced values (writer.run source).2.output.written.toList) {reader : Machine}
    (hinput : reader.input.bytes = (writer.run source).2.output.written.toList)
    (hends : reader.input.failure = none) {names : List Token}
    (htargets : List.Forall₂ (fun name value => reader.store.Accepts name value.ty)
      names values) :
    (∀ exprs printed, writer.output.capacity = none →
      List.Forall₂ (fun expr value => expr.eval writer.store = .ok value) exprs printed →
      ∃ after, Program.exec (exprs.map .print) writer = .ok () after ∧
        after.output.written.toList =
          writer.output.written.toList ++ printed.flatMap Value.bytes) ∧
    ∀ n, ∃ after, Program.exec ((names.take n).map .read) reader = .ok () after ∧
      after.store = reader.store.setAll (((names.map Token.text).zip values).take n) ∧
      after.output = reader.output ∧ after.input.Offers (values.drop n) ∧
      ∀ name value, names[n]? = some name → values[n]? = some value →
        ∃ next, (Stmt.read name).exec after = .ok () next ∧
          next.store = after.store.set name.text value ∧
          next.store.get? name.text = some value := by
  refine ⟨fun exprs printed hunlimited hvalues => Program.exec_prints hunlimited hvalues, ?_⟩
  intro n
  have hoffers : reader.input.Offers (values.take n ++ values.drop n) := by
    rw [List.take_append_drop]
    refine ⟨?_, hends⟩
    rw [hinput]
    exact hspaced.words_eq hwords
  obtain ⟨left, hleft, hrun⟩ := Program.exec_reads (List.forall₂_take n htargets) hoffers
  refine ⟨_, hrun, ?_, rfl, hleft, ?_⟩
  · rw [List.map_take, List.zip_eq_zipWith, List.zip_eq_zipWith, List.take_zipWith]
  · intro name value hname hvalue
    obtain ⟨hbound, rfl⟩ := List.getElem?_eq_some_iff.1 hname
    obtain ⟨hbound', rfl⟩ := List.getElem?_eq_some_iff.1 hvalue
    have hrest := List.forall₂_drop n htargets
    rw [List.drop_eq_getElem_cons hbound, List.drop_eq_getElem_cons hbound'] at hrest
    rw [List.drop_eq_getElem_cons hbound'] at hleft
    cases hrest with
    | cons haccepts _ =>
      have hstill := haccepts.setAll (((names.take n).map Token.text).zip (values.take n))
      exact ⟨_, Stmt.exec_read hstill hleft, rfl, hstill.get?_set _⟩

/-- The least integer, as a difference. -/
def leastInteger : Expr :=
  .binary .subtraction ⟨.binaryOperator, "-", 1, 29, 28, 29⟩
    (.binary .subtraction ⟨.binaryOperator, "-", 1, 8, 7, 8⟩
      (.leaf ⟨.integerLiteral, "0", 1, 7, 6, 7⟩)
      (.leaf ⟨.integerLiteral, "9223372036854775807", 1, 9, 8, 27⟩))
    (.leaf ⟨.integerLiteral, "1", 1, 30, 29, 30⟩)

/-- Prints the least integer, a word with a vertical tab, a no-break space and a letter of
two bytes, and a Boolean. -/
def printing : Program :=
  [.print leastInteger, .print (.leaf ⟨.stringLiteral, "\n\t", 2, 7, 37, 43⟩),
    .print (.leaf ⟨.stringLiteral, "a\x0b\u00a0\u00e9", 3, 7, 51, 59⟩),
    .print (.leaf ⟨.stringLiteral, " ", 4, 7, 67, 70⟩),
    .print (.leaf ⟨.booleanLiteral, "true", 5, 7, 78, 82⟩)]

/-- A machine that gets what the prints have written, one byte at a time. -/
def listening : Machine :=
  let written := ((Machine.start .empty .unlimited).run printing).2.output.written.toList
  { Machine.start ⟨written.map fun b => [b], none⟩ .unlimited with
    store := ⟨[("i", ⟨.int, .int 0⟩), ("s", ⟨.string, .string ""⟩), ("b", ⟨.bool, .bool false⟩)],
      []⟩ }

/-- The least integer, a word of odd characters and a Boolean arrive as they were printed,
one byte at a time. -/
theorem read_takes_back_printing :
    ∃ after, Program.exec [.read ⟨.identifier, "i", 1, 1, 0, 1⟩,
        .read ⟨.identifier, "s", 2, 1, 2, 3⟩, .read ⟨.identifier, "b", 3, 1, 4, 5⟩] listening =
          .ok () after ∧
      after.store = ⟨[("i", ⟨.int, .int Int64.minValue⟩),
        ("s", ⟨.string, .string "a\x0b\u00a0\u00e9"⟩), ("b", ⟨.bool, .bool true⟩)], []⟩ := by
  have hwritten : ((Machine.start .empty .unlimited).run printing).2.output.written.toList =
      [] ++ (Value.int Int64.minValue).bytes ++ 0x0A ::
        ([0x09] ++ (Value.string "a\x0b\u00a0\u00e9").bytes ++ 0x20 ::
          ([] ++ (Value.bool true).bytes)) := by
    decide +kernel
  have hspaced : Spaced [.int Int64.minValue, .string "a\x0b\u00a0\u00e9", .bool true]
      ((Machine.start .empty .unlimited).run printing).2.output.written.toList := by
    rw [hwritten]
    exact .next (by decide +kernel) rfl
      (.next (by decide +kernel) rfl (.last (by decide +kernel)))
  have htargets : List.Forall₂ (fun name value => listening.store.Accepts name (Value.ty value))
      [⟨.identifier, "i", 1, 1, 0, 1⟩, ⟨.identifier, "s", 2, 1, 2, 3⟩,
        ⟨.identifier, "b", 3, 1, 4, 5⟩]
      [.int Int64.minValue, .string "a\x0b\u00a0\u00e9", .bool true] :=
    .cons ⟨rfl, rfl⟩ (.cons ⟨rfl, rfl⟩ (.cons ⟨rfl, rfl⟩ .nil))
  have hback := read_takes_back_printed (by decide +kernel) hspaced
    (show listening.input.bytes = _ by decide +kernel) rfl htargets
  rcases hback.2 3 with ⟨after, hafter, hstore, -⟩
  exact ⟨after, hafter, hstore⟩

end LoopLang
