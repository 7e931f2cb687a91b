import LoopLang.Machine.Input

/-!
# Words of an input

The words that a program reads do not depend on how the bytes arrive.  A call goes
through the bytes one by one, and the end of a chunk is no event for it: what it has
of a word is carried over to the next chunk.  So the answers to any number of calls
are those for the bytes in one piece, and these are the runs between separators.

Main definitions:

- `Input.isWhitespace`: the bytes between words.
- `Input.joined`: the same input, arriving at once.
- `Input.readWords`: any number of calls, one after the other.
- `Input.Reading`: what one call takes from the bytes, and what it gives.
- `Input.words`, `Input.ending`: the words of an input, and what comes after them.

Main results:

- Theorem `Input.scanChunk_cons`: a chunk is gone through byte by byte.
- Theorem `Input.scanChunks_flatten`: the end of a chunk makes no difference.
- Theorem `Input.reading_readWord`: what one call does.
- Theorem `Input.readWords_independent_of_chunks`: the answers to all calls.
-/

namespace LoopLang

namespace Input

/-! ## Chunks -/

/-- ASCII whitespace: the space, the tab, the line feed, the form feed and the carriage
return. -/
def isWhitespace (b : UInt8) : Bool :=
  [0x20, 0x09, 0x0A, 0x0C, 0x0D].contains b

/-- The bytes that separate words are those of ASCII whitespace. -/
theorem isSeparator_eq (b : UInt8) : isSeparator b = isWhitespace b := by
  rw [Bool.eq_iff_iff]
  simp [isSeparator, isWhitespace, or_assoc]

@[simp]
theorem scanChunk_nil (word : List UInt8) : scanChunk word [] = ⟨word, [], false⟩ := by
  simp [scanChunk]

/-- A chunk is gone through byte by byte: a separator ends a word that has begun, and
every other byte goes to the word. -/
theorem scanChunk_cons (word : List UInt8) (b : UInt8) (bytes : List UInt8) :
    scanChunk word (b :: bytes) =
      if isWhitespace b then
        if word.isEmpty then scanChunk [] bytes else ⟨word, bytes, true⟩
      else scanChunk (word ++ [b]) bytes := by
  cases hseparator : isWhitespace b with
  | true => cases word <;> simp [scanChunk, isSeparator_eq, hseparator]
  | false => cases word <;> simp [scanChunk, isSeparator_eq, hseparator]

/-- What is left of a word at the end of one piece is what the next piece goes on
with. -/
theorem scanChunk_append (word front rest : List UInt8) :
    scanChunk word (front ++ rest) =
      let scanned := scanChunk word front
      if scanned.ended then ⟨scanned.word, scanned.rest ++ rest, true⟩
      else scanChunk scanned.word rest := by
  induction front generalizing word with
  | nil => simp
  | cons b front ih =>
    rw [List.cons_append, scanChunk_cons, scanChunk_cons]
    cases isWhitespace b with
    | true => cases word <;> simp [ih]
    | false => simp [ih]

/-- The end of a chunk makes no difference. -/
theorem scanChunks_flatten (failure : Option String) (word : List UInt8)
    (chunks : List (List UInt8)) :
    let whole := scanChunks failure word [chunks.flatten]
    (scanChunks failure word chunks).1 = whole.1 ∧
      (scanChunks failure word chunks).2.flatten = whole.2.flatten := by
  induction chunks generalizing word with
  | nil => simp [scanChunks]
  | cons chunk rest ih =>
    have happend := scanChunk_append word chunk rest.flatten
    cases hended : (scanChunk word chunk).ended with
    | true => simp [scanChunks, hended, happend]
    | false => simpa [scanChunks, hended, happend] using ih (scanChunk word chunk).word

/-! ## One call -/

/-- The text of the bytes of a word. -/
def decoded (word : List UInt8) : String :=
  String.ofList (Utf8.decodeLossy word)

/-- The same input, arriving at once. -/
def joined (input : Input) : Input :=
  ⟨[input.bytes], input.failure⟩

/-- What one call takes from the front of the bytes and what it gives, in front of
the bytes that it leaves. -/
inductive Reading (failure : Option String) :
    List UInt8 → Except Fault (List UInt8) → List UInt8 → Prop where
  /-- A word and the separator after it. -/
  | separated {gap word rest : List UInt8} {separator : UInt8}
      (hgap : ∀ b ∈ gap, isWhitespace b = true) (hword : ∀ b ∈ word, isWhitespace b = false)
      (hsome : word ≠ []) (hseparator : isWhitespace separator = true) :
      Reading failure (gap ++ word ++ separator :: rest) (.ok word) rest
  /-- A word up to the end. -/
  | last {gap word : List UInt8} (hgap : ∀ b ∈ gap, isWhitespace b = true)
      (hword : ∀ b ∈ word, isWhitespace b = false) (hsome : word ≠ []) (hends : failure = none) :
      Reading failure (gap ++ word) (.ok word) []
  /-- No word before the end. -/
  | exhausted {gap : List UInt8} (hgap : ∀ b ∈ gap, isWhitespace b = true)
      (hends : failure = none) : Reading failure gap (.error .inputExhausted) []
  /-- The place where the input fails, with or without bytes of a word before it. -/
  | broken {gap word : List UInt8} {reason : String} (hgap : ∀ b ∈ gap, isWhitespace b = true)
      (hword : ∀ b ∈ word, isWhitespace b = false) (hfails : failure = some reason) :
      Reading failure (gap ++ word) (.error (.stream reason)) []

/-- A word that has begun goes on up to the next separator. -/
theorem exists_scanChunk_word {word : List UInt8} (hsome : word ≠ []) (bytes : List UInt8) :
    ∃ more, (∀ b ∈ more, isWhitespace b = false) ∧
      ((bytes = more ∧ scanChunk word bytes = ⟨word ++ more, [], false⟩) ∨
        ∃ separator rest, isWhitespace separator = true ∧ bytes = more ++ separator :: rest ∧
          scanChunk word bytes = ⟨word ++ more, rest, true⟩) := by
  induction bytes generalizing word with
  | nil => exact ⟨[], by simp, .inl ⟨rfl, by simp⟩⟩
  | cons b bytes ih =>
    rw [scanChunk_cons]
    cases hb : isWhitespace b with
    | true => exact ⟨[], by simp, .inr ⟨b, bytes, hb, rfl, by simp [hsome]⟩⟩
    | false =>
      obtain ⟨more, hmore, hcases⟩ := @ih (word ++ [b]) (by simp)
      refine ⟨b :: more, List.forall_mem_cons.2 ⟨hb, hmore⟩, ?_⟩
      rcases hcases with ⟨rfl, hscan⟩ | ⟨separator, rest, hseparator, rfl, hscan⟩
      · exact .inl ⟨rfl, by simpa using hscan⟩
      · exact .inr ⟨separator, rest, hseparator, rfl, by simpa using hscan⟩

/-- A piece begins with separators and bytes of a word, and then there is the separator
after the word or nothing. -/
theorem exists_scanChunk_eq (bytes : List UInt8) :
    ∃ gap word, (∀ b ∈ gap, isWhitespace b = true) ∧ (∀ b ∈ word, isWhitespace b = false) ∧
      ((bytes = gap ++ word ∧ scanChunk [] bytes = ⟨word, [], false⟩) ∨
        ∃ separator rest, isWhitespace separator = true ∧ word ≠ [] ∧
          bytes = gap ++ word ++ separator :: rest ∧ scanChunk [] bytes = ⟨word, rest, true⟩) := by
  induction bytes with
  | nil => exact ⟨[], [], by simp, by simp, .inl ⟨rfl, by simp⟩⟩
  | cons b bytes ih =>
    rw [scanChunk_cons]
    cases hb : isWhitespace b with
    | true =>
      obtain ⟨gap, word, hgap, hword, hcases⟩ := ih
      refine ⟨b :: gap, word, List.forall_mem_cons.2 ⟨hb, hgap⟩, hword, ?_⟩
      rcases hcases with ⟨rfl, hscan⟩ | ⟨separator, rest, hseparator, hsome, rfl, hscan⟩
      · exact .inl ⟨rfl, hscan⟩
      · exact .inr ⟨separator, rest, hseparator, hsome, rfl, hscan⟩
    | false =>
      obtain ⟨more, hmore, hcases⟩ := exists_scanChunk_word (List.cons_ne_nil b []) bytes
      refine ⟨[], b :: more, by simp, List.forall_mem_cons.2 ⟨hb, hmore⟩, ?_⟩
      rcases hcases with ⟨rfl, hscan⟩ | ⟨separator, rest, hseparator, rfl, hscan⟩
      · exact .inl ⟨rfl, hscan⟩
      · exact .inr ⟨separator, rest, hseparator, List.cons_ne_nil b more, rfl, hscan⟩

/-- What a call does in front of bytes that arrive at once. -/
theorem reading_scanChunks (failure : Option String) (bytes : List UInt8) :
    Reading failure bytes (scanChunks failure [] [bytes]).1
      (scanChunks failure [] [bytes]).2.flatten := by
  obtain ⟨gap, word, hgap, hword, hcases⟩ := exists_scanChunk_eq bytes
  rcases hcases with ⟨rfl, hscan⟩ | ⟨separator, rest, hseparator, hsome, rfl, hscan⟩
  · simp only [scanChunks, hscan, Bool.false_eq_true, if_false]
    cases failure with
    | some reason => exact .broken hgap hword rfl
    | none =>
      cases word with
      | nil =>
        rw [List.append_nil]
        exact .exhausted hgap rfl
      | cons b word => exact .last hgap hword (List.cons_ne_nil b word) rfl
  · simp only [scanChunks, hscan, if_true, List.flatten_cons, List.flatten_nil, List.append_nil]
    exact .separated hgap hword hsome hseparator

/-- What one call does, however the bytes arrive. -/
theorem reading_readWord (input : Input) :
    ∃ result, Reading input.failure input.bytes result input.readWord.2.bytes ∧
      input.readWord.1 = result.map decoded ∧ input.readWord.2.failure = input.failure := by
  have hflatten := scanChunks_flatten input.failure [] input.chunks
  have hbytes : input.readWord.2.bytes =
      (scanChunks input.failure [] [input.bytes]).2.flatten := hflatten.2
  refine ⟨(scanChunks input.failure [] [input.bytes]).1, ?_, ?_, rfl⟩
  · rw [hbytes]
    exact reading_scanChunks input.failure input.bytes
  · exact congrArg (Except.map decoded) hflatten.1

/-- An input that arrives at once gives the same answer and has the same bytes left. -/
theorem readWord_joined (input : Input) :
    input.joined.readWord.1 = input.readWord.1 ∧
      input.joined.readWord.2.joined = input.readWord.2.joined := by
  have hflatten := scanChunks_flatten input.failure [] input.chunks
  constructor
  · exact congrArg (Except.map decoded) hflatten.1.symm
  · exact congrArg (fun bytes => Input.mk [bytes] input.failure) hflatten.2.symm

/-! ## All calls -/

/-- The answers to the given number of calls, and what is left of the input. -/
def readWords : Nat → Input → List (Except Fault String) × Input
  | 0, input => ([], input)
  | n + 1, input =>
    let (answer, after) := input.readWord
    let (answers, final) := readWords n after
    (answer :: answers, final)

/-- An input that arrives at once gives the same answers to all calls. -/
theorem readWords_joined (n : Nat) (input : Input) :
    (input.joined.readWords n).1 = (input.readWords n).1 ∧
      (input.joined.readWords n).2.joined = (input.readWords n).2.joined := by
  induction n generalizing input with
  | zero =>
    refine ⟨rfl, ?_⟩
    simp [readWords, joined, bytes]
  | succ n ih =>
    obtain ⟨hanswer, hafter⟩ := readWord_joined input
    have hinput := ih input.readWord.2
    have hjoined := ih input.joined.readWord.2
    rw [hafter] at hjoined
    constructor
    · simp only [readWords, hanswer]
      rw [← hjoined.1, hinput.1]
    · exact hjoined.2.symm.trans hinput.2

/-- What is answered where there is no further word. -/
def ending : Option String → Fault
  | none => .inputExhausted
  | some reason => .stream reason

/-- The words of bytes: the pieces between separators that are not empty.  Where the
input fails at its end, the last piece is not one of them. -/
def words (failure : Option String) (bytes : List UInt8) : List (List UInt8) :=
  let pieces := bytes.splitOnP isWhitespace
  (if failure.isSome then pieces.dropLast else pieces).filter fun piece => !piece.isEmpty

theorem words_nil (failure : Option String) : words failure [] = [] := by
  cases failure <;> rfl

/-- Separators make empty pieces in front of a word. -/
theorem splitOnP_gap_append {gap word : List UInt8} (hgap : ∀ b ∈ gap, isWhitespace b = true)
    (hword : ∀ b ∈ word, isWhitespace b = false) :
    (gap ++ word).splitOnP isWhitespace = List.replicate gap.length [] ++ [word] := by
  induction gap with
  | nil => exact List.splitOnP_eq_singleton hword
  | cons b gap ih =>
    rw [List.forall_mem_cons] at hgap
    rw [List.cons_append, List.splitOnP_cons_eq_if_modifyHead, if_pos hgap.1, ih hgap.2]
    rfl

/-- A word in front of a separator is the first one. -/
theorem words_separated (failure : Option String) {gap word rest : List UInt8} {separator : UInt8}
    (hgap : ∀ b ∈ gap, isWhitespace b = true) (hword : ∀ b ∈ word, isWhitespace b = false)
    (hsome : word ≠ []) (hseparator : isWhitespace separator = true) :
    words failure (gap ++ word ++ separator :: rest) = word :: words failure rest := by
  have hpieces := List.splitOnP_append_cons (gap ++ word) rest hseparator
  rw [splitOnP_gap_append hgap hword] at hpieces
  rw [words, hpieces]
  cases failure with
  | none => simp [words, hsome]
  | some reason =>
    have hlast := List.splitOnP_ne_nil isWhitespace rest
    simp only [Option.isSome_some, if_true, List.dropLast_append_of_ne_nil hlast]
    simp [words, hsome]

/-- The bytes up to the end are a word unless the input fails there. -/
theorem words_last (failure : Option String) {gap word : List UInt8}
    (hgap : ∀ b ∈ gap, isWhitespace b = true) (hword : ∀ b ∈ word, isWhitespace b = false) :
    words failure (gap ++ word) = if failure.isSome || word.isEmpty then [] else [word] := by
  rw [words, splitOnP_gap_append hgap hword]
  cases failure <;> cases word <;> simp

/-- A call gives the first of the words and leaves the others, or there are none. -/
theorem Reading.words_eq {failure : Option String} {bytes rest : List UInt8}
    {result : Except Fault (List UInt8)} (hreading : Reading failure bytes result rest) :
    (∃ word, result = .ok word ∧ words failure bytes = word :: words failure rest) ∨
      (result = .error (ending failure) ∧ words failure bytes = [] ∧ words failure rest = []) := by
  cases hreading with
  | separated hgap hword hsome hseparator =>
    exact .inl ⟨_, rfl, words_separated failure hgap hword hsome hseparator⟩
  | @last gap word hgap hword hsome hends =>
    refine .inl ⟨word, rfl, ?_⟩
    rw [words_last failure hgap hword, words_nil]
    simp [hends, hsome]
  | exhausted hgap hends =>
    refine .inr ⟨by rw [hends]; rfl, ?_, words_nil failure⟩
    have hwords := words_last failure hgap (List.forall_mem_nil _)
    simpa using hwords
  | broken hgap hword hfails =>
    refine .inr ⟨by rw [hfails]; rfl, ?_, words_nil failure⟩
    rw [words_last failure hgap hword, hfails]
    rfl

/-- The answers are the words and then, for all further calls, how the input ends. -/
theorem readWords_eq (n : Nat) (input : Input) :
    let found := words input.failure input.bytes
    (input.readWords n).1 = ((found.take n).map fun word => .ok (decoded word)) ++
      List.replicate (n - found.length) (.error (ending input.failure)) := by
  induction n generalizing input with
  | zero => simp [readWords]
  | succ n ih =>
    obtain ⟨result, hreading, hanswer, hfailure⟩ := reading_readWord input
    have hafter := ih input.readWord.2
    rw [hfailure] at hafter
    have hcons : (input.readWords (n + 1)).1 =
        result.map decoded :: (input.readWord.2.readWords n).1 := by
      rw [← hanswer]
      rfl
    intro found
    rw [hcons, hafter]
    rcases hreading.words_eq with ⟨word, rfl, hwords⟩ | ⟨rfl, hnone, hnoneAfter⟩
    · simp [found, hwords, Except.map]
    · simp [found, hnone, hnoneAfter, Except.map, List.replicate_succ]

/-- Reading does not change how an input ends. -/
theorem failure_readWords (n : Nat) (input : Input) :
    (input.readWords n).2.failure = input.failure := by
  induction n generalizing input with
  | zero => rfl
  | succ n ih => exact ih input.readWord.2

/-- Reading is independent of how the bytes arrive.  The answers to any number of calls,
and the bytes that are left, are those for an input that arrives at once: first the words
between separators, each decoded, and then how the input ends.  The next call takes the
separators in front of a word, the word and one separator after it. -/
theorem readWords_independent_of_chunks (input : Input) (n : Nat) :
    let found := words input.failure input.bytes
    let before := (input.readWords n).2
    (input.readWords n).1 = (input.joined.readWords n).1 ∧
    before.bytes = (input.joined.readWords n).2.bytes ∧
    (input.readWords n).1 = ((found.take n).map fun word => .ok (decoded word)) ++
      List.replicate (n - found.length) (.error (ending input.failure)) ∧
    ∃ result, Reading input.failure before.bytes result before.readWord.2.bytes ∧
      before.readWord.1 = result.map decoded := by
  intro found before
  obtain ⟨hanswers, hleft⟩ := readWords_joined n input
  obtain ⟨result, hreading, hanswer, -⟩ := reading_readWord before
  refine ⟨hanswers.symm, ?_, readWords_eq n input, result, ?_, hanswer⟩
  · have hbytes : [(input.joined.readWords n).2.bytes] = [before.bytes] :=
      congrArg Input.chunks hleft
    exact (List.singleton_inj.1 hbytes).symm
  · rw [← failure_readWords n input]
    exact hreading

/-- Where the input fails, the bytes after the last separator are no word. -/
example :
    words none [0x20, 0x61, 0x62, 0x0A, 0x0C, 0x63] = [[0x61, 0x62], [0x63]] ∧
      words (some "broken input") [0x20, 0x61, 0x62, 0x0A, 0x0C, 0x63] = [[0x61, 0x62]] := by
  decide

end Input

end LoopLang
