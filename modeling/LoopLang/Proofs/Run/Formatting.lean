import LoopLang.Proofs.Machine.Places
import LoopLang.Proofs.Run.Stages
import LoopLang.Proofs.Typing.Places

/-!
# Formatting preserves meaning

A program that is printed and run again does what the source it was read from does.
The printed program is read as the same trees up to places, and neither the check
nor the execution heeds places: both are rejected for the same mistakes, or they
read and write the same and end in the same way.

Main definitions:

- `Ending.Alike`: two ends of runs that differ only in places.

Main results:

- Theorem `execute_of_unplaced`: trees that differ only in places are executed alike.
- Theorem `run_text_alike`: the run of a printed program.
-/

namespace LoopLang

/-- Two runs that end in the same way: both programs were executed, both were found
to have the same semantic mistakes, or the same fault ended both.  Places may be
different. -/
inductive Ending.Alike : Ending → Ending → Prop
  | completed : Alike .completed .completed
  | rejected {mistakes others : List Diagnostic}
      (hsame : mistakes.map Diagnostic.unplaced = others.map Diagnostic.unplaced) :
      Alike (.rejected .semantic mistakes) (.rejected .semantic others)
  | aborted {fault other : Fault} (hsame : fault.unplaced = other.unplaced) :
      Alike (.aborted fault) (.aborted other)

/-- Programs without assertions that differ only in places are executed alike. -/
theorem execute_of_unplaced {program other : Program}
    (hsame : Program.unplaced program = Program.unplaced other)
    (hnone : Program.hasAssertion program = false) (input : Input) (output : Output) :
    (execute program input output).ending.Alike (execute other input output).ending ∧
      (execute program input output).input = (execute other input output).input ∧
      (execute program input output).output = (execute other input output).output := by
  rcases Machine.run_of_unplaced hsame hnone (Machine.start input output) with ⟨hresult, hmachine⟩
  unfold execute
  generalize (Machine.start input output).run program = ended,
    (Machine.start input output).run other = ended' at hresult hmachine ⊢
  rcases ended with ⟨fault | _, machine⟩ <;> rcases ended' with ⟨fault' | _, machine'⟩
  · cases hmachine
    exact ⟨.aborted (Except.error.inj hresult), rfl, rfl⟩
  · cases hresult
  · cases hresult
  · cases hmachine
    exact ⟨.completed, rfl, rfl⟩

/-- The run of a printed program ends like the run of the source that the program was
read from, on every input and output: both are rejected for the same mistakes, or
they read and write the same and are ended by the same fault, if any. -/
theorem run_text_alike {source : String} {program : Program}
    (hwords : (TokenStream.ofSource source).diagnostics = [])
    (hread : Program.ofStream (.ofSource source) = .ok (program, []))
    (hnone : Program.hasAssertion program = false)
    (hstrings : ∀ token ∈ Program.tokens program, token.kind = .stringLiteral →
      ∀ c ∈ token.text.toList, Quoted.Faithful c)
    (input : Input) (output : Output) :
    let printed := run (Program.text program) input output
    let direct := run source input output
    printed.ending.Alike direct.ending ∧ printed.input = direct.input ∧
      printed.output = direct.output := by
  intro printed direct
  rcases Grammar.exists_ofStream_text hread hstrings with ⟨hclean, again, hagain, hsame⟩
  have hmistakes := Program.mistakes_of_unplaced hsame
  have hiff : Program.mistakes again = [] ↔ Program.mistakes program = [] := by
    rw [← List.map_eq_nil_iff, hmistakes, List.map_eq_nil_iff]
  have hprinted : printed = _ := run_eq hagain input output
  have hdirect : direct = _ := run_eq hread input output
  rw [if_pos hclean, if_pos rfl] at hprinted
  rw [if_pos hwords, if_pos rfl] at hdirect
  by_cases htyped : Program.mistakes program = []
  · rw [if_pos (hiff.2 htyped)] at hprinted
    rw [if_pos htyped] at hdirect
    have hnoneAgain : Program.hasAssertion again = false := by
      rw [← Program.hasAssertion_unplaced, hsame, Program.hasAssertion_unplaced, hnone]
    rw [hprinted, hdirect]
    exact execute_of_unplaced hsame hnoneAgain input output
  · rw [if_neg fun hnil => htyped (hiff.1 hnil)] at hprinted
    rw [if_neg htyped] at hdirect
    rw [hprinted, hdirect]
    exact ⟨.rejected hmistakes, rfl, rfl⟩

/-- A source that reads a number, counts up to it, and divides by zero on the way. -/
def quotients : String :=
  "var i:int;read i;for i in 1..i do print 6/(2-i);print\"\\t\\\"\"end for"

/-- The printed program divides by zero after the same output. -/
theorem run_quotients_alike :
    (run quotients (.ofBytes [0x32]) .unlimited).ending = .aborted (.divisionByZero 1 42) ∧
      ∃ program, Program.ofStream (.ofSource quotients) = .ok (program, []) ∧
        Program.text program ≠ quotients ∧
        (run (Program.text program) (.ofBytes [0x32]) .unlimited).ending.Alike
          (run quotients (.ofBytes [0x32]) .unlimited).ending ∧
        (run (Program.text program) (.ofBytes [0x32]) .unlimited).output =
          (run quotients (.ofBytes [0x32]) .unlimited).output := by
  have hwords : (TokenStream.ofSource quotients).diagnostics = [] := by decide +kernel
  have hending : (run quotients (.ofBytes [0x32]) .unlimited).ending =
      .aborted (.divisionByZero 1 42) := by
    decide +kernel
  have hany : (Program.ofStream (.ofSource quotients)).toOption.any (fun (program, mistakes) =>
      decide (mistakes = [] ∧ Program.text program ≠ quotients ∧
        Program.hasAssertion program = false ∧
        ∀ token ∈ Program.tokens program, token.kind = .stringLiteral →
          token.text.toList.all (fun c => decide (Quoted.Faithful c)) = true)) = true := by
    decide +kernel
  rcases Grammar.exists_ofStream_madeOf quotients with ⟨program, mistakes, hread, -⟩
  rw [hread] at hany
  rcases of_decide_eq_true hany with ⟨rfl, htext, hnone, hall⟩
  have hstrings : ∀ token ∈ Program.tokens program, token.kind = .stringLiteral →
      ∀ c ∈ token.text.toList, Quoted.Faithful c := by
    intro token htoken hkind c hc
    exact of_decide_eq_true (List.all_eq_true.1 (hall token htoken hkind) c hc)
  rcases run_text_alike hwords hread hnone hstrings (.ofBytes [0x32]) .unlimited
    with ⟨halike, -, houtput⟩
  exact ⟨hending, program, hread, htext, halike, houtput⟩

end LoopLang
