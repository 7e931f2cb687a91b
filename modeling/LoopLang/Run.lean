import LoopLang.Diagnostic.Report
import LoopLang.Grammar.Program
import LoopLang.Machine.Exec
import LoopLang.Typing

/-!
# Runs

A source text goes through reading its words, reading its statements, the check
of its names and types, and execution.  Each step is made only if the one before
found no mistake.

Main definitions:

- `Ending`: how a run ends.
- `run`: runs a source text on an input and an output.
-/

namespace LoopLang

/-- How a run ends. -/
inductive Ending where
  /-- The program was executed. -/
  | completed
  /-- A stage found mistakes. -/
  | rejected (stage : Stage) (diagnostics : List Diagnostic)
  /-- A fault ended the run. -/
  | aborted (fault : Fault)
deriving DecidableEq, Repr

/-- A finished run, with what is left of its input and what its output holds. -/
structure Run where
  ending : Ending
  input : Input
  output : Output
deriving DecidableEq, Repr

/-- The end of a run by mistakes of the given stage, if the report has any. -/
def Report.rejection? (report : Report) (stage : Stage) : Option Ending :=
  if report.hasAny stage then some (.rejected stage (report.ofStage stage)) else none

/-- Executes a program that passed all checks. -/
def execute (program : Program) (input : Input) (output : Output) : Run :=
  let (result, machine) := (Machine.start input output).run program
  let ending := match result with
    | .ok () => .completed
    | .error fault => .aborted fault
  ⟨ending, machine.input, machine.output⟩

/-- Runs a source text. -/
def run (source : String) (input : Input) (output : Output) : Run :=
  let stream := TokenStream.ofSource source
  let report := Report.empty.addAll stream.diagnostics
  match report.rejection? .lexical with
  | some ending => ⟨ending, input, output⟩
  | none =>
    match Program.ofStream stream with
    | .error fault => ⟨.aborted fault, input, output⟩
    | .ok (program, mistakes) =>
      let report := report.addAll mistakes
      match report.rejection? .syntactic with
      | some ending => ⟨ending, input, output⟩
      | none =>
        let report := report.addAll (Program.mistakes program)
        match report.rejection? .semantic with
        | some ending => ⟨ending, input, output⟩
        | none => execute program input output

end LoopLang
