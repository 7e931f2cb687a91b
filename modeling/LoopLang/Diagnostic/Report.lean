import LoopLang.Diagnostic

/-!
# Reports

A report collects the diagnostics of a run.  It keeps those of each stage apart,
in the order in which they came.

Main definitions:

- `Report.add`, `Report.addAll`: one more diagnostic, or several.
- `Report.ofStage`, `Report.toList`: what one stage reported, and everything,
  stage by stage.

Main results:

- Theorem `Report.ofStage_addAll`: a stage's part of a report grows by exactly
  the added diagnostics of that stage.
-/

namespace LoopLang

/-- The diagnostics of a run, apart by stage. -/
structure Report where
  lexical : List Diagnostic
  syntactic : List Diagnostic
  semantic : List Diagnostic
deriving DecidableEq, Repr

namespace Report

/-- A report of nothing. -/
def empty : Report := ⟨[], [], []⟩

/-- What the given stage reported, in order. -/
def ofStage (report : Report) : Stage → List Diagnostic
  | .lexical => report.lexical
  | .syntactic => report.syntactic
  | .semantic => report.semantic

/-- Adds a diagnostic behind those of its stage. -/
def add (report : Report) (diagnostic : Diagnostic) : Report :=
  match diagnostic.stage with
  | .lexical => { report with lexical := report.lexical ++ [diagnostic] }
  | .syntactic => { report with syntactic := report.syntactic ++ [diagnostic] }
  | .semantic => { report with semantic := report.semantic ++ [diagnostic] }

/-- Adds several diagnostics in order. -/
def addAll (report : Report) (diagnostics : List Diagnostic) : Report :=
  diagnostics.foldl add report

/-- Whether the given stage reported anything. -/
def hasAny (report : Report) (stage : Stage) : Bool :=
  !(report.ofStage stage).isEmpty

/-- All diagnostics, those of an earlier stage first. -/
def toList (report : Report) : List Diagnostic :=
  Stage.all.flatMap report.ofStage

/-- A diagnostic goes behind those of its own stage and to no other. -/
theorem ofStage_add (report : Report) (diagnostic : Diagnostic) (stage : Stage) :
    (report.add diagnostic).ofStage stage =
      report.ofStage stage ++ if diagnostic.stage = stage then [diagnostic] else [] := by
  unfold add
  cases diagnostic.stage <;> cases stage <;> simp [ofStage]

/-- A stage's part of a report grows by the added diagnostics of that stage. -/
theorem ofStage_addAll (report : Report) (diagnostics : List Diagnostic) (stage : Stage) :
    (report.addAll diagnostics).ofStage stage =
      report.ofStage stage ++ diagnostics.filter fun d => d.stage = stage := by
  induction diagnostics generalizing report with
  | nil => simp [addAll]
  | cons d rest ih =>
    have hstep : report.addAll (d :: rest) = (report.add d).addAll rest := rfl
    rw [hstep, ih, ofStage_add]
    by_cases hstage : d.stage = stage <;> simp [hstage]

end Report

end LoopLang
