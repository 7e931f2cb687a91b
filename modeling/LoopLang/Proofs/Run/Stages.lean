import LoopLang.Proofs.Diagnostic.Anchors
import LoopLang.Run

/-!
# The stages of a run

A run asks its report for the diagnostics of a stage, and the report sorts them by
their causes.  Nothing is lost on this way: each stage reports causes of its own
and no others, so what is asked for is exactly what the stage has found.

Main definitions:

- `Stage.Reports`: diagnostics that all belong to a stage.

Main results:

- Theorem `TokenStream.reports_diagnostics`, `Grammar.reports_of_ofStream`,
  `Program.reports_mistakes`: each stage reports causes of its own.
- Theorem `run_eq`: a run by what its stages find.
- Theorem `run_ends_at_first_mistakes`: which stage ends a run, and with what.
-/

namespace LoopLang

/-- All of the diagnostics belong to the stage. -/
def Stage.Reports (stage : Stage) (diagnostics : List Diagnostic) : Prop :=
  ∀ diagnostic ∈ diagnostics, diagnostic.stage = stage

/-! ## What each stage reports -/

/-- A lexeme that is a mistake has a cause of the first stage. -/
theorem Lexeme.stage_of_read {c : Char} {text : List Char} {cause : Cause} {shown : String}
    (hmeaning : (read c text).meaning = .mistake cause shown) : cause.stage = .lexical := by
  unfold read at hmeaning
  split at hmeaning
  · cases hmeaning
  split at hmeaning
  · unfold word wordMeaning at hmeaning
    dsimp only at hmeaning
    split at hmeaning
    · cases hmeaning
    · split at hmeaning
      · cases hmeaning
      · split at hmeaning <;> cases hmeaning
        rfl
  split at hmeaning
  · unfold number numberMeaning at hmeaning
    dsimp only at hmeaning
    split at hmeaning <;> cases hmeaning
    rfl
  split at hmeaning
  · unfold string at hmeaning
    dsimp only at hmeaning
    split at hmeaning <;> cases hmeaning
    rfl
  split at hmeaning
  · unfold colon at hmeaning
    split at hmeaning <;> cases hmeaning
  split at hmeaning
  · unfold dots stray at hmeaning
    split at hmeaning <;> cases hmeaning
    rfl
  · cases hmeaning
    rfl

/-- Reading the words of a source reports lexical mistakes. -/
theorem TokenStream.reports_diagnostics (source : String) :
    Stage.lexical.Reports (ofSource source).diagnostics := by
  intro diagnostic hdiagnostic
  rcases List.mem_filterMap.1 hdiagnostic with ⟨item, hitem, hsome⟩
  rcases slice?_of_mem_items hitem with ⟨c, rest, start, stop, rfl, -⟩
  cases hmeaning : (Lexeme.read c rest).meaning with
  | token kind text =>
    rw [hmeaning] at hsome
    cases hsome
  | mistake cause text =>
    rw [hmeaning] at hsome
    cases hsome
    exact Lexeme.stage_of_read hmeaning

namespace Grammar

/-- Whatever reading does to a cursor, it complains about tokens. -/
theorem Cursor.Advances.reports {before after : Cursor} (hmove : before.Advances after)
    (hbefore : Stage.syntactic.Reports before.diagnostics) :
    Stage.syntactic.Reports after.diagnostics := by
  induction hmove with
  | refl cursor => exact hbefore
  | take cursor => exact hbefore
  | takeWhile cursor p => exact hbefore
  | discard cursor n => exact hbefore
  | complain cursor expected =>
    refine List.forall_mem_append.2 ⟨hbefore, ?_⟩
    rw [List.forall_mem_singleton]
    rfl
  | trans _ _ ihfirst ihsecond => exact ihsecond (ihfirst hbefore)

/-- Reading the statements of a source reports syntactic mistakes. -/
theorem reports_of_ofStream {source : String} {program : Program} {mistakes : List Diagnostic}
    (hread : Program.ofStream (.ofSource source) = .ok (program, mistakes)) :
    Stage.syntactic.Reports mistakes := by
  rcases exists_advances_of_ofStream hread with ⟨after, hmove, rfl⟩
  apply hmove.reports
  intro diagnostic hnone
  cases hnone

end Grammar

/-- The check of a program reports semantic mistakes. -/
theorem Program.reports_mistakes (program : Program) :
    Stage.semantic.Reports (Program.mistakes program) := by
  intro diagnostic hdiagnostic
  exact (Program.check_semanticAbout program .empty diagnostic hdiagnostic).1

/-! ## What a run finds in its report -/

namespace Report

variable {report : Report} {stage other : Stage} {diagnostics : List Diagnostic}

/-- A stage that has reported nothing gets what is added for it. -/
theorem ofStage_addAll_of_reports (hnothing : report.ofStage stage = [])
    (hreports : stage.Reports diagnostics) :
    (report.addAll diagnostics).ofStage stage = diagnostics := by
  rw [ofStage_addAll, hnothing, List.nil_append, List.filter_eq_self]
  intro diagnostic hdiagnostic
  exact decide_eq_true (hreports diagnostic hdiagnostic)

/-- What is added for one stage is not found under another one. -/
theorem ofStage_addAll_of_ne (hreports : other.Reports diagnostics) (hne : other ≠ stage) :
    (report.addAll diagnostics).ofStage stage = report.ofStage stage := by
  have hnone : (diagnostics.filter fun d => d.stage = stage) = [] := by
    rw [List.filter_eq_nil_iff]
    intro diagnostic hdiagnostic
    rw [hreports diagnostic hdiagnostic, decide_eq_true_eq]
    exact hne
  rw [ofStage_addAll, hnone, List.append_nil]

/-- A stage rejects a program if it has found a mistake, and with all that it has
found. -/
theorem rejection?_eq (hfound : report.ofStage stage = diagnostics) :
    report.rejection? stage =
      if diagnostics = [] then none else some (.rejected stage diagnostics) := by
  subst hfound
  unfold rejection? hasAny
  cases report.ofStage stage <;> simp

end Report

/-- An executed program is not rejected. -/
theorem execute_ne_rejected (program : Program) (input : Input) (output : Output) (stage : Stage)
    (diagnostics : List Diagnostic) :
    (execute program input output).ending ≠ .rejected stage diagnostics := by
  unfold execute
  rcases (Machine.start input output).run program with ⟨result, machine⟩
  cases result <;> simp

/-- A run goes on to the next stage as long as no mistakes are found, and it is
rejected with all mistakes of the first stage that finds any. -/
theorem run_eq {source : String} {program : Program} {syntactic : List Diagnostic}
    (hread : Program.ofStream (.ofSource source) = .ok (program, syntactic)) (input : Input)
    (output : Output) :
    run source input output =
      if (TokenStream.ofSource source).diagnostics = [] then
        if syntactic = [] then
          if Program.mistakes program = [] then execute program input output
          else ⟨.rejected .semantic (Program.mistakes program), input, output⟩
        else ⟨.rejected .syntactic syntactic, input, output⟩
      else ⟨.rejected .lexical (TokenStream.ofSource source).diagnostics, input, output⟩ := by
  have hlexical := TokenStream.reports_diagnostics source
  have hsyntactic := Grammar.reports_of_ofStream hread
  have hsemantic := Program.reports_mistakes program
  let words := Report.empty.addAll (TokenStream.ofSource source).diagnostics
  let statements := words.addAll syntactic
  have hwords : words.ofStage .lexical = (TokenStream.ofSource source).diagnostics :=
    Report.ofStage_addAll_of_reports rfl hlexical
  have hstatements : statements.ofStage .syntactic = syntactic := by
    refine Report.ofStage_addAll_of_reports ?_ hsyntactic
    exact Report.ofStage_addAll_of_ne hlexical (by decide)
  have hchecked : (statements.addAll (Program.mistakes program)).ofStage .semantic =
      Program.mistakes program := by
    refine Report.ofStage_addAll_of_reports ?_ hsemantic
    refine (Report.ofStage_addAll_of_ne hsyntactic (by decide)).trans ?_
    exact Report.ofStage_addAll_of_ne hlexical (by decide)
  unfold run
  simp only [hread]
  rw [Report.rejection?_eq hwords, Report.rejection?_eq hstatements, Report.rejection?_eq hchecked]
  by_cases hclean : (TokenStream.ofSource source).diagnostics = []
  · by_cases hgrammatical : syntactic = []
    · by_cases htyped : Program.mistakes program = [] <;> simp [hclean, hgrammatical, htyped]
    · simp [hclean, hgrammatical]
  · simp [hclean]

/-- The first stage that finds mistakes ends the run, with all that it has found and
nothing else, and before anything is read or written.  The program is executed
exactly if no stage finds any. -/
theorem run_ends_at_first_mistakes (source : String) (input : Input) (output : Output) :
    ∃ program syntactic, Program.ofStream (.ofSource source) = .ok (program, syntactic) ∧
      let lexical := (TokenStream.ofSource source).diagnostics
      let semantic := Program.mistakes program
      let ended := run source input output
      (∀ found, ended.ending = .rejected .lexical found ↔ lexical ≠ [] ∧ found = lexical) ∧
      (∀ found, ended.ending = .rejected .syntactic found ↔
        lexical = [] ∧ syntactic ≠ [] ∧ found = syntactic) ∧
      (∀ found, ended.ending = .rejected .semantic found ↔
        lexical = [] ∧ syntactic = [] ∧ semantic ≠ [] ∧ found = semantic) ∧
      (ended = execute program input output ↔ lexical = [] ∧ syntactic = [] ∧ semantic = []) ∧
      ∀ stage found, ended.ending = .rejected stage found →
        ended.input = input ∧ ended.output = output := by
  rcases Grammar.exists_ofStream_madeOf source with ⟨program, syntactic, hread, -⟩
  refine ⟨program, syntactic, hread, ?_⟩
  intro lexical semantic ended
  have hexecuted := execute_ne_rejected program input output
  have hdiffers : ∀ stage found, (⟨.rejected stage found, input, output⟩ : Run) ≠
      execute program input output := by
    intro stage found hsame
    exact hexecuted stage found (congrArg Run.ending hsame).symm
  have hcomm : ∀ mine found : List Diagnostic, mine = found ↔ found = mine :=
    fun _ _ => eq_comm
  have hended : ended = _ := run_eq hread input output
  by_cases hlexical : lexical = []
  · by_cases hsyntactic : syntactic = []
    · by_cases hsemantic : semantic = []
      · rw [if_pos hlexical, if_pos hsyntactic, if_pos hsemantic] at hended
        simp [hended, hlexical, hsyntactic, hsemantic, hexecuted]
      · rw [if_pos hlexical, if_pos hsyntactic, if_neg hsemantic] at hended
        simpa [hended, hlexical, hsyntactic, hsemantic, hdiffers] using hcomm semantic
    · rw [if_pos hlexical, if_neg hsyntactic] at hended
      simpa [hended, hlexical, hsyntactic, hdiffers] using hcomm syntactic
  · rw [if_neg hlexical] at hended
    simpa [hended, hlexical, hdiffers] using hcomm lexical

end LoopLang
