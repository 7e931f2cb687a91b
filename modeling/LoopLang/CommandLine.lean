import LoopLang.Run

/-!
# The command line

What the command line tool does with the files it is given, as a function of
their contents.

Main definitions:

- `FileFault`: why a file cannot be used.
- `Transcript`: what a run of the tool leaves behind.
- `CommandLine.transcript`: the transcript for given files.
-/

namespace LoopLang

/-- Why a file cannot be used. -/
inductive FileFault where
  /-- There is no such file. -/
  | missing
  /-- The file is not text. -/
  | notText
  /-- Another reason, in the words of the system. -/
  | other (reason : String)
deriving DecidableEq, Repr

/-- The wording of a file fault. -/
def FileFault.message : FileFault → String
  | missing => "No such file or directory (os error 2)"
  | notText => "stream did not contain valid UTF-8"
  | other reason => reason

/-- What a run of the tool leaves behind. -/
structure Transcript where
  exitCode : UInt8
  standardOutput : List UInt8
  standardError : String
deriving DecidableEq, Repr

namespace CommandLine

/-- A file by its name and its content, if it can be read. -/
structure File where
  path : String
  content : Except FileFault (List UInt8)

/-- The text of a file. -/
def File.text (file : File) : Except FileFault String :=
  match file.content with
  | .error fault => .error fault
  | .ok bytes =>
    match Utf8.decode? bytes with
    | some text => .ok (String.ofList text)
    | none => .error .notText

/-- The lines shown for the mistakes of a stage. -/
def rejectionText (source : String) (stage : Stage) (diagnostics : List Diagnostic) : String :=
  let entry := fun diagnostic : Diagnostic =>
    let help := match diagnostic.cause.advice with
      | some advice => "help: " ++ advice ++ "\n"
      | none => ""
    diagnostic.render source ++ "\n" ++ help
  "Your program contained some " ++ stage.name ++
    " errors and could not be interpreted:\n" ++ String.join (diagnostics.map entry)

/-- The transcript of a run: status 0 after a completed one, 1 after a rejected
one, 2 after a fault. -/
def ofRun (source : String) (run : Run) : Transcript :=
  let written := run.output.written.toList
  match run.ending with
  | .completed => ⟨0, written, ""⟩
  | .rejected stage diagnostics =>
    ⟨1, written ++ Utf8.encode (rejectionText source stage diagnostics).toList, ""⟩
  | .aborted fault => ⟨2, written, "Fatal error: " ++ fault.message ++ "\n"⟩

/-- The transcript for a program file and the file its input comes from.  The
program file is looked at first. -/
def transcript (program input : File) : Transcript :=
  match program.text with
  | .error fault => ⟨2, [], "Failed to read " ++ program.path ++ ": " ++ fault.message ++ "\n"⟩
  | .ok source =>
    match input.content with
    | .error fault => ⟨2, [], "Failed to open " ++ input.path ++ ": " ++ fault.message ++ "\n"⟩
    | .ok bytes => ofRun source (run source (.ofBytes bytes) .unlimited)

end CommandLine

end LoopLang
