import LoopLang.CommandLine

/-!
# The command line tool

Reads a program file, and the input of its `read` statements from standard input
or from the file after `--input`, and shows the transcript.
-/

namespace LoopLang

namespace CommandLine

/-- Reads a file of the given name. -/
def File.load (path : String) : IO File := do
  try
    let bytes ← IO.FS.readBinFile path
    return ⟨path, .ok bytes.toList⟩
  catch
    | .noFileOrDirectory .. => return ⟨path, .error .missing⟩
    | error => return ⟨path, .error (.other (toString error))⟩

/-- Reads standard input to its end. -/
def File.loadStandardInput : IO File := do
  let bytes ← (← IO.getStdin).readBinToEnd
  return ⟨"standard input", .ok bytes.toList⟩

/-- Shows a transcript and returns its status. -/
def display (transcript : Transcript) : IO UInt32 := do
  let out ← IO.getStdout
  out.write ⟨transcript.standardOutput.toArray⟩
  out.flush
  let err ← IO.getStderr
  err.putStr transcript.standardError
  return transcript.exitCode.toUInt32

end CommandLine

end LoopLang

open LoopLang.CommandLine in
/-- Runs the program file that the arguments name. -/
def main (args : List String) : IO UInt32 := do
  match args with
  | [path] =>
    let program ← File.load path
    let input ← File.loadStandardInput
    display (transcript program input)
  | [path, "--input", inputPath] | ["--input", inputPath, path] =>
    let program ← File.load path
    let input ← File.load inputPath
    display (transcript program input)
  | _ =>
    (← IO.getStderr).putStrLn "usage: FILE [--input FILE]"
    return 2
