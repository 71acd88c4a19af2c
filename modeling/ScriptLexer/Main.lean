import ScriptLexer.CommandLine.Run

/-! The command. It opens files, reads typed lines and writes output; everything else is decided by
the command-line modules. -/
namespace ScriptLexer.CommandLine

def write (output : Output) : IO Unit := do
  (← IO.getStderr).putStr (String.ofList output.err)
  let out ← IO.getStdout
  out.putStr (String.ofList output.out)
  out.flush

/-- The bytes of a file, or what the system says when it cannot be opened. -/
def openOnDisk (path : Text) : IO (Except Text (List UInt8)) := do
  try
    return .ok (← IO.FS.readBinFile (String.ofList path)).toList
  catch
    | .noFileOrDirectory .. => return .error OpenFailure.notFound.message
    | .inappropriateType none .. => return .error OpenFailure.isFolder.message
    | .inappropriateType (some _) .. => return .error OpenFailure.notFolder.message
    | .invalidArgument .. => return .error OpenFailure.nameTooLong.message
    | other => return .error other.toString.toList

def finish {ε : Type} (describe : ε → Text) : Except (Unreadable ε) Ending → IO UInt32
  | .ok ending => do
    write ending.output
    return ending.code.toUInt32
  | .error failure => throw (.userError (String.ofList (failure.message describe)))

/-- Answers every line as it is typed. -/
partial def prompt (json : Bool) : IO UInt32 := do
  write { out := promptText }
  match unifyNewlines (← (← IO.getStdin).getLine).toList with
  | [] =>
    write { out := ['\n'] }
    return exitOk.toUInt32
  | line =>
    write (runSource json promptFile line).1
    prompt json

end ScriptLexer.CommandLine

open ScriptLexer ScriptLexer.CommandLine in
def main (arguments : List String) : IO UInt32 := do
  let arguments := arguments.map String.toList
  match request arguments with
  | .run none json => prompt json
  | .run (some path) json =>
    let opened ← openOnDisk path
    finish id (runFile id json path (readScript (fun _ => opened) path))
  | _ => finish OpenFailure.message (run (fun _ => .error .notFound) [] arguments)
