import GrammarScopes.Command.Program

/-!
The command line: the files that a run may look at are read, and then the program runs on them.
-/

namespace GrammarScopes

def addFromDisk (files : FileTree) (path : FilePath) : IO FileTree := do
  try
    let data ← IO.FS.readBinFile path
    return files.write path (match String.fromUTF8? data with
      | some text => .text text
      | none => .binary)
  catch e =>
    match e with
    | .inappropriateType .. => return files.makeDirectory path
    | _ => return files

def filesFromDisk (files : FileTree) (arguments : List String) : IO FileTree :=
  (Program.wantedFiles files arguments).foldlM addFromDisk files

end GrammarScopes

open GrammarScopes in
def main (arguments : List String) : IO UInt32 := do
  let files ← filesFromDisk {} arguments
  let files ← filesFromDisk files arguments
  let outcome := Program.run files arguments
  (← IO.getStdout).putStr outcome.output
  (← IO.getStderr).putStr outcome.complaint
  return outcome.exitCode.toUInt32
