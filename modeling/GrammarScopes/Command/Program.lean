import GrammarScopes.Command.Arguments

/-!
The program: arguments and files to output and an exit code.
-/

namespace GrammarScopes

structure Outcome where
  exitCode : UInt8
  output : String := ""
  complaint : String := ""
  deriving DecidableEq, Repr

namespace Program

def versionText : String := "embedscope 1.0.0\n"

def usageText : String :=
  "Usage: embedscope [--config FILE] COMMAND\n\n" ++
  "  scopes FILE -l LINE -c CHARACTER [-r SCOPE] [-f text|json]\n" ++
  "  comment-style FILE -l LINE -c CHARACTER [-r SCOPE] [-f text|json]\n" ++
  "  tokens FILE [-l LINE] [-r SCOPE] [-f text|json]\n" ++
  "  help [COMMAND]\n"

def complaintOf (e : CommandError) : String :=
  "Error: " ++ e.message ++
    (e.cause?.map fun cause => "\n\nCaused by:\n    " ++ cause).getD "" ++ "\n"

def runRequest (files : FileTree) (r : Request) : Except CommandError String := do
  r.command.run (← Settings.load files r.settings) files

def run (files : FileTree) (arguments : List String) : Outcome :=
  match Request.ofArguments arguments with
  | .error .invalid => { exitCode := 2, complaint := usageText }
  | .error .help => { exitCode := 0, output := usageText }
  | .error .version => { exitCode := 0, output := versionText }
  | .ok r =>
    match runRequest files r with
    | .ok output => { exitCode := 0, output := output }
    | .error e => { exitCode := 1, complaint := complaintOf e }

/-- The files that a run may look at, as far as the files known so far tell. -/
def wantedFiles (files : FileTree) (arguments : List String) : List FilePath :=
  match Request.ofArguments arguments with
  | .error _ => []
  | .ok r =>
    let grammars := match Settings.load files r.settings with
      | .ok s =>
        match s.directory with
        | some directory => s.table.map fun e => FilePath.join directory e.2
        | none => []
      | .error _ => []
    [r.settings.getD Settings.defaultPath, r.command.input] ++ grammars

end Program

end GrammarScopes
