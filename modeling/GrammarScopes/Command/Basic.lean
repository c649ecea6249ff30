import GrammarScopes.Json.Value
import GrammarScopes.Service
import GrammarScopes.Settings.Toml

/-!
Commands: what is printed about a document.  Settings come from a file of their own.
-/

namespace GrammarScopes

inductive OutputFormat
  | text
  | json
  deriving DecidableEq, Repr, Inhabited

def OutputFormat.ofName? : String → Option OutputFormat
  | "text" => some text
  | "json" => some json
  | _ => none

inductive Command
  | scopes (input : FilePath) (position : Position) (root : Option String) (format : OutputFormat)
  | commentStyle (input : FilePath) (position : Position) (root : Option String)
      (format : OutputFormat)
  | tokens (input : FilePath) (line : Option Nat) (root : Option String) (format : OutputFormat)
  deriving DecidableEq, Repr

inductive CommandError
  | settingsNotFound (path : FilePath)
  | settingsNotRead (path : FilePath) (fault : FileFault)
  | settingsInvalid (path : FilePath)
  | inputNotFound (path : FilePath)
  | inputNotRead (path : FilePath) (fault : FileFault)
  | notTokenized (path : FilePath) (e : ScopeError)
  | lineOutOfRange (line : Nat) (path : FilePath) (count : Nat)
  deriving DecidableEq, Repr

namespace CommandError

def message : CommandError → String
  | settingsNotFound path => "Config file not found: " ++ path
  | settingsNotRead path _ => "Failed to read config: " ++ path
  | settingsInvalid path => "Failed to parse config: " ++ path
  | inputNotFound path => "Input file not found: " ++ path
  | inputNotRead path _ => "Failed to read input file: " ++ path
  | notTokenized path _ => "Failed to tokenize " ++ path
  | lineOutOfRange line path count =>
    "Line " ++ toString line ++ " is out of range (" ++ path ++ " has " ++ toString count ++
      " lines)"

def cause? : CommandError → Option String
  | settingsNotRead _ fault | inputNotRead _ fault => some fault.message
  | notTokenized _ e => some e.message
  | _ => none

end CommandError

/-! ### Files -/

def Settings.defaultPath : FilePath := "embedscope.toml"

/-- The settings in a file.  A directory that they name is seen from that of the file. -/
def Settings.read (files : FileTree) (path : FilePath) : Except CommandError Settings :=
  match files.readText path with
  | .error fault => .error (.settingsNotRead path fault)
  | .ok text =>
    match Settings.ofToml? text with
    | none => .error (.settingsInvalid path)
    | some s => .ok (s.rebase (FilePath.parent path))

/-- The settings in a file that is named; else those in the default place, if there are any. -/
def Settings.load (files : FileTree) : Option FilePath → Except CommandError Settings
  | some path => if files.contains path then read files path else .error (.settingsNotFound path)
  | none => if files.contains defaultPath then read files defaultPath else .ok {}

def Document.read (files : FileTree) (path : FilePath) : Except CommandError Document :=
  if files.contains path then
    match files.readText path with
    | .ok text => .ok (.ofText text)
    | .error fault => .error (.inputNotRead path fault)
  else .error (.inputNotFound path)

/-! ### Output -/

def JsonValue.ofTexts (texts : List String) : JsonValue := .list (texts.map .string)

def JsonValue.lines (j : JsonValue) : String := j.pretty ++ "\n"

def textOfScopes (p : Position) (root : String) : Option (List String) → String
  | some scopes => String.join (scopes.map (· ++ "\n"))
  | none =>
    "No scopes at " ++ toString p.line ++ ":" ++ toString p.character ++ " (grammar " ++ root ++
      " unavailable or position out of range)\n"

def jsonOfScopes (p : Position) (root : String) (scopes : Option (List String)) : JsonValue :=
  .object [("character", .number p.character), ("line", .number p.line),
    ("rootScope", .string root), ("scopes", (scopes.map .ofTexts).getD .null)]

def CommentStyle.toJson (s : CommentStyle) : JsonValue :=
  .object [("close", (s.closing?.map .string).getD .null), ("open", .string s.opening),
    ("style", .string s.name)]

structure TokenReport where
  line : Nat
  tokens : List Token
  deriving DecidableEq, Repr

namespace TokenReport

def ofLines (lines : List (List Token)) (line : Option Nat) : List TokenReport :=
  let reports := lines.mapIdx TokenReport.mk
  match line with
  | some line => reports.filter (·.line == line)
  | none => reports

def textOfToken (line : Nat) (t : Token) : String :=
  toString line ++ ":" ++ toString t.start ++ "-" ++ toString t.stop ++ " " ++
    " ".intercalate t.scopes ++ "\n"

def text (r : TokenReport) : String := String.join (r.tokens.map (textOfToken r.line))

def jsonOfToken (t : Token) : JsonValue :=
  .object [("startIndex", .number t.start), ("endIndex", .number t.stop),
    ("scopes", .ofTexts t.scopes)]

def toJson (r : TokenReport) : JsonValue :=
  .object [("line", .number r.line), ("tokens", .list (r.tokens.map jsonOfToken))]

end TokenReport

namespace Command

def input : Command → FilePath
  | scopes input .. | commentStyle input .. | tokens input .. => input

def print (service : Service) (d : Document) : Command → Except CommandError String
  | scopes _ p root format =>
    let scopes := service.scopesAt? d p root
    let root := root.getD service.rootScope
    match format with
    | .text => .ok (textOfScopes p root scopes)
    | .json => .ok (jsonOfScopes p root scopes).lines
  | commentStyle _ p root format =>
    let style := service.commentStyleAt d p root
    match format with
    | .text => .ok (style.display ++ "\n")
    | .json => .ok style.toJson.lines
  | tokens path line root format => do
    let lines ← (service.tokenize d root).mapError (.notTokenized path)
    match line with
    | some line => if lines.length ≤ line then throw (.lineOutOfRange line path lines.length)
    | none => pure ()
    let reports := TokenReport.ofLines lines line
    match format with
    | .text => return String.join (reports.map TokenReport.text)
    | .json => return (JsonValue.list (reports.map TokenReport.toJson)).lines

def run (s : Settings) (files : FileTree) (c : Command) : Except CommandError String := do
  let d ← Document.read files c.input
  c.print (.ofSettings s files) d

end Command

end GrammarScopes
