import GrammarScopes.Command.Basic

/-!
Arguments of the program.  Options take a value each, after an equals sign or as the argument that
follows; what is not an option is an operand.
-/

namespace GrammarScopes

inductive ArgumentStop
  | invalid
  | help
  | version
  deriving DecidableEq, Repr

structure ValueOption where
  name : String
  letter : Option Char := none
  isValid : String → Bool := fun _ => true

structure Usage where
  options : List ValueOption
  operands : List (String → Bool) := []
  hasVersion : Bool := false
  commands : List String := []

structure Arguments where
  values : List (String × String) := []
  operands : List String := []
  deriving DecidableEq, Repr

namespace Arguments

def value? (a : Arguments) (name : String) : Option String := a.values.lookup name

/-- Gives an option its value; each option is given once. -/
def addValue (a : Arguments) (o : ValueOption) (value : String) : Except ArgumentStop Arguments :=
  if (a.value? o.name).isSome || !o.isValid value then .error .invalid
  else .ok { a with values := (o.name, value) :: a.values }

def addOperand (u : Usage) (a : Arguments) (value : String) : Except ArgumentStop Arguments :=
  match u.operands[a.operands.length]? with
  | none => .error .invalid
  | some isValid =>
    if isValid value then .ok { a with operands := a.operands ++ [value] } else .error .invalid

inductive Word
  | command
  | separator
  | operand
  | option (o : ValueOption)
  | optionWith (o : ValueOption) (value : String)
  | stop (reason : ArgumentStop)

def longWord (u : Usage) (text : List Char) : Word :=
  let (name, value) := match Text.splitOnce '=' text with
    | some (name, value) => (String.ofList name, some (String.ofList value))
    | none => (String.ofList text, none)
  match u.options.find? (·.name == name), value with
  | some o, some value => .optionWith o value
  | some o, none => .option o
  | none, some _ => .stop .invalid
  | none, none =>
    if name == "help" then .stop .help
    else if name == "version" && u.hasVersion then .stop .version
    else .stop .invalid

/-- An option by its letter; its value may follow at once or after an equals sign. -/
def shortWord (u : Usage) (letter : Char) (rest : List Char) : Word :=
  match u.options.find? (·.letter == some letter) with
  | some o =>
    match rest with
    | [] => .option o
    | '=' :: value => .optionWith o (String.ofList value)
    | value => .optionWith o (String.ofList value)
  | none =>
    if letter == 'h' then .stop .help
    else if letter == 'V' && u.hasVersion then .stop .version
    else .stop .invalid

def word (u : Usage) (argument : String) : Word :=
  if u.commands.contains argument then .command
  else match argument.toList with
    | ['-', '-'] => .separator
    | '-' :: '-' :: text => longWord u text
    | '-' :: letter :: rest => shortWord u letter rest
    | _ => .operand

def isOption (argument : String) : Bool :=
  match argument.toList with
  -- A single dash is no option.
  | '-' :: _ :: _ => true
  | _ => false

/-- Reads arguments up to a command, which stays.  A `pending` option waits for its value. -/
def read (u : Usage) (pending : Option ValueOption) (a : Arguments) :
    List String → Except ArgumentStop (Arguments × List String)
  | [] => if pending.isSome then .error .invalid else .ok (a, [])
  | argument :: rest =>
    match pending with
    | some o =>
      if isOption argument then .error .invalid
      else do read u none (← a.addValue o argument) rest
    | none =>
      match word u argument with
      | .command => .ok (a, argument :: rest)
      | .separator => do
        let a ← rest.foldlM (addOperand u) a
        return (a, [])
      | .operand => do read u none (← a.addOperand u argument) rest
      | .option o => read u (some o) a rest
      | .optionWith o value => do read u none (← a.addValue o value) rest
      | .stop reason => .error reason

end Arguments

/-! ### Requests -/

structure Request where
  settings : Option FilePath
  command : Command
  deriving DecidableEq, Repr

namespace Request

def isPath (text : String) : Bool := !text.isEmpty

def isNumber (text : String) : Bool := (Text.word? text.toList).isSome

def isFormat (text : String) : Bool := (OutputFormat.ofName? text).isSome

def settingsOption : ValueOption := { name := "config", isValid := isPath }

def lineOption : ValueOption := { name := "line", letter := some 'l', isValid := isNumber }

def characterOption : ValueOption :=
  { name := "character", letter := some 'c', isValid := isNumber }

def rootOption : ValueOption := { name := "root-scope", letter := some 'r' }

def formatOption : ValueOption := { name := "format", letter := some 'f', isValid := isFormat }

def programUsage : Usage where
  options := [settingsOption]
  hasVersion := true
  commands := ["scopes", "comment-style", "tokens", "help"]

def cursorUsage : Usage where
  options := [lineOption, characterOption, rootOption, formatOption, settingsOption]
  operands := [isPath]

def tokensUsage : Usage where
  options := [lineOption, rootOption, formatOption, settingsOption]
  operands := [isPath]

def number? (a : Arguments) (name : String) : Option Nat :=
  (a.value? name).bind fun text => Text.word? text.toList

def format (a : Arguments) : OutputFormat :=
  ((a.value? "format").bind OutputFormat.ofName?).getD .text

def command? (name : String) (a : Arguments) : Option Command := do
  let input ← a.operands.head?
  let root := a.value? "root-scope"
  match name with
  | "scopes" =>
    return .scopes input ⟨← number? a "line", ← number? a "character"⟩ root (format a)
  | "comment-style" =>
    return .commentStyle input ⟨← number? a "line", ← number? a "character"⟩ root (format a)
  | _ => return .tokens input (number? a "line") root (format a)

/-- The request that arguments make.  Settings that are named after the command win. -/
def ofArguments (arguments : List String) : Except ArgumentStop Request := do
  let (before, rest) ← Arguments.read programUsage none {} arguments
  match rest with
  | [] => throw .invalid
  | "help" :: [] => throw .help
  | "help" :: [name] => throw (if programUsage.commands.contains name then .help else .invalid)
  | "help" :: _ => throw .invalid
  | name :: rest =>
    let (a, _) ← Arguments.read (if name == "tokens" then tokensUsage else cursorUsage) none {} rest
    match command? name a with
    | some c => return ⟨(a.value? "config").or (before.value? "config"), c⟩
    | none => throw .invalid

end Request

end GrammarScopes
