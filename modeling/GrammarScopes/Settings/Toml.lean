import GrammarScopes.Settings.Basic
import GrammarScopes.Toml.Reader

/-!
Settings as TOML.  Fields that are not there have their defaults, and others are ignored.
-/

namespace GrammarScopes.Settings

def fieldOr {α : Type} (default : α) (read : TomlValue → Option α) : Option TomlValue → Option α
  | none => some default
  | some v => read v

def readLimits (s : Settings) (v : TomlValue) : Option Settings := do
  match ← v.fields? ["max_line_length"] with
  | [length] => return { s with maxLineLength := ← fieldOr s.maxLineLength TomlValue.natural? length }
  | _ => none

def readGrammars (s : Settings) (v : TomlValue) : Option Settings := do
  match ← v.fields? ["dir", "scopes"] with
  | [directory, scopes] =>
    let directory ← fieldOr s.directory (fun v => v.string?.map some) directory
    let scopes ← fieldOr s.scopes (fun v => v.texts?.map GrammarTable.ofEntries) scopes
    return { s with directory := directory, scopes := scopes }
  | _ => none

def ofToml? (text : String) : Option Settings := do
  let entries ← Toml.read? text
  let field := Dictionary.find? entries
  let s : Settings := {}
  let rootScope ← fieldOr s.rootScope TomlValue.string? (field "root_scope")
  let s ← fieldOr s (readLimits s) (field "limits")
  let s ← fieldOr s (readGrammars s) (field "grammars")
  return { s with rootScope := rootScope }

def textOfPair (key value : String) : List Char :=
  key.toList ++ " = ".toList ++ Toml.Quote.valueText value.toList ++ ['\n']

def textOfScope (entry : String × String) : List Char :=
  textOfPair (String.ofList (Toml.Quote.keyText entry.1.toList)) entry.2

/-- The text of settings; a number has to fit in an integer of TOML. -/
def toToml? (s : Settings) : Option String := do
  let length ← Toml.integer? s.maxLineLength
  let directory := match s.directory with
    | some d => "[grammars]\n".toList ++ textOfPair "dir" d ++ ['\n']
    | none => []
  return String.ofList (textOfPair "root_scope" s.rootScope ++
    "\n[limits]\nmax_line_length = ".toList ++ (toString length).toList ++ "\n\n".toList ++
    directory ++ "[grammars.scopes]\n".toList ++ s.scopes.flatMap textOfScope)

end GrammarScopes.Settings
