import GrammarScopes.Bundled.Css
import GrammarScopes.Bundled.Html
import GrammarScopes.Bundled.JavaScript
import GrammarScopes.FileTree
import GrammarScopes.Loading.Error

/-!
Where grammars come from: a table gives the location of the grammar of each scope, and a source the
text at a location.
-/

namespace GrammarScopes

abbrev GrammarTable := List (String × String)

namespace GrammarTable

def ofEntries (entries : List (String × String)) : GrammarTable :=
  entries.foldl (fun table e => Dictionary.insert e.1 e.2 table) []

def location? (table : GrammarTable) (scope : String) : Option String :=
  Dictionary.find? table scope

def bundled : GrammarTable :=
  ofEntries [("text.html.basic", "syntaxes/html.tmLanguage.json"),
    ("source.js", "syntaxes/javascript.tmLanguage.json"),
    ("source.css", "syntaxes/css.tmLanguage.json")]

end GrammarTable

def Bundled.text? : String → Option String
  | "syntaxes/html.tmLanguage.json" => some htmlText
  | "syntaxes/javascript.tmLanguage.json" => some javaScriptText
  | "syntaxes/css.tmLanguage.json" => some cssText
  | _ => none

inductive Source
  | memory (texts : List (String × String))
  | bundled
  /-- Files, at paths as seen from `root`. -/
  | directory (root : FilePath) (files : FileTree)

def Source.read (location : String) : Source → Except ScopeError String
  | memory texts =>
    match Dictionary.find? texts location with
    | some text => .ok text
    | none => .error (.read location "no such file")
  | bundled =>
    match Bundled.text? location with
    | some text => .ok text
    | none => .error (.read location "no bundled grammar at this location")
  | directory root files =>
    let path := FilePath.join root location
    match files.readText path with
    | .ok text => .ok text
    | .error e => .error (.read path e.message)

end GrammarScopes
