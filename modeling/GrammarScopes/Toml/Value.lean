import GrammarScopes.Dictionary

/-!
Values of TOML.
-/

namespace GrammarScopes

/-- How a table came to be, which decides what may be added to it. -/
inductive TableForm
  | inline
  | header
  /-- Named on the way to a table with a header. -/
  | implied
  /-- Named on the way to the last part of a dotted key. -/
  | dotted
  deriving DecidableEq, Repr

inductive TomlValue
  | string (s : String)
  | integer (n : Int)
  | float (text : String)
  | boolean (b : Bool)
  | dateTime (text : String)
  | array (items : List TomlValue)
  | table (form : TableForm) (entries : List (String × TomlValue))
  /-- Tables that share a header; each occurrence of it adds one. -/
  | tables (rows : List (List (String × TomlValue)))
  deriving Repr, Inhabited

namespace TomlValue

abbrev Entries := List (String × TomlValue)

/-- The fields of a structure, which a table gives by name and an array by position.  A date and
time has none of them. -/
def fields? (names : List String) : TomlValue → Option (List (Option TomlValue))
  | table _ entries => some (names.map (Dictionary.find? entries))
  | array items => some ((List.range names.length).map (items[·]?))
  | tables rows => some ((List.range names.length).map fun i => rows[i]?.map (table .header))
  | dateTime _ => some (names.map fun _ => none)
  | _ => none

def string? : TomlValue → Option String
  | string s => some s
  | _ => none

def natural? : TomlValue → Option Nat
  | integer n => if n < 0 then none else some n.toNat
  | _ => none

/-- Texts by name.  A date and time is a single text with a name of its own. -/
def texts? : TomlValue → Option (List (String × String))
  | table _ entries => entries.mapM fun e => e.2.string?.map (e.1, ·)
  | dateTime text => some [("$__toml_private_datetime", text)]
  | _ => none

end TomlValue

end GrammarScopes
