import GrammarScopes.Toml.Value

/-!
Tables of TOML, put together from statements.  A table may be named before its header comes, but what
has been completed is not changed again.
-/

namespace GrammarScopes.Toml

open TomlValue (Entries)

inductive Statement
  | pair (key : List String) (value : TomlValue)
  | table (path : List String)
  /-- `[[path]]`, one more table under that header. -/
  | row (path : List String)
  deriving Repr

/-- The entries with a change made to the table at the end of a path.  Tables that are missing on the
way are added. -/
def changeAt (isDotted : Bool) (change : TableForm → Entries → Option Entries) :
    List String → TableForm → Entries → Option Entries
  | [], form, entries => change form entries
  | key :: path, _, entries =>
    match Dictionary.find? entries key with
    | none => do
      let form := if isDotted then TableForm.dotted else .implied
      let inner ← changeAt isDotted change path form []
      return Dictionary.insert key (.table form inner) entries
    | some (.table form inner) =>
      -- What was written as a value is complete, and a dotted key leads into no table with a header.
      if form == .inline || (isDotted && form == .header) then none
      else do
        let inner ← changeAt isDotted change path form inner
        return Dictionary.insert key (.table form inner) entries
    | some (.tables rows) => do
      let row ← changeAt isDotted change path .header (← rows.getLast?)
      return Dictionary.insert key (.tables (rows.dropLast ++ [row])) entries
    | some _ => none

/-- The last part of a dotted key comes into a table of its own form: one named by the key if there
are parts before it, and otherwise the table that the key stands in. -/
def addPair (key : List String) (value : TomlValue) (form : TableForm) (entries : Entries) :
    Option Entries :=
  match key.getLast? with
  | none => none
  | some last =>
    let path := key.dropLast
    let add (form : TableForm) (entries : Entries) : Option Entries :=
      if (form == .dotted) == path.isEmpty then none
      else if (Dictionary.find? entries last).isSome then none
      else some (Dictionary.insert last value entries)
    changeAt true add path form entries

def inlineEntries (pairs : List (List String × TomlValue)) : Option Entries :=
  pairs.foldlM (fun entries p => addPair p.1 p.2 .inline entries) []

/-- A header is given once; the table may have been named on the way to others. -/
def addHeader (last : String) (entries : Entries) : Option Entries :=
  match Dictionary.find? entries last with
  | none => some (Dictionary.insert last (.table .header []) entries)
  | some (.table .implied inner) => some (Dictionary.insert last (.table .header inner) entries)
  | some _ => none

def addRow (last : String) (entries : Entries) : Option Entries :=
  match Dictionary.find? entries last with
  | none => some (Dictionary.insert last (.tables [[]]) entries)
  | some (.tables rows) => some (Dictionary.insert last (.tables (rows ++ [[]])) entries)
  | some _ => none

/-- A document that has been read in part: the path of its last header, and all entries. -/
structure Draft where
  path : List String := []
  entries : Entries := []
  deriving Repr

def Draft.add (d : Draft) : Statement → Option Draft
  | .pair key value => do
    return { d with entries := ← changeAt false (addPair key value) d.path .header d.entries }
  | .table path => do
    let last ← path.getLast?
    return ⟨path, ← changeAt false (fun _ => addHeader last) path.dropLast .header d.entries⟩
  | .row path => do
    let last ← path.getLast?
    return ⟨path, ← changeAt false (fun _ => addRow last) path.dropLast .header d.entries⟩

def assemble (statements : List Statement) : Option Entries :=
  (statements.foldlM Draft.add {}).map (·.entries)

end GrammarScopes.Toml
