import GrammarScopes.Toml.DateTime
import GrammarScopes.Toml.Number
import GrammarScopes.Toml.Quote
import GrammarScopes.Toml.Table

/-!
Reading TOML.  A reader takes its value off the front of the text; the text of a document is read as
statements, which are then put together.
-/

namespace GrammarScopes.Toml

/-- Text with a line feed at the end of each line.  A carriage return stands only before one. -/
def lineFeeds? : List Char → Option (List Char)
  | [] => some []
  | '\r' :: '\n' :: cs => (lineFeeds? cs).map ('\n' :: ·)
  | c :: cs => if c == '\r' then none else (lineFeeds? cs).map (c :: ·)

def skipBlanks (cs : List Char) : List Char := cs.dropWhile isBlank

def skipLines (inComment : Bool) : List Char → List Char
  | [] => []
  | c :: cs =>
    if c == '\n' then skipLines false cs
    else if inComment then if isPlain c then skipLines true cs else c :: cs
    else if isBlank c then skipLines false cs
    else if c == '#' then skipLines true cs
    else c :: cs

def lineEnd? (cs : List Char) : Option (List Char) :=
  let rest := match skipBlanks cs with
    | '#' :: cs => cs.dropWhile isPlain
    | cs => cs
  match rest with
  | [] => some []
  | '\n' :: cs => some cs
  | _ => none

/-! ### Keys -/

def keyPart? : List Char → Option (String × List Char)
  | '"' :: cs => (Quote.read ⟨'"', false⟩ cs).map fun (s, cs) => (String.ofList s, cs)
  | '\'' :: cs => (Quote.read ⟨'\'', false⟩ cs).map fun (s, cs) => (String.ofList s, cs)
  | cs =>
    let name := cs.takeWhile Quote.isBare
    if name.isEmpty then none else some (String.ofList name, cs.drop name.length)

/-- A key of up to `limit` parts, with the blanks around them. -/
def key? : Nat → List Char → Option (List String × List Char)
  | 0, _ => none
  | limit + 1, cs => do
    let (part, cs) ← keyPart? (skipBlanks cs)
    match skipBlanks cs with
    | '.' :: cs => do
      let (parts, cs) ← key? limit cs
      return (part :: parts, cs)
    | cs => return ([part], cs)

/-- The number of parts a key may have, and how deep values may be nested. -/
def depthLimit : Nat := 79

def keyOfPair? (cs : List Char) : Option (List String × List Char) := do
  let (key, cs) ← key? depthLimit cs
  return (key, skipBlanks (← expect? '=' cs))

/-! ### Values -/

def isScalar (c : Char) : Bool :=
  c.isAlphanum || c == '_' || c == '+' || c == '-' || c == '.' || c == ':'

def scalar? (cs : List Char) : Option TomlValue :=
  if cs == ['t', 'r', 'u', 'e'] then some (.boolean true)
  else if cs == ['f', 'a', 'l', 's', 'e'] then some (.boolean false)
  else match DateTime.read? cs with
    | some d => some (.dateTime (String.ofList d.text))
    | none =>
      if isFloat cs then some (.float (String.ofList cs))
      else (readInteger? cs).map .integer

/-- The text of a scalar.  A blank may stand between a date and a time. -/
def scalarText (cs : List Char) : List Char :=
  let text := cs.takeWhile isScalar
  match cs.drop text.length, DateTime.read? text with
  | ' ' :: d :: rest, some (.date _) =>
    if d.isDigit then text ++ ' ' :: (d :: rest).takeWhile isScalar else text
  | _, _ => text

def items? (value? : List Char → Option (TomlValue × List Char)) :
    Nat → List Char → Option (List TomlValue × List Char)
  | 0, _ => none
  | n + 1, cs =>
    match skipLines false cs with
    | ']' :: cs => some ([], cs)
    | cs => do
      let (item, cs) ← value? cs
      match skipLines false cs with
      | ']' :: cs => return ([item], cs)
      | ',' :: cs => do
        let (items, cs) ← items? value? n cs
        return (item :: items, cs)
      | _ => none

def pairs? (value? : List Char → Option (TomlValue × List Char)) :
    Nat → List Char → Option (List (List String × TomlValue) × List Char)
  | 0, _ => none
  | n + 1, cs => do
    let (key, cs) ← keyOfPair? cs
    let (value, cs) ← value? cs
    match skipBlanks cs with
    | '\x7d' :: cs => return ([(key, value)], cs)
    | ',' :: cs => do
      let (pairs, cs) ← pairs? value? n cs
      return ((key, value) :: pairs, cs)
    | _ => none

def value? : Nat → List Char → Option (TomlValue × List Char)
  | depth, cs =>
    match Quote.open? cs with
    | some (q, cs) => (q.read cs).map fun (s, cs) => (.string (String.ofList s), cs)
    | none =>
      match depth, cs with
      | depth + 1, '[' :: cs =>
        (items? (value? depth) (cs.length + 1) cs).map fun (items, cs) => (.array items, cs)
      | depth + 1, '\x7b' :: cs =>
        match skipBlanks cs with
        | '\x7d' :: cs => some (.table .inline [], cs)
        | cs => do
          let (pairs, cs) ← pairs? (value? depth) (cs.length + 1) cs
          return (.table .inline (← inlineEntries pairs), cs)
      | _, cs =>
        let text := scalarText cs
        (scalar? text).map (·, cs.drop text.length)

/-! ### Documents -/

def statement? : List Char → Option (Statement × List Char)
  | '[' :: '[' :: cs => do
    let (path, cs) ← key? depthLimit cs
    return (.row path, ← expect? ']' (← expect? ']' cs))
  | '[' :: cs => do
    let (path, cs) ← key? depthLimit cs
    return (.table path, ← expect? ']' cs)
  | cs => do
    let (key, cs) ← keyOfPair? cs
    let (value, cs) ← value? depthLimit cs
    return (.pair key value, cs)

def statements? : Nat → List Char → Option (List Statement)
  | 0, _ => none
  | n + 1, cs =>
    match skipLines false cs with
    | [] => some []
    | cs => do
      let (s, cs) ← statement? cs
      return s :: (← statements? n (← lineEnd? cs))

/-- The entries of a document; a byte order mark may stand before it. -/
def read? (text : String) : Option TomlValue.Entries := do
  let cs := match text.toList with
    | '\ufeff' :: cs => cs
    | cs => cs
  let cs ← lineFeeds? cs
  assemble (← statements? (cs.length + 1) cs)

end GrammarScopes.Toml
