/-!
JSON values, and their text.
-/

namespace GrammarScopes

inductive JsonValue
  | null
  | bool (b : Bool)
  | number (n : Int)
  | string (s : String)
  | list (items : List JsonValue)
  | object (members : List (String × JsonValue))
  deriving Repr, Inhabited

namespace JsonValue

def hexDigit (n : Nat) : Char := Nat.digitChar n

def escapedChar (c : Char) : List Char :=
  match c with
  | '"' => ['\\', '"']
  | '\\' => ['\\', '\\']
  | '\x08' => ['\\', 'b']
  | '\x0c' => ['\\', 'f']
  | '\n' => ['\\', 'n']
  | '\r' => ['\\', 'r']
  | '\t' => ['\\', 't']
  | c =>
    if c.toNat < 0x20 then
      ['\\', 'u', '0', '0', hexDigit (c.toNat / 16), hexDigit (c.toNat % 16)]
    else [c]

def stringText (s : String) : List Char :=
  '"' :: s.toList.flatMap escapedChar ++ ['"']

def atomText : JsonValue → List Char
  | null => "null".toList
  | bool true => "true".toList
  | bool false => "false".toList
  | number n => (toString n).toList
  | string s => stringText s
  | list _ => ['[', ']']
  | object _ => ['\x7b', '\x7d']

mutual

def compactText : JsonValue → List Char
  | list items => '[' :: compactItems items ++ [']']
  | object members => '\x7b' :: compactMembers members ++ ['\x7d']
  | j => j.atomText

def compactItems : List JsonValue → List Char
  | [] => []
  | [j] => j.compactText
  | j :: rest => j.compactText ++ ',' :: compactItems rest

def compactMembers : List (String × JsonValue) → List Char
  | [] => []
  | [(k, j)] => stringText k ++ ':' :: j.compactText
  | (k, j) :: rest => stringText k ++ ':' :: j.compactText ++ ',' :: compactMembers rest

end

def newLine (level : Nat) : List Char := '\n' :: List.replicate (2 * level) ' '

mutual

def prettyText (level : Nat) : JsonValue → List Char
  | list [] => ['[', ']']
  | list items => '[' :: prettyItems (level + 1) items ++ newLine level ++ [']']
  | object [] => ['\x7b', '\x7d']
  | object members => '\x7b' :: prettyMembers (level + 1) members ++ newLine level ++ ['\x7d']
  | j => j.atomText

def prettyItems (level : Nat) : List JsonValue → List Char
  | [] => []
  | [j] => newLine level ++ prettyText level j
  | j :: rest => newLine level ++ prettyText level j ++ ',' :: prettyItems level rest

def prettyMembers (level : Nat) : List (String × JsonValue) → List Char
  | [] => []
  | [(k, j)] => newLine level ++ stringText k ++ ':' :: ' ' :: prettyText level j
  | (k, j) :: rest =>
    newLine level ++ stringText k ++ ':' :: ' ' :: prettyText level j ++
      ',' :: prettyMembers level rest

end

def compact (j : JsonValue) : String := String.ofList j.compactText

def pretty (j : JsonValue) : String := String.ofList (j.prettyText 0)

end JsonValue

end GrammarScopes
