import GrammarScopes.Text.Quoted

/-!
Why a JSON text is refused, either as JSON or as the kind of value that was asked for.
-/

namespace GrammarScopes

inductive JsonShape
  | null
  | bool (b : Bool)
  | integer (n : Int)
  | real (shown : String)
  | string (s : String)
  | list
  | object
  deriving DecidableEq, Repr

inductive JsonError
  | endInValue
  | endInList
  | endInObject
  | endInString
  | expectedColon
  | expectedListEnd
  | expectedObjectEnd
  | expectedWord
  | expectedValue
  | invalidEscape
  | invalidNumber
  | numberOutOfRange
  | controlCharacter
  | keyNotString
  | loneSurrogate
  | unfinishedPair
  | trailingComma
  | trailingCharacters
  | nestedTooDeep
  | wrongKind (found : JsonShape) (expected : String)
  | tooFewElements (found : Nat) (expected : String)
  | missingField (name : String)
  | duplicateField (name : String)
  | noVariant (type : String)
  deriving DecidableEq, Repr

def JsonShape.describe : JsonShape → String
  | null => "null"
  | bool b => "boolean `" ++ (if b then "true" else "false") ++ "`"
  | integer n => "integer `" ++ toString n ++ "`"
  | real shown => "floating point `" ++ shown ++ "`"
  | string s => "string " ++ Text.quoted s
  | list => "sequence"
  | object => "map"

def JsonError.message : JsonError → String
  | endInValue => "EOF while parsing a value"
  | endInList => "EOF while parsing a list"
  | endInObject => "EOF while parsing an object"
  | endInString => "EOF while parsing a string"
  | expectedColon => "expected `:`"
  | expectedListEnd => "expected `,` or `]`"
  | expectedObjectEnd => "expected `,` or `\x7d`"
  | expectedWord => "expected ident"
  | expectedValue => "expected value"
  | invalidEscape => "invalid escape"
  | invalidNumber => "invalid number"
  | numberOutOfRange => "number out of range"
  | controlCharacter => "control character (\\u0000-\\u001F) found while parsing a string"
  | keyNotString => "key must be a string"
  | loneSurrogate => "lone leading surrogate in hex escape"
  | unfinishedPair => "unexpected end of hex escape"
  | trailingComma => "trailing comma"
  | trailingCharacters => "trailing characters"
  | nestedTooDeep => "recursion limit exceeded"
  | wrongKind found expected => "invalid type: " ++ found.describe ++ ", expected " ++ expected
  | tooFewElements found expected =>
    "invalid length " ++ toString found ++ ", expected " ++ expected
  | missingField name => "missing field `" ++ name ++ "`"
  | duplicateField name => "duplicate field `" ++ name ++ "`"
  | noVariant type => "data did not match any variant of untagged enum " ++ type

end GrammarScopes
