import GrammarScopes.Text.Units

/-!
Why a pattern is refused.
-/

namespace GrammarScopes

inductive PatternError
  | nestedTooDeep
  | endAtEscape
  | endAtControl
  | endAtMeta
  | controlSyntax
  | metaSyntax
  | endInGroup
  | unclosedGroup
  | unmatchedClose
  | undefinedOption
  | emptyGroupName
  | invalidGroupName (name : String)
  | invalidGroupNameChar (name : String)
  | undefinedName (name : String)
  | undefinedGroup (name : String)
  | ambiguousCall (name : String)
  | invalidBackReference
  | endlessRecursion
  | nothingToRepeat
  | notRepeatable
  | repeatTooLarge
  | numberTooLarge
  | unclosedClass
  | emptyClass
  | emptyRange
  | classAtRangeEnd
  | unmatchedRange
  | invalidBracketName
  | invalidPropertyName (name : String)
  | tooShortBytes
  | invalidCode
  | codeTooLarge
  | codeTooLong
  | invalidLookBehind
  | invalidConditional
  | invalidAbsent
  | invalidCalloutName
  | undefinedCalloutName
  deriving DecidableEq, Repr, Inhabited

namespace PatternError

def fitting : Nat → List Char → List Char
  | _, [] => []
  | room, c :: cs => if c.utf8Size ≤ room then c :: fitting (room - c.utf8Size) cs else []

/-- Names of more than thirty bytes are cut. -/
def shown (name : String) : String :=
  if Text.byteCount name.toList ≤ 30 then name
  else String.ofList (fitting 30 name.toList) ++ "..."

def message : PatternError → String
  | nestedTooDeep => "parse depth limit over"
  | endAtEscape => "end pattern at escape"
  | endAtControl => "end pattern at control"
  | endAtMeta => "end pattern at meta"
  | controlSyntax => "invalid control-code syntax"
  | metaSyntax => "invalid meta-code syntax"
  | endInGroup => "end pattern in group"
  | unclosedGroup => "end pattern with unmatched parenthesis"
  | unmatchedClose => "unmatched close parenthesis"
  | undefinedOption => "undefined group option"
  | emptyGroupName => "group name is empty"
  | invalidGroupName name => "invalid group name <" ++ shown name ++ ">"
  | invalidGroupNameChar name => "invalid char in group name <" ++ shown name ++ ">"
  | undefinedName name => "undefined name <" ++ shown name ++ "> reference"
  | undefinedGroup name => "undefined group <" ++ shown name ++ "> reference"
  | ambiguousCall name => "multiplex definition name <" ++ shown name ++ "> call"
  | invalidBackReference => "invalid backref number/name"
  | endlessRecursion => "never ending recursion"
  | nothingToRepeat => "target of repeat operator is not specified"
  | notRepeatable => "target of repeat operator is invalid"
  | repeatTooLarge => "too big number for repeat range"
  | numberTooLarge => "too big number"
  | unclosedClass => "premature end of char-class"
  | emptyClass => "empty char-class"
  | emptyRange => "empty range in char class"
  | classAtRangeEnd => "char-class value at end of range"
  | unmatchedRange => "unmatched range specifier in char-class"
  | invalidBracketName => "invalid POSIX bracket type"
  | invalidPropertyName name => "invalid character property name \x7b" ++ shown name ++ "\x7d"
  | tooShortBytes => "too short multibyte string"
  | invalidCode => "invalid code point value"
  | codeTooLarge => "too big wide-char value"
  | codeTooLong => "too long wide-char value"
  | invalidLookBehind => "invalid pattern in look-behind"
  | invalidConditional => "invalid if-else syntax"
  | invalidAbsent => "invalid absent group pattern"
  | invalidCalloutName => "invalid callout name"
  | undefinedCalloutName => "undefined callout name"

end PatternError

end GrammarScopes
