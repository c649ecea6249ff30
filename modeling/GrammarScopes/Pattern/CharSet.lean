import GrammarScopes.Text.CaseFold
import GrammarScopes.Text.Script

/-!
Sets of characters, as patterns write them.
-/

namespace GrammarScopes.Pattern

inductive NamedSet
  | alnum
  | alpha
  | ascii
  | blank
  | cntrl
  | digit
  | graph
  | lower
  | print
  | punct
  | space
  | upper
  | xdigit
  | word
  | any
  | assigned
  | letter
  | casedLetter
  | mark
  | number
  | punctuation
  | symbol
  | separator
  | other
  | extender
  | emoji
  | identifierStart
  | identifierContinue
  | ofScript (s : Text.Script)
  | ofCategory (k : Text.Category)
  deriving DecidableEq, Repr

open Text in
/-- Control characters, separators and code points without a character have no mark on paper. -/
def isGraph (c : Char) : Bool :=
  !(isBlank c) &&
    match category c with
    | .control | .unassigned | .surrogate => false
    | _ => true

open Text in
def NamedSet.contains : NamedSet → Char → Bool
  | alnum, c => isAlphabetic c || isDigit c
  | alpha, c => isAlphabetic c
  | ascii, c => isAscii c
  | blank, c => c == '\t' || category c == .spaceSeparator
  | cntrl, c => category c == .control
  | digit, c => isDigit c
  | graph, c => isGraph c
  | lower, c => isLowercase c
  | print, c => isGraph c || category c == .spaceSeparator
  | punct, c => (category c).isPunctuation || (isAscii c && (category c).isSymbol)
  | space, c => isBlank c
  | upper, c => isUppercase c
  | xdigit, c => isHexDigit c
  | word, c => isWord c
  | any, _ => true
  | assigned, c => category c != .unassigned
  | letter, c => (category c).isLetter
  | casedLetter, c =>
    match category c with
    | .lowercaseLetter | .uppercaseLetter | .titlecaseLetter => true
    | _ => false
  | mark, c => (category c).isMark
  | number, c => (category c).isNumber
  | punctuation, c => (category c).isPunctuation
  | symbol, c => (category c).isSymbol
  | separator, c => (category c).isSeparator
  | other, c => (category c).isOther
  | extender, c => isGraphemeExtend c || category c == .spacingMark || c == '\u200d'
  | emoji, c => isEmoji c
  | identifierStart, c => isIdentifierStart c
  | identifierContinue, c => isIdentifierContinue c
  | ofScript s, c => s.contains c
  | ofCategory k, c => category c == k

inductive CharSet
  | empty
  | range (first last : Nat)
  | oneOf (cs : List Char)
  | named (s : NamedSet)
  | not (s : CharSet)
  | or (s t : CharSet)
  | and (s t : CharSet)
  /-- The characters of a set and those that differ from one of them only in case. -/
  | anyCase (s : CharSet)
  deriving DecidableEq, Repr

def CharSet.contains : CharSet → Char → Bool
  | empty, _ => false
  | range first last, c => first ≤ c.toNat && c.toNat ≤ last
  | oneOf cs, c => cs.contains c
  | named s, c => s.contains c
  | not s, c => !(s.contains c)
  | or s t, c => s.contains c || t.contains c
  | and s t, c => s.contains c && t.contains c
  | anyCase s, c => s.contains c || (Text.caseVariants c).any s.contains

end GrammarScopes.Pattern
