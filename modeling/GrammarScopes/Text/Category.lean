import GrammarScopes.Text.CategoryRuns
import GrammarScopes.Text.Ranges

/-!
The general category of a character.
-/

namespace GrammarScopes.Text

inductive Category
  | unassigned
  | control
  | format
  | privateUse
  | surrogate
  | lowercaseLetter
  | modifierLetter
  | otherLetter
  | titlecaseLetter
  | uppercaseLetter
  | spacingMark
  | enclosingMark
  | nonspacingMark
  | decimalNumber
  | letterNumber
  | otherNumber
  | connectorPunctuation
  | dashPunctuation
  | closePunctuation
  | finalPunctuation
  | initialPunctuation
  | otherPunctuation
  | openPunctuation
  | currencySymbol
  | modifierSymbol
  | mathSymbol
  | otherSymbol
  | lineSeparator
  | paragraphSeparator
  | spaceSeparator
  deriving DecidableEq, Repr

namespace Category

def all : Array Category := #[
  unassigned, control, format, privateUse, surrogate, lowercaseLetter, modifierLetter,
  otherLetter, titlecaseLetter, uppercaseLetter, spacingMark, enclosingMark, nonspacingMark,
  decimalNumber, letterNumber, otherNumber, connectorPunctuation, dashPunctuation,
  closePunctuation, finalPunctuation, initialPunctuation, otherPunctuation, openPunctuation,
  currencySymbol, modifierSymbol, mathSymbol, otherSymbol, lineSeparator, paragraphSeparator,
  spaceSeparator]

/-- The category of the last run that begins at or before `n`. -/
def ofCode (n : Nat) : Category :=
  all.getD (categoryRuns.getD (countUpTo categoryRuns (32 * n + 31) - 1) 0 % 32) unassigned

def isLetter : Category → Bool
  | lowercaseLetter | modifierLetter | otherLetter | titlecaseLetter | uppercaseLetter => true
  | _ => false

def isMark : Category → Bool
  | spacingMark | enclosingMark | nonspacingMark => true
  | _ => false

def isNumber : Category → Bool
  | decimalNumber | letterNumber | otherNumber => true
  | _ => false

def isPunctuation : Category → Bool
  | connectorPunctuation | dashPunctuation | closePunctuation | finalPunctuation
  | initialPunctuation | otherPunctuation | openPunctuation => true
  | _ => false

def isSymbol : Category → Bool
  | currencySymbol | modifierSymbol | mathSymbol | otherSymbol => true
  | _ => false

def isSeparator : Category → Bool
  | lineSeparator | paragraphSeparator | spaceSeparator => true
  | _ => false

def isOther : Category → Bool
  | unassigned | control | format | privateUse | surrogate => true
  | _ => false

end Category

def category (c : Char) : Category := .ofCode c.toNat

end GrammarScopes.Text
