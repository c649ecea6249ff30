import GrammarScopes.Text.Category
import GrammarScopes.Text.RangeTables

/-!
Classes of characters.  Below 128 each class is spelled out, so that facts about ASCII text need no
table.
-/

namespace GrammarScopes.Text

def isAscii (c : Char) : Bool := c.toNat < 128

def isBlank (c : Char) : Bool :=
  let n := c.toNat
  (9 ≤ n && n ≤ 13) || n == 32 || n == 0x85 || n == 0xa0 || n == 0x1680 ||
    (0x2000 ≤ n && n ≤ 0x200a) || n == 0x2028 || n == 0x2029 || n == 0x202f || n == 0x205f ||
    n == 0x3000

theorem isBlank_of_isWhitespace {c : Char} (h : c.isWhitespace) : isBlank c := by
  simp only [Char.isWhitespace, Bool.or_eq_true, decide_eq_true_eq] at h
  rcases h with ((rfl | rfl) | rfl) | rfl <;> decide

def isDigit (c : Char) : Bool :=
  if isAscii c then c.isDigit else category c == .decimalNumber

def isAlphabetic (c : Char) : Bool :=
  if isAscii c then c.isAlpha else
    let k := category c
    k.isLetter || k == .letterNumber || inRanges otherAlphabetic c.toNat

def isLowercase (c : Char) : Bool :=
  if isAscii c then c.isLower else
    category c == .lowercaseLetter || inRanges otherLowercase c.toNat

def isUppercase (c : Char) : Bool :=
  if isAscii c then c.isUpper else
    category c == .uppercaseLetter || inRanges otherUppercase c.toNat

def isWord (c : Char) : Bool :=
  if isAscii c then c.isAlphanum || c == '_' else
    let k := category c
    k.isLetter || k == .letterNumber || k.isMark || k == .decimalNumber ||
      k == .connectorPunctuation || inRanges otherAlphabetic c.toNat

/-- Characters that may begin an identifier; a few signs count for the sake of old texts. -/
def isIdentifierStart (c : Char) : Bool :=
  let k := category c
  ((k.isLetter || k == .letterNumber) && c != '\u2e2f') ||
    ['\u1885', '\u1886', '\u2118', '\u212e', '\u309b', '\u309c'].contains c

def isIdentifierContinue (c : Char) : Bool :=
  isIdentifierStart c ||
    (match category c with
    | .nonspacingMark | .spacingMark | .decimalNumber | .connectorPunctuation => true
    | _ => c == '\u00b7' || c == '\u0387' || ('\u1369' ≤ c && c ≤ '\u1371') || c == '\u19da')

def isCased (c : Char) : Bool :=
  isLowercase c || isUppercase c || category c == .titlecaseLetter

/-- Characters that are skipped when the context of a cased character is looked at. -/
def isCaseIgnorable (c : Char) : Bool :=
  match category c with
  | .nonspacingMark | .enclosingMark | .format | .modifierLetter | .modifierSymbol => true
  | _ => inRanges otherCaseIgnorable c.toNat

def isGraphemeExtend (c : Char) : Bool :=
  match category c with
  | .nonspacingMark | .enclosingMark => true
  | _ => inRanges otherGraphemeExtend c.toNat

/-- Characters that are shown as themselves: the space, and whatever is neither a separator nor in
a category without visible form. -/
def isPrintable (c : Char) : Bool :=
  c == ' ' || !((category c).isOther || (category c).isSeparator)

def isHexDigit (c : Char) : Bool :=
  c.isDigit || ('a' ≤ c && c ≤ 'f') || ('A' ≤ c && c ≤ 'F')

def hexValue? (c : Char) : Option Nat :=
  if c.isDigit then some (c.toNat - 48)
  else if 'a' ≤ c && c ≤ 'f' then some (c.toNat - 87)
  else if 'A' ≤ c && c ≤ 'F' then some (c.toNat - 55)
  else none

end GrammarScopes.Text
