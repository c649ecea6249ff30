import GrammarScopes.Text.Class

/-!
Numbers in text.
-/

namespace GrammarScopes.Text

def digitValue? (c : Char) : Option Nat := if c.isDigit then some (c.toNat - 48) else none

/-- The value of decimal digits, when `n` is the value of those before them. -/
def decimal? (n : Nat) : List Char → Option Nat
  | [] => some n
  | c :: cs => (digitValue? c).bind fun d => decimal? (n * 10 + d) cs

def inBase? (base n : Nat) : List Char → Option Nat
  | [] => some n
  | c :: cs =>
    ((hexValue? c).filter (· < base)).bind fun d => inBase? base (n * base + d) cs

/-- A number of 64 bits without sign, in decimal; a plus sign may stand before it. -/
def word? (text : List Char) : Option Nat :=
  let digits := match text with
    | '+' :: cs => cs
    | cs => cs
  if digits.isEmpty then none
  else (decimal? 0 digits).filter (· < Nat.pow 2 64)

end GrammarScopes.Text
