import GrammarScopes.Text.CaseTables
import GrammarScopes.Text.Class

/-!
Upper case, lower case and case folding, by the full mappings: one character may become several.
-/

namespace GrammarScopes.Text

def Shift.image? (s : Shift) (n : Nat) : Option Nat :=
  if s.first ≤ n ∧ n ≤ s.last ∧ (n - s.first) % s.step = 0 then
    some (n + s.distance).toNat
  else none

/-- Where a table of shifts moves a code point; the others stay. -/
def shifted (table : Array Shift) (n : Nat) : Nat :=
  (table.findSome? (·.image? n)).getD n

def expanded (special : List (Nat × List Nat)) (table : Array Shift) (c : Char) : List Char :=
  match special.lookup c.toNat with
  | some codes => codes.map Char.ofNat
  | none => [Char.ofNat (shifted table c.toNat)]

def upperChar (c : Char) : List Char :=
  if isAscii c then [c.toUpper] else expanded upperExpansions upperShifts c

def lowerChar (c : Char) : List Char :=
  if isAscii c then [c.toLower]
  else expanded [(0x130, [0x69, 0x307])] lowerShifts c

/-- The case folding of a character: two characters that differ only in case have the same one. -/
def foldChar (c : Char) : List Char :=
  if isAscii c then [c.toLower] else expanded foldExpansions foldShifts c

def upper (cs : List Char) : List Char := cs.flatMap upperChar

def meetsCased (cs : List Char) : Bool :=
  match cs.dropWhile isCaseIgnorable with
  | c :: _ => isCased c
  | [] => false

/-- Lower case of `cs` after the characters `before`, nearest first: a capital sigma that ends a
word has a form of its own. -/
def lowerAfter : List Char → List Char → List Char
  | _, [] => []
  | before, c :: cs =>
    let mapped :=
      if c == 'Σ' then [if meetsCased before && !meetsCased cs then 'ς' else 'σ'] else lowerChar c
    mapped ++ lowerAfter (c :: before) cs

def lower (cs : List Char) : List Char := lowerAfter [] cs

end GrammarScopes.Text
