import GrammarScopes.Text.CaseMap

/-!
The characters that a character is equal to when case is ignored.
-/

namespace GrammarScopes.Text

def Shift.source? (s : Shift) (n : Nat) : Option Nat :=
  let m := (n : Int) - s.distance
  if (s.first : Int) ≤ m ∧ m ≤ (s.last : Int) ∧ (m.toNat - s.first) % s.step = 0 then some m.toNat
  else none

/-- The characters whose case folding is exactly `folding`. -/
def unfold (folding : List Char) : List Char :=
  match folding with
  | [] => []
  | [d] => d :: (foldShifts.toList.filterMap (·.source? d.toNat)).map Char.ofNat
  | _ =>
    (foldExpansions.filter fun e => e.2.map Char.ofNat == folding).map fun e => Char.ofNat e.1

def caseVariants (c : Char) : List Char :=
  if isAscii c then
    if c.isAlpha then
      let swapped := if c.isUpper then c.toLower else c.toUpper
      if c.toLower == 'k' then [swapped, '\u212a']
      else if c.toLower == 's' then [swapped, '\u017f']
      else [swapped]
    else []
  else (unfold (foldChar c)).filter (· != c)

end GrammarScopes.Text
