/-!
Lengths of text in bytes of UTF-8 and in units of UTF-16.
-/

namespace GrammarScopes.Text

def units (c : Char) : Nat := if c.toNat < 0x10000 then 1 else 2

def unitCount : List Char → Nat
  | [] => 0
  | c :: cs => units c + unitCount cs

theorem unitCount_append (a b : List Char) :
    unitCount (a ++ b) = unitCount a + unitCount b := by
  induction a with
  | nil => simp [unitCount]
  | cons c a ih => simp [unitCount, ih, Nat.add_assoc]

def byteCount : List Char → Nat
  | [] => 0
  | c :: cs => c.utf8Size + byteCount cs

theorem byteCount_append (a b : List Char) :
    byteCount (a ++ b) = byteCount a + byteCount b := by
  induction a with
  | nil => simp [byteCount]
  | cons c a ih => simp [byteCount, ih, Nat.add_assoc]

end GrammarScopes.Text
