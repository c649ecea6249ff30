/-!
Sorted tables of code points, searched by halving.
-/

namespace GrammarScopes.Text

/-- Halves the interval from `low` to `high` at most `steps` times; `low` counts entries that are
known to be at most `n`, and the entries from `high` on are known to exceed it. -/
def countUpTo.go (table : Array Nat) (n : Nat) : Nat → Nat → Nat → Nat
  | 0, low, _ => low
  | steps + 1, low, high =>
    if low < high then
      let middle := (low + high) / 2
      if table.getD middle 0 ≤ n then go table n steps (middle + 1) high
      else go table n steps low middle
    else low

def countUpTo (table : Array Nat) (n : Nat) : Nat :=
  countUpTo.go table n (table.size.log2 + 1) 0 table.size

/-- Membership in the set whose table lists where membership changes. -/
def inRanges (table : Array Nat) (n : Nat) : Bool :=
  countUpTo table n % 2 == 1

end GrammarScopes.Text
