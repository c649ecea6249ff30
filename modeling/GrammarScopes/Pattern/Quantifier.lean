import GrammarScopes.Pattern.Reader

/-!
Quantifiers: how often what stands before them is repeated.
-/

namespace GrammarScopes.Pattern

structure Quantifier where
  least : Nat
  most : Option Nat
  greedy : Bool
  possessive : Bool

def largestCount : Nat := 100000

def readCount : Read (Option Nat) := do
  match ← readNumber .repeatTooLarge with
  | some n => if n > largestCount then throw .repeatTooLarge else return some n
  | none => return none

/-- A quantifier in braces and whether it gives a single number.  What does not have that form is
no quantifier and stays unread. -/
def readBraces? : Read (Option (Quantifier × Bool)) := do
  let start ← Read.rest
  let fail : Read (Option (Quantifier × Bool)) := do
    Read.setRest start
    return none
  if !(← Read.take '\x7b') then return none
  let low ← readCount
  if ← Read.take ',' then
    let high ← readCount
    if low.isNone && high.isNone then return ← fail
    if !(← Read.take '\x7d') then return ← fail
    let least := low.getD 0
    match high with
    | some most =>
      if least > most then return some (⟨most, some least, true, true⟩, false)
      return some (⟨least, some most, true, false⟩, false)
    | none => return some (⟨least, none, true, false⟩, false)
  else
    match low with
    | none => fail
    | some n =>
      if !(← Read.take '\x7d') then return ← fail
      return some (⟨n, some n, true, false⟩, true)

/-- A quantifier of one sign, with the sign after it that makes it lazy or possessive. -/
def readSigned (least : Nat) (most : Option Nat) : Read Quantifier := do
  discard Read.next?
  if ← Read.take '?' then return ⟨least, most, false, false⟩
  if ← Read.take '+' then return ⟨least, most, true, true⟩
  return ⟨least, most, true, false⟩

def readQuantifier? : Read (Option Quantifier) := do
  match (← Read.rest).head? with
  | some '*' => return some (← readSigned 0 none)
  | some '+' => return some (← readSigned 1 none)
  | some '?' => return some (← readSigned 0 (some 1))
  | some '\x7b' =>
    match ← readBraces? with
    | none => return none
    | some (q, true) => return some q
    | some (q, false) =>
      if q.possessive then return some q
      if ← Read.take '?' then return some { q with greedy := false }
      return some q
  | _ => return none

/-- A loop over a loop, where one of the two says as much. -/
def looped (q : Quantifier) (n : Node) : Node :=
  match q.greedy, q.least, q.most, n with
  | true, 0, none, .loop 0 none true body => .loop 0 none true body
  | true, 1, none, .loop 0 none true body => .loop 0 none true body
  | true, 0, some 1, .loop 0 none true body => .loop 0 none true body
  | true, 0, none, .loop 1 none true body => .loop 0 none true body
  | true, 1, none, .loop 1 none true body => .loop 1 none true body
  | true, 0, some 1, .loop 1 none true body => .loop 0 none true body
  | true, 0, none, .loop 0 (some 1) true body => .loop 0 none true body
  | true, 1, none, .loop 0 (some 1) true body => .loop 0 none true body
  | greedy, least, most, n => .loop least most greedy n

namespace Quantifier

def isOnce (q : Quantifier) : Bool := q.least == 1 && q.most == some 1

def onto (q : Quantifier) (n : Node) : Node :=
  if q.isOnce then n
  else if q.possessive then .atomic (looped q n)
  else looped q n

end Quantifier

end GrammarScopes.Pattern
