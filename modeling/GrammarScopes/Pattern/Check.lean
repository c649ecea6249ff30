import GrammarScopes.Pattern.Error
import GrammarScopes.Pattern.Node

/-!
What must hold of a pattern's tree as a whole: calls and references name groups of the pattern, a
group does not call itself before it has consumed anything, and look-behind holds only what can be
matched backwards.
-/

namespace GrammarScopes.Pattern

namespace Node

def group? (n : Nat) : Node → Option Node
  | group m body => if m == n then some (group m body) else body.group? n
  | seq a b | alt a b =>
    match a.group? n with
    | some g => some g
    | none => b.group? n
  | ifElse a b c =>
    match a.group? n with
    | some g => some g
    | none =>
      match b.group? n with
      | some g => some g
      | none => c.group? n
  | loop _ _ _ body | atomic body | ahead _ body | behind _ body | absent body => body.group? n
  | _ => none

def calls : Node → List (GroupRef × String)
  | call r written => [(r, written)]
  | seq a b | alt a b => a.calls ++ b.calls
  | ifElse a b c => a.calls ++ b.calls ++ c.calls
  | loop _ _ _ body | atomic body | group _ body | ahead _ body | behind _ body | absent body =>
    body.calls
  | _ => []

/-- The fewest characters that the node consumes, given those that the called groups consume. -/
def least (called : GroupRef → Nat) : Node → Nat
  | char _ | set _ => 1
  | seq a b => a.least called + b.least called
  | alt a b => min (a.least called) (b.least called)
  | loop n _ _ body => n * body.least called
  | atomic body | group _ body => body.least called
  | call r _ => called r
  | ifElse a b c => min (a.least called + b.least called) (c.least called)
  | _ => 0

/-- The most characters that the node consumes; `none` if there is no bound or it is not known. -/
def most : Node → Option Nat
  | char _ | set _ => some 1
  | seq a b => do return (← a.most) + (← b.most)
  | alt a b => do return max (← a.most) (← b.most)
  | loop _ n _ body => do return (← n) * (← body.most)
  | atomic body | group _ body => body.most
  | call _ _ | backReference _ _ | absent _ => none
  | ifElse a b c => do return max ((← a.most) + (← b.most)) (← c.most)
  | _ => some 0

end Node

namespace Compiled

def indices (c : Compiled) (name : String) : List Nat :=
  (c.names.filter (·.1 == name)).map (·.2)

/-- The number of the group that a call runs; zero is the whole pattern. -/
def index? (c : Compiled) : GroupRef → Option Nat
  | .index n => some n
  | .name s => (c.indices s).head?

def target? (c : Compiled) (r : GroupRef) : Option Node := do
  let n ← c.index? r
  if n == 0 then some c.root else c.root.group? n

def checkCall (c : Compiled) : GroupRef × String → Except PatternError Unit
  | (.index n, written) => if n > c.groupCount then .error (.undefinedGroup written) else .ok ()
  | (.name s, written) =>
    match c.indices s with
    | [] => .error (.undefinedName written)
    | [_] => .ok ()
    | _ => .error (.ambiguousCall written)

/-- The fewest characters that a called group consumes; calls nested in it count down to `n`. -/
def leastCalled (c : Compiled) : Nat → GroupRef → Nat
  | 0, _ => 0
  | n + 1, r => ((c.target? r).map (·.least (c.leastCalled n))).getD 0

end Compiled

/-- How a group reaches itself. -/
structure Recursion where
  /-- On every way through the group. -/
  must : Bool := false
  /-- Before anything is consumed. -/
  endless : Bool := false

namespace Recursion

def combine (r s : Recursion) : Recursion := ⟨r.must || s.must, r.endless || s.endless⟩

end Recursion

/-- How a node reaches the group `target`.  `active` are the groups being looked into, and `head`
says that nothing has been consumed. -/
def Node.recursion (target : Nat) (least : Node → Nat)
    (enter : List Nat → Bool → GroupRef → Recursion) : Node → List Nat → Bool → Recursion
  | seq a b, active, head =>
    let r := a.recursion target least enter active head
    if r.endless then r
    else r.combine (b.recursion target least enter active (head && least a == 0))
  | alt a b, active, head =>
    let r := a.recursion target least enter active head
    let s := b.recursion target least enter active head
    ⟨r.must && s.must, r.endless || s.endless⟩
  | loop n most _ body, active, head =>
    if most == some 0 then {}
    else
      let r := body.recursion target least enter active head
      ⟨r.must && n != 0, r.endless⟩
  | atomic body, active, head | ahead _ body, active, head | behind _ body, active, head
  | absent body, active, head => body.recursion target least enter active head
  | group n body, active, head =>
    if n == target then ⟨true, head⟩
    else if active.contains n then {}
    else body.recursion target least enter (n :: active) head
  | call r _, active, head => enter active head r
  | ifElse a b c, active, head =>
    let r := a.recursion target least enter active head
    let s := b.recursion target least enter active (head && least a == 0)
    let t := c.recursion target least enter active head
    ⟨r.must || (s.must && t.must), r.endless || s.endless || t.endless⟩
  | _, _, _ => {}

namespace Compiled

/-- How a call reaches the group `target`, through at most `n` calls. -/
def callRecursion (c : Compiled) (target : Nat) :
    Nat → List Nat → Bool → GroupRef → Recursion
  | 0, _, _, _ => {}
  | n + 1, active, head, r =>
    match c.index? r with
    | none => {}
    | some 0 =>
      if target == 0 then ⟨true, head⟩
      else if active.contains 0 then {}
      else c.root.recursion target (·.least (c.leastCalled 3)) (c.callRecursion target n)
        (0 :: active) head
    | some _ =>
      match c.target? r with
      | none => {}
      | some g =>
        g.recursion target (·.least (c.leastCalled 3)) (c.callRecursion target n) active head

def isEndless (c : Compiled) (r : GroupRef) : Bool :=
  match c.index? r, c.target? r with
  | some n, some node =>
    let body := match node with
      | .group m body => if m == n then body else node
      | _ => node
    let r := body.recursion n (·.least (c.leastCalled 3)) (c.callRecursion n (c.groupCount + 2))
      [] true
    r.must || r.endless
  | _, _ => false

end Compiled

def Node.allowedBehind : Bool → Node → Bool
  | _, .assertion _ .textEnd => false
  | _, .assertion _ .textEndOrBreak => false
  | positive, .group _ body => positive && body.allowedBehind positive
  | positive, .seq a b | positive, .alt a b => a.allowedBehind positive && b.allowedBehind positive
  | positive, .ifElse a b c =>
    a.allowedBehind positive && b.allowedBehind positive && c.allowedBehind positive
  | positive, .loop _ _ _ body | positive, .atomic body | positive, .absent body =>
    body.allowedBehind positive
  | positive, .ahead _ body => body.allowedBehind positive
  | _, .behind positive body => body.allowedBehind positive
  | _, _ => true

def Node.check (groupCount : Nat) : Node → Except PatternError Unit
  | backReference groups _ =>
    if groups.all (· ≤ groupCount) then .ok () else .error .invalidBackReference
  | isSet groups =>
    if groups.all (· ≤ groupCount) then .ok () else .error .invalidBackReference
  | seq a b | alt a b => do
    a.check groupCount
    b.check groupCount
  | ifElse a b c => do
    a.check groupCount
    b.check groupCount
    c.check groupCount
  | behind positive body =>
    if body.allowedBehind positive then body.check groupCount else .error .invalidLookBehind
  | loop _ _ _ body | atomic body | group _ body | ahead _ body | absent body =>
    body.check groupCount
  | _ => .ok ()

def Compiled.check (c : Compiled) : Except PatternError Unit := do
  let calls := c.root.calls
  calls.forM c.checkCall
  if calls.any fun r => c.isEndless r.1 then throw .endlessRecursion
  c.root.check c.groupCount

end GrammarScopes.Pattern
