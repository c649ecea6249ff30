import GrammarScopes.Pattern.Check
import GrammarScopes.Pattern.Parser

/-!
Matching by backtracking.  A node is run with what is to follow it; it tries its ways of matching
in order of preference and answers with the first that can be followed to the end.
-/

namespace GrammarScopes.Pattern

/-- The text that is searched, and the position at which the search began. -/
structure Subject where
  chars : Array Char
  origin : Nat

/-- How far an attempt has come: positions count characters. -/
structure Attempt where
  pos : Nat
  /-- Start and end of the text that each group matched last. -/
  groups : Array (Option (Nat × Nat))
  /-- Where the reported match begins, if not where the attempt began. -/
  keep : Option Nat
  deriving DecidableEq, Repr

abbrev Goal := Attempt → Option Attempt

/-- A way of matching: from an attempt, with what is to follow. -/
abbrev Step := Attempt → Goal → Option Attempt

namespace Subject

variable (t : Subject)

def at? (p : Nat) : Option Char := t.chars[p]?

def isBreakAt (p : Nat) : Bool := t.at? p == some '\n'

def isEnd (p : Nat) : Bool := p == t.chars.size

def inBefore (s : CharSet) : Nat → Bool
  | 0 => false
  | p + 1 => (t.at? p).any s.contains

/-- Whether the character at `p` makes one segment of text with that before it. -/
def attaches : Nat → Bool
  | 0 => false
  | p + 1 =>
    match t.at? p, t.at? (p + 1) with
    | some '\r', some '\n' => true
    | some c, some d => NamedSet.extender.contains d && !NamedSet.cntrl.contains c
    | _, _ => false

def holds (p : Nat) : Assertion → Bool
  | .lineStart =>
    match p with
    | 0 => true
    | q + 1 => t.isBreakAt q && !t.isEnd p
  | .lineEnd => t.isEnd p || t.isBreakAt p
  | .textStart => p == 0
  | .textEnd => t.isEnd p
  | .textEndOrBreak => t.isEnd p || (t.isBreakAt p && t.isEnd (p + 1))
  | .searchStart => p == t.origin
  | .wordBoundary word => t.inBefore word p != (t.at? p).any word.contains
  | .segmentBoundary =>
    p == 0 || t.isEnd p || !t.attaches p

def sameChar (anyCase : Bool) (c d : Char) : Bool :=
  c == d || (anyCase && Text.foldChar c == Text.foldChar d)

/-- Whether `n` characters from `p` on are those from `q` on. -/
def repeats (anyCase : Bool) (q : Nat) : Nat → Nat → Bool
  | 0, _ => true
  | n + 1, p =>
    match t.at? q, t.at? p with
    | some c, some d => sameChar anyCase c d && repeats anyCase (q + 1) n (p + 1)
    | _, _ => false

def runEnd (test : Char → Bool) : Nat → Nat → Nat
  | 0, p => p
  | n + 1, p =>
    if h : p < t.chars.size then
      if test t.chars[p] then runEnd test n (p + 1) else p
    else p

end Subject

namespace Attempt

def start (pos groupCount : Nat) : Attempt := ⟨pos, Array.replicate (groupCount + 1) none, none⟩

def moveTo (s : Attempt) (pos : Nat) : Attempt := { s with pos := pos }

def setGroup (s : Attempt) (n start : Nat) : Attempt :=
  { s with groups := s.groups.setIfInBounds n (some (start, s.pos)) }

def group? (s : Attempt) (n : Nat) : Option (Nat × Nat) := (s.groups[n]?).join

end Attempt

/-- The end positions from `low + n` down to `low`. -/
def longestFirst (s : Attempt) (k : Goal) (low : Nat) : Nat → Option Attempt
  | 0 => k (s.moveTo low)
  | n + 1 =>
    match k (s.moveTo (low + (n + 1))) with
    | some r => some r
    | none => longestFirst s k low n

/-- The end positions from `low` up to `low + n`. -/
def shortestFirst (s : Attempt) (k : Goal) : Nat → Nat → Option Attempt
  | low, 0 => k (s.moveTo low)
  | low, n + 1 =>
    match k (s.moveTo low) with
    | some r => some r
    | none => shortestFirst s k (low + 1) n

/-- Exactly `n` copies of `body`; a copy that consumes nothing stands for all the rest. -/
def copies (body : Step) : Nat → Step
  | 0, s, k => k s
  | n + 1, s, k => body s fun s' => if s'.pos == s.pos then k s' else copies body n s' k

/-- At most `n` copies of `body`; a copy that consumes nothing is the last. -/
def moreCopies (body : Step) (greedy : Bool) : Nat → Step
  | 0, s, k => k s
  | n + 1, s, k =>
    let again (_ : Unit) :=
      body s fun s' => if s'.pos == s.pos then k s' else moreCopies body greedy n s' k
    if greedy then
      match again () with
      | some r => some r
      | none => k s
    else
      match k s with
      | some r => some r
      | none => again ()

/-- The first way in which `body` matches a text that ends where the attempt is, among texts of
`length` characters and up to `n` more. -/
def stepBack (body : Step) (s : Attempt) : Nat → Nat → Option Attempt
  | length, 0 => back body s length
  | length, n + 1 =>
    match back body s length with
    | some r => some r
    | none => stepBack body s (length + 1) n
where
  back (body : Step) (s : Attempt) (length : Nat) : Option Attempt :=
    if length ≤ s.pos then
      body (s.moveTo (s.pos - length)) fun s' => if s'.pos == s.pos then some s' else none
    else none

def occursBefore (body : Step) (s : Attempt) (last : Nat) : Nat → Nat → Bool
  | 0, _ => false
  | n + 1, p =>
    (body (s.moveTo p) fun s' => if s'.pos ≤ last then some s' else none).isSome
      || occursBefore body s last n (p + 1)

/-- How many of the `n` end positions from `last` on can be reached without passing a match. -/
def freeLength (body : Step) (s : Attempt) : Nat → Nat → Nat
  | 0, _ => 0
  | n + 1, last =>
    if occursBefore body s last (last - s.pos + 1) s.pos then 0
    else freeLength body s n (last + 1) + 1

/-- The test of a node that consumes exactly one character. -/
def Node.charTest? : Node → Option (Char → Bool)
  | char c => some (· == c)
  | set s => some s.contains
  | _ => none

def Node.run (t : Subject) (call : GroupRef → Step) : Node → Step
  | empty, s, k => k s
  | fail, _, _ => none
  | char c, s, k => if t.at? s.pos == some c then k (s.moveTo (s.pos + 1)) else none
  | set cs, s, k =>
    match t.at? s.pos with
    | some c => if cs.contains c then k (s.moveTo (s.pos + 1)) else none
    | none => none
  | seq a b, s, k => a.run t call s fun s' => b.run t call s' k
  | alt a b, s, k =>
    match a.run t call s k with
    | some r => some r
    | none => b.run t call s k
  | loop least most greedy body, s, k =>
    match body.charTest? with
    -- Copies of one character are counted first, and then only their number is tried out.
    | some test =>
      let room := t.chars.size - s.pos
      let count := t.runEnd test (min (most.getD room) room) s.pos - s.pos
      if count < least then none
      else if greedy then longestFirst s k (s.pos + least) (count - least)
      else shortestFirst s k (s.pos + least) (count - least)
    | none =>
      copies (body.run t call) least s fun s' =>
        let room := t.chars.size - s'.pos + 1
        moreCopies (body.run t call) greedy (match most with
          | some m => min (m - least) room
          | none => room) s' k
  | atomic body, s, k => (body.run t call s some).bind k
  | group n body, s, k => body.run t call s fun s' => k (s'.setGroup n s.pos)
  | ahead positive body, s, k =>
    match body.run t call s some, positive with
    | some s', true => k (s'.moveTo s.pos)
    | none, false => k s
    | _, _ => none
  | behind positive body, s, k =>
    let least := body.least fun _ => 0
    let most := min (body.most.getD s.pos) s.pos
    match stepBack (body.run t call) s least (most - least), positive with
    | some s', true => k s'
    | none, false => k s
    | _, _ => none
  | assertion positive a, s, k => if t.holds s.pos a == positive then k s else none
  | backReference groups anyCase, s, k =>
    let found := groups.findSome? fun n =>
      match s.group? n with
      | some (i, j) => if t.repeats anyCase i (j - i) s.pos then some (j - i) else none
      | none => none
    match found with
    | some n => k (s.moveTo (s.pos + n))
    | none => none
  | .call r _, s, k => call r s k
  | keep, s, k => k { s with keep := some s.pos }
  | isSet groups, s, k => if groups.any fun n => (s.group? n).isSome then k s else none
  | ifElse test yes no, s, k =>
    match test.run t call s some with
    | some s' => yes.run t call s' k
    | none => no.run t call s k
  | absent body, s, k =>
    match freeLength (body.run t call) s (t.chars.size - s.pos + 1) s.pos with
    | 0 => none
    | n + 1 => longestFirst s k s.pos n

namespace Compiled

/-- Runs the group that a call names, with at most `n` calls nested in it. -/
def enter (c : Compiled) (t : Subject) : Nat → GroupRef → Step
  | 0, _, _, _ => none
  | n + 1, r, s, k =>
    match c.target? r with
    | some node => node.run t (c.enter t n) s k
    | none => none

/-- More calls than can be nested in each other: each round through all groups consumes. -/
def callDepth (c : Compiled) (t : Subject) : Nat := (t.chars.size + 1) * (c.groupCount + 1) + 1

def matchAt (c : Compiled) (t : Subject) (p : Nat) : Option Attempt :=
  c.root.run t (c.enter t (c.callDepth t)) (Attempt.start p c.groupCount) some

/-- The spans of the whole match and of the groups, in characters, of a match that began at `p`. -/
def spans (p : Nat) (a : Attempt) : List (Option (Nat × Nat)) :=
  some (min (a.keep.getD p) a.pos, a.pos) :: a.groups.toList.drop 1

/-- The first of the `n` positions from `p` on at which the pattern matches, and the attempt. -/
def search (c : Compiled) (t : Subject) : Nat → Nat → Option (Nat × Attempt)
  | 0, _ => none
  | n + 1, p =>
    match c.matchAt t p with
    | some a => some (p, a)
    | none => search c t n (p + 1)

end Compiled

def compile (source : String) : Except PatternError Compiled := do
  let c ← parse source
  c.check
  return c

end GrammarScopes.Pattern
