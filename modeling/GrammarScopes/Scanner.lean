import GrammarScopes.Line
import GrammarScopes.Pattern.Matcher

/-!
Searching a line with a list of patterns: the earliest match wins, and among matches that begin at
the same place the pattern listed first.
-/

namespace GrammarScopes

/-- A stretch of a line, in bytes. -/
structure Span where
  start : Nat
  stop : Nat
  deriving DecidableEq, Repr, Inhabited

/-- The stretches that the groups of a pattern matched, the whole match first. -/
abbrev Captures := List (Option Span)

structure ScanMatch where
  index : Nat
  whole : Span
  groups : Captures
  deriving DecidableEq, Repr

namespace ScanMatch

def start (m : ScanMatch) : Nat := m.whole.start

def stop (m : ScanMatch) : Nat := m.whole.stop

def captures (m : ScanMatch) : Captures := some m.whole :: m.groups

end ScanMatch

/-- Finds the next match in a line, from a byte offset on. -/
structure Matcher where
  find : Line → Nat → Option ScanMatch

structure PatternFault where
  pattern : String
  reason : PatternError
  deriving DecidableEq, Repr

structure Scanner where
  compile : List String → Except PatternFault Matcher

namespace Scanner

open Pattern

/-- A match of one of several patterns, in characters. -/
structure Found where
  index : Nat
  start : Nat
  spans : List (Option (Nat × Nat))

def found (index p : Nat) (a : Attempt) : Found :=
  ⟨index, min (a.keep.getD p) a.pos, Compiled.spans p a⟩

def search (t : Subject) (n p : Nat) (e : Nat × Compiled) : Option Found :=
  (e.2.search t n p).map fun (q, a) => found e.1 q a

/-- The best of the matches that `find` gives for patterns in turn, from `p` on.  Of matches that
begin at the same place the first counts, and with one that begins at `p` the search is over. -/
def inTurn {α : Type} (find : α → Option Found) (p : Nat) : Option Found → List α → Option Found
  | best, [] => best
  | best, e :: rest =>
    match find e with
    | none => inTurn find p best rest
    | some f =>
      if best.any (·.start ≤ f.start) then inTurn find p best rest
      else if f.start == p then some f
      else inTurn find p (some f) rest

/-- The match of the first pattern that matches at the first of the `n` positions from `p` on at which
one does.  It is the best one if matches begin where they are looked for. -/
def atOnce (t : Subject) (patterns : List (Nat × Compiled)) : Nat → Nat → Option Found
  | 0, _ => none
  | n + 1, p =>
    match patterns.findSome? fun e => (e.2.matchAt t p).map (found e.1 p) with
    | some f => some f
    | none => atOnce t patterns n (p + 1)

/-- The best match at one of the `n` positions from `p` on; `keeps` says that a match may begin
elsewhere than where it was looked for. -/
def earliest (keeps : Bool) (t : Subject) (n p : Nat) (patterns : List (Nat × Compiled)) :
    Option Found :=
  if keeps then inTurn (search t n p) p none patterns else atOnce t patterns n p

def toMatch (line : Line) (f : Found) : Option ScanMatch :=
  let spans := f.spans.map (·.map fun s => Span.mk (line.offset s.1) (line.offset s.2))
  match spans with
  | some whole :: groups => some ⟨f.index, whole, groups⟩
  | _ => none

def numbered (patterns : List Compiled) : List (Nat × Compiled) :=
  patterns.zipIdx.map fun (c, i) => (i, c)

def matcher (patterns : List Compiled) : Matcher :=
  let entries := numbered patterns
  let keeps := patterns.any (·.root.keeps)
  { find line start := do
      let p ← line.index? start
      let f ← earliest keeps ⟨line.chars, p⟩ (line.chars.size + 1 - p) p entries
      toMatch line f }

def compilePattern (source : String) : Except PatternFault Compiled :=
  match Pattern.compile source with
  | .ok c => .ok c
  | .error e => .error ⟨source, e⟩

/-- The scanner for the patterns of this library; the first faulty pattern is reported. -/
def standard : Scanner where
  compile sources := return matcher (← sources.mapM compilePattern)

end Scanner

end GrammarScopes
