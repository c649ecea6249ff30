import GrammarScopes.Scanner
import GrammarScopes.Text.CaseMap
import GrammarScopes.Text.Number
import GrammarScopes.Text.Split

/-!
Scope names may refer to what a pattern captured: `$1` stands for the text of group 1, and
`$\x7b1:/downcase\x7d` and `$\x7b1:/upcase\x7d` for that text with its letters changed.
-/

namespace GrammarScopes

namespace Captures

def text? (captures : Captures) (line : Line) (group : Nat) : Option (List Char) := do
  let span ← (captures[group]?).join
  line.slice? span.start span.stop

end Captures

inductive LetterChange
  | none
  | lower
  | upper
  deriving DecidableEq, Repr

def LetterChange.apply : LetterChange → List Char → List Char
  | none, cs => cs
  | lower, cs => Text.lower cs
  | upper, cs => Text.upper cs

structure CaptureReference where
  written : List Char
  /-- Digits of other scripts, or too many digits, name no group. -/
  group : Option Nat
  change : LetterChange
  deriving DecidableEq, Repr

inductive TemplatePiece
  | literal (c : Char)
  | reference (r : CaptureReference)
  deriving DecidableEq, Repr

namespace CaptureReference

def changes : List (List Char × LetterChange) :=
  [(":/downcase\x7d".toList, .lower), (":/upcase\x7d".toList, .upper)]

def braced? (digits : List Char) (rest : List Char) : Option CaptureReference :=
  (changes.find? fun c => c.1.isPrefixOf rest).map fun c =>
    ⟨['$', '\x7b'] ++ digits ++ c.1, Text.word? digits, c.2⟩

def read? : List Char → Option CaptureReference
  | '$' :: '\x7b' :: cs =>
    let digits := cs.takeWhile Text.isDigit
    if digits.isEmpty then none else braced? digits (cs.drop digits.length)
  | '$' :: cs =>
    let digits := cs.takeWhile Text.isDigit
    if digits.isEmpty then none else some ⟨'$' :: digits, Text.word? digits, .none⟩
  | _ => none

/-- The captured text without leading dots and with its letters changed; a reference to a group
that is absent or did not match stands for itself. -/
def resolve (r : CaptureReference) (line : Line) (captures : Captures) : List Char :=
  match r.group.bind (captures.text? line) with
  | some text => r.change.apply (text.dropWhile (· == '.'))
  | none => r.written

end CaptureReference

namespace TemplatePiece

/-- Reads a template from left to right; `covered` characters belong to the last reference. -/
def readFrom : Nat → List Char → List TemplatePiece
  | _, [] => []
  | covered + 1, _ :: cs => readFrom covered cs
  | 0, c :: cs =>
    match CaptureReference.read? (c :: cs) with
    | some r => reference r :: readFrom (r.written.length - 1) cs
    | none => literal c :: readFrom 0 cs

def isReference : TemplatePiece → Bool
  | reference _ => true
  | literal _ => false

def resolve (line : Line) (captures : Captures) : TemplatePiece → List Char
  | literal c => [c]
  | reference r => r.resolve line captures

end TemplatePiece

structure ScopeTemplate where
  text : String
  pieces : List TemplatePiece
  pieces_eq : pieces = TemplatePiece.readFrom 0 text.toList

namespace ScopeTemplate

def ofText (text : String) : ScopeTemplate := ⟨text, TemplatePiece.readFrom 0 text.toList, rfl⟩

def hasReferences (t : ScopeTemplate) : Bool := t.pieces.any TemplatePiece.isReference

def fill (t : ScopeTemplate) (line : Line) (captures : Captures) : String :=
  String.ofList (t.pieces.flatMap (TemplatePiece.resolve line captures))

def resolve (t : ScopeTemplate) (line : Line) (captures : Captures) : String :=
  if t.hasReferences then t.fill line captures else t.text

end ScopeTemplate

/-- The scopes of `base`, and inside them those that a name lists. -/
def pushScopes (base : List String) (name : Option String) : List String :=
  match name with
  | some n => base ++ (Text.words n.toList).map String.ofList
  | none => base

end GrammarScopes
