import GrammarScopes.ScopeTemplate

/-!
The pattern that ends a region may refer to what began it: a backslash and a number stand for the
text of that group, taken literally.
-/

namespace GrammarScopes.BackReference

def isSpecial (c : Char) : Bool :=
  "-\\\x7b\x7d*+?|^$.,[]()#".toList.contains c || Text.isBlank c

def escape (text : List Char) : List Char :=
  text.flatMap fun c => if isSpecial c then ['\\', c] else [c]

inductive Piece
  | literal (c : Char)
  | reference (digits : List Char)
  deriving DecidableEq, Repr

def read? : List Char → Option (List Char)
  | '\\' :: cs =>
    let digits := cs.takeWhile Text.isDigit
    if digits.isEmpty then none else some digits
  | _ => none

/-- Reads a pattern from left to right; `covered` characters belong to the last reference. -/
def readFrom : Nat → List Char → List Piece
  | _, [] => []
  | covered + 1, _ :: cs => readFrom covered cs
  | 0, c :: cs =>
    match read? (c :: cs) with
    | some digits => .reference digits :: readFrom digits.length cs
    | none => .literal c :: readFrom 0 cs

def occursIn (pattern : String) : Bool :=
  (readFrom 0 pattern.toList).any fun
    | .reference _ => true
    | .literal _ => false

/-- A group that is absent or did not match stands for no text. -/
def Piece.resolve (line : Line) (captures : Captures) : Piece → List Char
  | literal c => [c]
  | reference digits =>
    match (Text.word? digits).bind (captures.text? line) with
    | some text => escape text
    | none => []

def resolve (pattern : String) (line : Line) (captures : Captures) : String :=
  String.ofList ((readFrom 0 pattern.toList).flatMap (Piece.resolve line captures))

end GrammarScopes.BackReference
