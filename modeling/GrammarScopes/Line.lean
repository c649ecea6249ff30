import GrammarScopes.Text.Class
import GrammarScopes.Text.Ranges
import GrammarScopes.Text.Units

/-!
A line prepared for matching.  Grammars expect every line to end with a line feed, so one is
appended.  Positions in a line count bytes of UTF-8; the callers' columns count units of UTF-16,
and only a line with characters beyond ASCII needs a table for the conversion.
-/

namespace GrammarScopes

namespace Line

/-- The byte offsets of the characters of a text that begins at `start`, and of its end. -/
def boundsFrom : Nat → List Char → List Nat
  | start, [] => [start]
  | start, c :: cs => start :: boundsFrom (start + c.utf8Size) cs

/-- For every byte of a text and for its end, the number of UTF-16 units before the character it
belongs to, when `before` units precede the text. -/
def unitsFrom : Nat → List Char → List Nat
  | before, [] => [before]
  | before, c :: cs =>
    List.replicate c.utf8Size before ++ unitsFrom (before + Text.units c) cs

/-- ASCII text needs no table: each byte is one unit. -/
def unitTable? (chars : List Char) : Option (Array Nat) :=
  if chars.all Text.isAscii then none else some (unitsFrom 0 chars).toArray

end Line

structure Line where
  chars : Array Char
  /-- The bytes of the line without the appended line feed. -/
  contentSize : Nat
  bounds : Array Nat
  unitTable : Option (Array Nat)
  bounds_eq : bounds = (Line.boundsFrom 0 chars.toList).toArray
  unitTable_eq : unitTable = Line.unitTable? chars.toList

namespace Line

def ofChars (chars : List Char) (contentSize : Nat) : Line where
  chars := chars.toArray
  contentSize
  bounds := (boundsFrom 0 chars).toArray
  unitTable := unitTable? chars
  bounds_eq := by simp
  unitTable_eq := by simp

def ofText (text : String) : Line :=
  ofChars (text.toList ++ ['\n']) (Text.byteCount text.toList)

/-- The length in bytes, the line feed included. -/
def size (l : Line) : Nat := l.bounds.getD l.chars.size 0

def isEmpty (l : Line) : Bool := l.chars.isEmpty

def text (l : Line) : String := String.ofList l.chars.toList

/-- The index of the character that begins at byte `offset`, or the number of characters for the
end of the line. -/
def index? (l : Line) (offset : Nat) : Option Nat :=
  let i := Text.countUpTo l.bounds offset - 1
  if l.bounds[i]? = some offset then some i else none

def offset (l : Line) (index : Nat) : Nat := l.bounds.getD index l.size

def unitsAt (l : Line) (offset : Nat) : Nat :=
  match l.unitTable with
  | none => offset
  | some table => table.getD offset (table.back?.getD 0)

def slice? (l : Line) (start stop : Nat) : Option (List Char) :=
  if start ≤ stop then do
    let i ← l.index? start
    let j ← l.index? stop
    return (l.chars.extract i j).toList
  else none

/-- The first `stop` bytes as a line of their own, without a line feed; `none` if that would cut a
character.  Offsets mean the same in both lines. -/
def upTo? (l : Line) (stop : Nat) : Option Line :=
  let stop := min stop l.size
  (l.index? stop).map fun i =>
    ofChars (l.chars.extract 0 i).toList (min stop l.contentSize)

end Line

end GrammarScopes
