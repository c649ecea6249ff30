import GrammarScopes.Text.Split
import GrammarScopes.Text.Units

/-!
A document is a list of lines.  Splitting a text into lines loses nothing but the line breaks.
-/

namespace GrammarScopes

/-- A cursor position: line and column count from zero, the column in UTF-16 units. -/
structure Position where
  line : Nat
  character : Nat
  deriving DecidableEq, Repr, Inhabited

structure Document where
  lines : List String
  deriving DecidableEq, Repr, Inhabited

namespace Document

def dropReturn (piece : List Char) : List Char :=
  if piece.getLast? = some '\r' then piece.dropLast else piece

/-- Lines end at a line feed, or at a carriage return directly before one; a text that ends in a
line feed has a last, empty line. -/
def ofText (text : String) : Document :=
  ⟨(Text.splitAll '\n' text.toList).map fun piece => String.ofList (dropReturn piece)⟩

def lineCount (d : Document) : Nat := d.lines.length

def lineAt? (d : Document) (index : Nat) : Option String := d.lines[index]?

end Document

end GrammarScopes
