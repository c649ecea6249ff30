/-!
The anchors `\A` and `\G` hold only in some places.  Where one does not hold it is replaced by a
character that is not expected in any text.
-/

namespace GrammarScopes

/-- Where a search stands: whether `\A` and `\G` may match there. -/
structure Anchoring where
  textStart : Bool
  searchStart : Bool
  deriving DecidableEq, Repr

/-- A character that stands for what never matches. -/
def neverChar : Char := '\uffff'

/-- Whether a pattern has one of the anchors.  A backslash belongs to the character after it. -/
def hasAnchor : List Char → Bool
  | '\\' :: c :: cs => c == 'A' || c == 'G' || hasAnchor cs
  | _ :: cs => hasAnchor cs
  | [] => false

namespace Anchoring

def forbids (a : Anchoring) (c : Char) : Bool :=
  (c == 'A' && !a.textStart) || (c == 'G' && !a.searchStart)

def apply (a : Anchoring) : List Char → List Char
  | '\\' :: c :: cs =>
    if a.forbids c then neverChar :: a.apply cs else '\\' :: c :: a.apply cs
  | c :: cs => c :: a.apply cs
  | [] => []

def patternText (a : Anchoring) (pattern : String) : String :=
  String.ofList (a.apply pattern.toList)

end Anchoring

end GrammarScopes
