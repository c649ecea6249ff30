import GrammarScopes.Loading.Source

/-!
What loads depend on, and what they have done.
-/

namespace GrammarScopes

inductive Backend
  | immediate
  /-- When it is not held back, and after a number of failures. -/
  | controlled (isHeld : Bool) (failures : Nat)
  deriving DecidableEq, Repr

structure Reading where
  scope : String
  location : String
  deriving DecidableEq, Repr

structure World where
  source : Source
  held : List String := []
  backend : Backend := .controlled false 0
  attempts : Nat := 0
  /-- The reads that have begun, the latest first. -/
  readings : List Reading := []

def World.reads (w : World) : List String := w.readings.map (·.location)

/-- Whether the text at a location is held back; only texts in memory can be. -/
def World.holds (w : World) (location : String) : Bool :=
  match w.source with
  | .memory _ => w.held.contains location
  | .bundled | .directory .. => false

end GrammarScopes
