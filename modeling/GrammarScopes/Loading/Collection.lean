import GrammarScopes.Description.Reference
import GrammarScopes.Grammar.Node

/-!
The descriptions that a grammar needs: its own, and those of all grammars that it embeds.
-/

namespace GrammarScopes

structure Collection where
  found : GrammarSet := []
  /-- Embedded grammars that could not be loaded. -/
  missing : List String := []
  /-- Scopes to look at, the next one first. -/
  pending : List String := []

namespace Collection

def isKnown (c : Collection) (scope : String) : Bool :=
  c.found.any (·.1 == scope) || c.missing.contains scope

/-- Adds a description, and looks next at what it embeds, the last scope first. -/
def add (c : Collection) (scope : String) (g : GrammarDescription) : Collection :=
  let embedded := g.externalScopes.filter fun s => !c.found.any (·.1 == s)
  { c with
    found := Dictionary.insert scope g c.found
    pending := embedded.reverse ++ c.pending }

def skip (c : Collection) (scope : String) : Collection :=
  { c with missing := Dictionary.insertWord scope c.missing }

end Collection

end GrammarScopes
