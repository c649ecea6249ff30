import GrammarScopes.Description.Basic
import GrammarScopes.Dictionary
import GrammarScopes.Text.Split

/-!
References: what a rule may stand for, and which other grammars a grammar needs.
-/

namespace GrammarScopes

inductive Reference
  | named (key : String)
  /-- The grammar that contains the reference. -/
  | self
  /-- The grammar that is being compiled. -/
  | base
  | grammar (scope : String)
  | ruleOf (scope key : String)
  deriving DecidableEq, Repr

namespace Reference

def parse (text : String) : Reference :=
  match text.toList with
  | '#' :: key => named (String.ofList key)
  | cs =>
    if text = "$self" then self
    else if text = "$base" then base
    else match Text.splitOnce '#' cs with
      | some (scope, key) => ruleOf (String.ofList scope) (String.ofList key)
      | none => grammar text

/-- The scope of the grammar that a reference leads to, unless it begins with a mark that keeps it
inside its own grammar. -/
def externalScope? (text : String) : Option String :=
  match text.toList with
  | '#' :: _ | '$' :: _ => none
  | cs => some (String.ofList (cs.takeWhile (· != '#')))

end Reference

namespace Description

mutual

def ruleScopes : RuleDescription → List String
  | ⟨reference, _, _, _, captures, _, beginCaptures, _, endCaptures, _, whileCaptures, patterns,
      repository, _⟩ =>
    (reference.bind Reference.externalScope?).toList ++ patternScopes patterns ++
      namedScopes repository ++ namedScopes captures ++ namedScopes beginCaptures ++
      namedScopes endCaptures ++ namedScopes whileCaptures

def listScopes : List RuleDescription → List String
  | [] => []
  | r :: rs => ruleScopes r ++ listScopes rs

def tableScopes : List (String × RuleDescription) → List String
  | [] => []
  | (_, r) :: rs => ruleScopes r ++ tableScopes rs

def patternScopes : Option (List RuleDescription) → List String
  | none => []
  | some rs => listScopes rs

def namedScopes : Option (List (String × RuleDescription)) → List String
  | none => []
  | some rs => tableScopes rs

end

end Description

open Description in
/-- The scopes of the other grammars that a grammar needs, in order and each once. -/
def GrammarDescription.externalScopes (g : GrammarDescription) : List String :=
  ((listScopes g.patterns ++ tableScopes g.repository).foldr Dictionary.insertWord []).filter
    (· != g.scopeName)

end GrammarScopes
