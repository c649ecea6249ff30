import GrammarScopes.Description.Basic

/-!
The number of rules that are written in a description.
-/

namespace GrammarScopes

namespace Description

mutual

/-- The number of rules written in a rule, itself included. -/
def ruleCount : RuleDescription → Nat
  | ⟨_, _, _, _, captures, _, beginCaptures, _, endCaptures, _, whileCaptures, patterns,
      repository, _⟩ =>
    1 + tableCount captures + tableCount beginCaptures + tableCount endCaptures +
      tableCount whileCaptures + patternCount patterns + tableCount repository

def listCount : List RuleDescription → Nat
  | [] => 0
  | r :: rs => ruleCount r + listCount rs

def entryCount : List (String × RuleDescription) → Nat
  | [] => 0
  | (_, r) :: rs => ruleCount r + entryCount rs

def patternCount : Option (List RuleDescription) → Nat
  | none => 0
  | some rs => listCount rs

def tableCount : Option (List (String × RuleDescription)) → Nat
  | none => 0
  | some rs => entryCount rs

end

end Description

def GrammarDescription.ruleCount (g : GrammarDescription) : Nat :=
  Description.listCount g.patterns + Description.entryCount g.repository

end GrammarScopes
