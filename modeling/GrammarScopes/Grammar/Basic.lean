import GrammarScopes.Grammar.Candidates
import GrammarScopes.Grammar.Compile

/-!
Compiled grammars.
-/

namespace GrammarScopes

/-- A compiled grammar; its first rule is the root.  The rules that may start are worked out when a
rule is first active. -/
structure Grammar where
  scopeName : String
  rules : Array Rule
  scanSets : Array (Thunk ScanSet)
  scanner : Scanner

namespace Grammar

def ofRules (scopeName : String) (rules : Array Rule) (scanner : Scanner) : Grammar where
  scopeName
  rules
  scanSets := (Array.range rules.size).map fun id => .mk fun _ => .ofRule scanner rules id
  scanner

/-- Compiles the grammar of a scope; other grammars that it refers to are looked up in the same set,
and references to grammars outside the set mean nothing. -/
def compile (scope : String) (grammars : GrammarSet) (scanner : Scanner) :
    Except GrammarError Grammar :=
  match Dictionary.find? grammars scope with
  | none => .error (.missingGrammar scope)
  | some g => do
    let rules ← (Library.mk grammars ⟨scope, g⟩).compile scanner
    return ofRules scope rules.toArray scanner

def root : RuleId := 0

def ruleCount (g : Grammar) : Nat := g.rules.size

def rule? (g : Grammar) (id : RuleId) : Option Rule := g.rules[id]?

def scanSet? (g : Grammar) (id : RuleId) : Option ScanSet := g.scanSets[id]?.map Thunk.get

end Grammar

end GrammarScopes
