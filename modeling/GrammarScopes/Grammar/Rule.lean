import GrammarScopes.Grammar.BackReference
import GrammarScopes.Grammar.PatternSet

/-!
Compiled rules.  Rules refer to each other by number.
-/

namespace GrammarScopes

abbrev RuleId := Nat

structure CaptureRule where
  name : Option ScopeTemplate
  contentName : Option ScopeTemplate
  retokenize : Option RuleId

/-- The rules for groups, by number; of several for one group the last counts. -/
abbrev CaptureTable := List (Nat × CaptureRule)

def CaptureTable.rule? (table : CaptureTable) (group : Nat) : Option CaptureRule :=
  (table.reverse.find? (·.1 == group)).map (·.2)

structure Region where
  name : Option ScopeTemplate
  contentName : Option ScopeTemplate
  beginPattern : String
  beginCaptures : CaptureTable
  /-- The pattern that ends the region, or lets it go on. -/
  limit : PatternSet
  limitSource : String
  /-- Whether that pattern refers to what the begin pattern captured. -/
  hasBackReferences : Bool
  limitCaptures : CaptureTable
  patterns : List RuleId

inductive Rule
  /-- Only groups other rules; is never active itself. -/
  | container (patterns : List RuleId)
  | single (name : Option ScopeTemplate) (pattern : String) (captures : CaptureTable)
  /-- A region that lasts until its end pattern matches; with `endLast` the end pattern gives way
  to rules that match at the same place. -/
  | beginEnd (region : Region) (endLast : Bool)
  /-- A region that lasts while its pattern matches on every further line. -/
  | beginWhile (region : Region)

namespace Rule

def patterns : Rule → List RuleId
  | container patterns => patterns
  | single .. => []
  | beginEnd region _ | beginWhile region => region.patterns

def startPattern? : Rule → Option String
  | container _ => none
  | single _ pattern _ => some pattern
  | beginEnd region _ | beginWhile region => some region.beginPattern

def name? : Rule → Option ScopeTemplate
  | container _ => none
  | single name _ _ => name
  | beginEnd region _ | beginWhile region => region.name

def isContainer : Rule → Bool
  | container _ => true
  | _ => false

end Rule

end GrammarScopes
