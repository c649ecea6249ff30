/-!
What a grammar file says, before its references are followed.  Named rules and capture rules are
kept in the order of their names.
-/

namespace GrammarScopes

inductive Switch
  | bool (b : Bool)
  | number (n : Int)
  deriving DecidableEq, Repr

/-- Any number but zero switches on. -/
def Switch.isSet : Switch → Bool
  | bool b => b
  | number n => n != 0

structure RuleDescription where
  reference : Option String := none
  name : Option String := none
  contentName : Option String := none
  pattern : Option String := none
  /-- The rules for groups, by group number. -/
  captures : Option (List (String × RuleDescription)) := none
  beginPattern : Option String := none
  beginCaptures : Option (List (String × RuleDescription)) := none
  endPattern : Option String := none
  endCaptures : Option (List (String × RuleDescription)) := none
  whilePattern : Option String := none
  whileCaptures : Option (List (String × RuleDescription)) := none
  patterns : Option (List RuleDescription) := none
  repository : Option (List (String × RuleDescription)) := none
  applyEndPatternLast : Option Switch := none
  deriving Repr, Inhabited

abbrev RuleTable := List (String × RuleDescription)

structure GrammarDescription where
  scopeName : String
  name : Option String := none
  fileTypes : List String := []
  patterns : List RuleDescription := []
  repository : RuleTable := []
  deriving Repr, Inhabited

end GrammarScopes
