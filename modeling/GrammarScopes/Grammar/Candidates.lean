import GrammarScopes.Grammar.Rule

/-!
The rules that may start while a rule is active.  Containers are replaced by what they contain, each
once.
-/

namespace GrammarScopes

/-- The rules of `pending` in order, with containers opened; each of the containers in `opened` has
been opened before.  At most `n` rules are looked at. -/
def flatten (rules : Array Rule) : Nat → List RuleId → List RuleId → List RuleId
  | 0, _, _ => []
  | _, [], _ => []
  | n + 1, id :: pending, opened =>
    match rules[id]? with
    | some (.container patterns) =>
      if opened.contains id then flatten rules n pending opened
      else flatten rules n (patterns ++ pending) (id :: opened)
    | some _ => id :: flatten rules n pending opened
    | none => flatten rules n pending opened

/-- Enough to look at the patterns of every rule once, and at those of one rule again. -/
def flattenLimit (rules : Array Rule) : Nat :=
  2 * rules.foldl (fun n r => n + r.patterns.length) 0 + 1

/-- The rules that may start while the rule `id` is active, in order of preference. -/
def candidates (rules : Array Rule) (id : RuleId) : List RuleId :=
  flatten rules (flattenLimit rules) ((rules[id]?.map Rule.patterns).getD []) []

structure ScanSet where
  rules : List RuleId
  patterns : PatternSet

def ScanSet.ofRule (scanner : Scanner) (rules : Array Rule) (id : RuleId) : ScanSet :=
  let ids := candidates rules id
  ⟨ids, .ofSources scanner (ids.filterMap fun i => rules[i]?.bind Rule.startPattern?)⟩

end GrammarScopes
