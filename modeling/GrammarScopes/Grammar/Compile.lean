import GrammarScopes.Description.Size
import GrammarScopes.Error
import GrammarScopes.Grammar.Node
import GrammarScopes.Grammar.Rule

/-!
Compiling a grammar: the nodes that the base grammar leads to are listed, each once, and every one
becomes a rule, numbered by its place in the list.
-/

namespace GrammarScopes

namespace Library

variable (l : Library)

/-- The nodes that `pending` leads to, after those already `found` (the latest first): a node is
followed by what it leads to before the next one is looked at.  At most `n` nodes are looked at. -/
def reach : Nat → List Node → List Node → List Node
  | 0, _, found => found
  | _, [], found => found
  | n + 1, node :: pending, found =>
    if found.any (·.origin == node.origin) then reach n pending found
    else reach n (l.children node ++ pending) (node :: found)

def nodeCount : Nat :=
  l.grammars.foldl (fun n g => n + g.2.ruleCount + 1) (l.base.grammar.ruleCount + 1)

/-- Enough to look at every node that any node leads to. -/
def reachLimit : Nat := (l.nodeCount + 1) * (2 * l.nodeCount + 2)

def nodes : List Node := (l.reach l.reachLimit [.grammar l.base] []).reverse

end Library

def number? (nodes : List Node) (o : Origin) : Option RuleId :=
  nodes.findIdx? (·.origin == o)

/-- The number of groups that a capture list can tell apart: their rules have to fit in memory. -/
def groupLimit : Nat := (Nat.pow 2 63 - 1) / 72

namespace CaptureEntry

def toRule (nodes : List Node) (e : CaptureEntry) : CaptureRule where
  name := e.rule.name.map .ofText
  contentName := e.rule.contentName.map .ofText
  retokenize := if e.rule.patterns.isSome then number? nodes (.rule e.site) else none

def toTable (nodes : List Node) (entries : List CaptureEntry) : CaptureTable :=
  entries.map fun e => (e.group, e.toRule nodes)

end CaptureEntry

namespace Library

variable (l : Library) (scanner : Scanner) (nodes : List Node)

def region (r : RuleDescription) (site : Site) (beginPattern limit : String)
    (limitEntries : List CaptureEntry) (patterns : List RuleId) : Region where
  name := r.name.map .ofText
  contentName := r.contentName.map .ofText
  beginPattern := beginPattern
  beginCaptures := CaptureEntry.toTable nodes (r.beginEntries site)
  limit := .ofSource scanner limit
  limitSource := limit
  hasBackReferences := BackReference.occursIn limit
  limitCaptures := CaptureEntry.toTable nodes limitEntries
  patterns := patterns

def rule (n : Node) : Rule :=
  let patterns := (l.patterns n).filterMap fun m => number? nodes m.origin
  match n with
  | .grammar _ => .container patterns
  | .rule site r _ =>
    match r.shape with
    | .single p => .single (r.name.map .ofText) p (CaptureEntry.toTable nodes (r.ownEntries site))
    | .beginWhile b w =>
      .beginWhile (region scanner nodes r site b w (r.whileEntries site) patterns)
    | .beginEnd b e =>
      .beginEnd (region scanner nodes r site b e (r.endEntries site) patterns)
        (r.applyEndPatternLast.any Switch.isSet)
    | .container => .container patterns

def oversizedGroup? : Node → Option Nat
  | .grammar _ => none
  | .rule site r _ => ((r.entries site).find? fun e => e.group ≥ groupLimit).map (·.group)

/-- The compiled rules; the base grammar is the first. -/
def compile : Except GrammarError (List Rule) :=
  let nodes := l.nodes
  match nodes.findSome? oversizedGroup? with
  | some group => .error (.groupTooLarge group)
  | none => .ok (nodes.map (l.rule scanner nodes))

end Library

end GrammarScopes
