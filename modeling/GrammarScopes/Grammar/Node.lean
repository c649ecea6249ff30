import GrammarScopes.Description.Reference
import GrammarScopes.Dictionary
import GrammarScopes.Text.Number

/-!
What becomes a compiled rule: a whole grammar, or a rule at the place where it is written.  The nodes
that a node leads to are found by following references.
-/

namespace GrammarScopes

abbrev GrammarSet := List (String × GrammarDescription)

inductive RuleList
  | captures
  | beginCaptures
  | endCaptures
  | whileCaptures
  | repository
  deriving DecidableEq, Repr

/-- A step from a rule, or from a grammar, to a rule written in it. -/
inductive Place
  | pattern (index : Nat)
  | entry (list : RuleList) (key : String)
  deriving DecidableEq, Repr

/-- Where a rule is written: in which grammar, and by which steps, the last one first. -/
structure Site where
  grammar : String
  steps : List Place
  deriving DecidableEq, Repr

def Site.within (s : Site) (p : Place) : Site := { s with steps := p :: s.steps }

structure NamedGrammar where
  key : String
  grammar : GrammarDescription

def NamedGrammar.site (g : NamedGrammar) : Site := ⟨g.key, []⟩

structure Repository where
  owner : Site
  rules : RuleTable

def NamedGrammar.repository (g : NamedGrammar) : Repository := ⟨g.site, g.grammar.repository⟩

/-- What references can reach from a rule: the grammar that contains it, and the repositories
around it, the innermost first. -/
structure Surroundings where
  grammar : NamedGrammar
  repositories : List Repository

def NamedGrammar.surroundings (g : NamedGrammar) : Surroundings := ⟨g, [g.repository]⟩

inductive Node
  | grammar (g : NamedGrammar)
  | rule (site : Site) (rule : RuleDescription) (surroundings : Surroundings)

/-- What tells nodes apart: grammars by the scope they declare, rules by where they are written. -/
inductive Origin
  | grammar (scopeName : String)
  | rule (site : Site)
  deriving DecidableEq, Repr

def Node.origin : Node → Origin
  | grammar g => .grammar g.grammar.scopeName
  | rule site _ _ => .rule site

structure Library where
  grammars : GrammarSet
  base : NamedGrammar

namespace Library

variable (l : Library)

def grammar? (scope : String) : Option NamedGrammar :=
  (Dictionary.find? l.grammars scope).map fun g => ⟨scope, g⟩

def named? (key : String) (r : Repository) (s : Surroundings) : Option Node :=
  (Dictionary.find? r.rules key).map fun rule =>
    .rule (r.owner.within (.entry .repository key)) rule s

def target? (s : Surroundings) : Reference → Option Node
  | .named key => s.repositories.findSome? fun r => named? key r s
  | .self => some (.grammar s.grammar)
  | .base => some (.grammar l.base)
  | .grammar scope => (l.grammar? scope).map .grammar
  | .ruleOf scope key => (l.grammar? scope).bind fun g => named? key g.repository g.surroundings

def patternNode? (site : Site) (s : Surroundings) (index : Nat) (r : RuleDescription) :
    Option Node :=
  match r.reference with
  | some text => l.target? s (.parse text)
  | none => some (.rule (site.within (.pattern index)) r s)

def patternNodes (site : Site) (s : Surroundings) (rules : List RuleDescription) : List Node :=
  rules.zipIdx.filterMap fun (r, i) => l.patternNode? site s i r

end Library

structure CaptureEntry where
  group : Nat
  site : Site
  rule : RuleDescription

def captureEntries (site : Site) (list : RuleList) (rules : RuleTable) : List CaptureEntry :=
  rules.filterMap fun (key, r) =>
    (Text.word? key.toList).map fun group => ⟨group, site.within (.entry list key), r⟩

/-- The node with which a captured text is tokenized again. -/
def CaptureEntry.node? (e : CaptureEntry) (s : Surroundings) : Option Node :=
  if e.rule.patterns.isSome then some (.rule e.site e.rule s) else none

inductive Shape
  | single (pattern : String)
  | beginWhile (beginPattern whilePattern : String)
  | beginEnd (beginPattern endPattern : String)
  | container

def RuleDescription.shape (r : RuleDescription) : Shape :=
  match r.pattern, r.beginPattern, r.whilePattern with
  | some p, _, _ => .single p
  | none, some b, some w => .beginWhile b w
  -- Without an end pattern the end is a character that is not expected in any text.
  | none, some b, none => .beginEnd b (r.endPattern.getD "\uffff")
  | none, none, _ => .container

namespace RuleDescription

/-- The named list, or the general one if there is none. -/
def captureList (r : RuleDescription) (site : Site) (list : RuleList)
    (rules : Option RuleTable) : List CaptureEntry :=
  match rules, r.captures with
  | some rules, _ => captureEntries site list rules
  | none, some rules => captureEntries site .captures rules
  | none, none => []

def beginEntries (r : RuleDescription) (site : Site) : List CaptureEntry :=
  r.captureList site .beginCaptures r.beginCaptures

def endEntries (r : RuleDescription) (site : Site) : List CaptureEntry :=
  r.captureList site .endCaptures r.endCaptures

def whileEntries (r : RuleDescription) (site : Site) : List CaptureEntry :=
  r.captureList site .whileCaptures r.whileCaptures

def ownEntries (r : RuleDescription) (site : Site) : List CaptureEntry :=
  r.captureList site .captures none

def inside (r : RuleDescription) (site : Site) (s : Surroundings) : Surroundings :=
  match r.repository with
  | some rules => { s with repositories := ⟨site, rules⟩ :: s.repositories }
  | none => s

/-- The capture entries of a rule, in the order in which they are compiled. -/
def entries (r : RuleDescription) (site : Site) : List CaptureEntry :=
  match r.shape with
  | .single _ => r.ownEntries site
  | .beginWhile .. => r.beginEntries site ++ r.whileEntries site
  | .beginEnd .. => r.beginEntries site ++ r.endEntries site
  | .container => []

end RuleDescription

def Node.captured : Node → List Node
  | grammar _ => []
  | rule site r s => (r.entries site).filterMap (·.node? (r.inside site s))

namespace Library

variable (l : Library)

def inner (site : Site) (r : RuleDescription) (s : Surroundings) : List Node :=
  match r.shape, r.patterns with
  | .single _, _ => []
  | _, some rules => l.patternNodes site s rules
  -- A rule of a repository or of a capture list may be no more than a reference.
  | .container, none => (r.reference.bind fun text => l.target? s (.parse text)).toList
  | _, none => []

def patterns : Node → List Node
  | .grammar g => l.patternNodes g.site g.surroundings g.grammar.patterns
  | .rule site r s => l.inner site r (r.inside site s)

/-- The nodes that a node leads to, in the order in which they are compiled. -/
def children (n : Node) : List Node := l.patterns n ++ n.captured

end Library

end GrammarScopes
