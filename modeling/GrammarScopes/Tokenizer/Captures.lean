import GrammarScopes.Error
import GrammarScopes.Tokenizer.Stack
import GrammarScopes.Tokenizer.TokenRun

/-!
The tokens for the groups of a match.  A group inside another one has the scopes of both.
-/

namespace GrammarScopes

/-- Tokenizes a stretch of a line: the line up to the end of the stretch, the rules active, the start,
and whether the text begins there. -/
abbrev Retokenize := Line → Frames → Nat → Bool → Except GrammarError (List ByteToken)

structure OpenGroup where
  scopes : List String
  stop : Nat
  deriving DecidableEq, Repr

/-- The run so far and the groups that are open, the innermost first. -/
structure CaptureState where
  run : TokenRun
  groups : List OpenGroup
  deriving DecidableEq, Repr

namespace CaptureState

def closeUpTo (pos : Nat) : List OpenGroup → TokenRun → CaptureState
  | [], run => ⟨run, []⟩
  | g :: rest, run =>
    if g.stop ≤ pos then closeUpTo pos rest (run.extend g.stop g.scopes) else ⟨run, g :: rest⟩

def closeAll (s : CaptureState) : TokenRun :=
  s.groups.foldl (fun run g => run.extend g.stop g.scopes) s.run

def scopes (s : CaptureState) (outer : List String) : List String :=
  match s.groups with
  | g :: _ => g.scopes
  | [] => outer

end CaptureState

structure CaptureContext where
  line : Line
  frames : Frames
  /-- Whether the line is the first and nothing of it has been consumed. -/
  isTextStart : Bool
  captures : Captures

namespace CaptureContext

variable (c : CaptureContext)

def name (t : Option ScopeTemplate) : Option String := t.map fun t => t.resolve c.line c.captures

/-- The frame in which a captured text is tokenized. -/
def frame (rule : RuleId) (start : Nat) (nameScopes contentScopes : List String) : Frame :=
  ⟨rule, some start, none, false, none, nameScopes, contentScopes⟩

def retokenize (again : Retokenize) (rule : CaptureRule) (id : RuleId) (span : Span)
    (base : List String) : Except GrammarError (List ByteToken) :=
  let nameScopes := pushScopes base (c.name rule.name)
  let contentScopes := pushScopes nameScopes (c.name rule.contentName)
  -- Nothing that is matched inside the group reaches beyond its end.
  let line := (c.line.upTo? span.stop).getD c.line
  again line (c.frames.push (frame id span.start nameScopes contentScopes)) span.start
    (c.isTextStart && span.start == 0)

def step (again : Retokenize) (s : CaptureState) (rule : CaptureRule) (span : Span) :
    Except GrammarError CaptureState := do
  let s := CaptureState.closeUpTo span.start s.groups s.run
  let base := s.scopes c.frames.top.contentScopes
  let run := s.run.extend span.start base
  match rule.retokenize with
  -- A text that is tokenized again has its tokens at once, and so opens no group.
  | some id =>
    let tokens ← c.retokenize again rule id span base
    return { s with run := tokens.foldl (fun run t => run.extend t.stop t.scopes) run }
  | none =>
    match c.name rule.name with
    | some name => return ⟨run, ⟨pushScopes base (some name), span.stop⟩ :: s.groups⟩
    | none => return { s with run := run }

/-- The groups with a rule that matched some text, in order. -/
def groups (table : CaptureTable) : List (CaptureRule × Span) :=
  c.captures.zipIdx.filterMap fun (span, group) => do
    let rule ← table.rule? group
    let span ← span
    if span.start = span.stop then none else some (rule, span)

def emit (again : Retokenize) (table : CaptureTable) (run : TokenRun) :
    Except GrammarError TokenRun := do
  let s ← (c.groups table).foldlM (fun s g => c.step again s g.1 g.2) ⟨run, []⟩
  return s.closeAll

end CaptureContext

end GrammarScopes
