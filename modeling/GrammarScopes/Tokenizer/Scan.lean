import GrammarScopes.Grammar.Basic
import GrammarScopes.Tokenizer.Captures

/-!
Scanning a line.  At every position the rules that may start compete with the pattern that ends the
active rule; the earliest match wins and changes the stack.
-/

namespace GrammarScopes

structure ScanPoint where
  pos : Nat
  /-- Whether the line is the first and nothing of it has been consumed. -/
  isTextStart : Bool
  /-- Where `\G` holds. -/
  anchor : Option Nat
  deriving DecidableEq, Repr

namespace ScanPoint

def anchoring (p : ScanPoint) : Anchoring := ⟨p.isTextStart, p.anchor == some p.pos⟩

/-- Moves on to the end of a match, if that lies further on. -/
def advance (p : ScanPoint) (stop : Nat) : ScanPoint :=
  if p.pos < stop then { p with pos := stop, isTextStart := false } else p

end ScanPoint

structure ScanState where
  frames : Frames
  point : ScanPoint
  run : TokenRun
  deriving DecidableEq, Repr

namespace ScanState

/-- Extends the run with the scopes of what is inside the active rule. -/
def cover (s : ScanState) (stop : Nat) : ScanState :=
  { s with run := s.run.extend stop s.frames.top.contentScopes }

def withFrames (s : ScanState) (frames : Frames) : ScanState := { s with frames := frames }

def withTop (s : ScanState) (change : Frame → Frame) : ScanState :=
  { s with frames := { s.frames with top := change s.frames.top } }

def withAnchor (s : ScanState) (anchor : Option Nat) : ScanState :=
  { s with point := { s.point with anchor := anchor } }

end ScanState

inductive Winner
  | limit (region : Region)
  | rule (id : RuleId)

inductive Progress
  | more (s : ScanState)
  | done (s : ScanState)

def orPatternError {α : Type} : Except PatternFault α → Except GrammarError α
  | .ok a => .ok a
  | .error e => .error (.invalidPattern e)

namespace Grammar

variable (g : Grammar) (line : Line)

def limitMatcher (f : Frame) (region : Region) (a : Anchoring) : Except GrammarError Matcher :=
  orPatternError (match f.limit with
    | some source => (PatternSet.ofSource g.scanner source).matcher a
    | none => region.limit.matcher a)

def ruleMatch (f : Frame) (p : ScanPoint) : Except GrammarError (Option (Winner × ScanMatch)) :=
  match g.scanSet? f.rule with
  | none => return none
  | some set =>
    if set.rules.isEmpty then return none
    else do
      let matcher ← orPatternError (set.patterns.matcher p.anchoring)
      return (matcher.find line p.pos).bind fun m =>
        set.rules[m.index]?.map fun id => (.rule id, m)

/-- The next match of the end pattern, and whether it gives way to rules that match at the same
place. -/
def endMatch (f : Frame) (p : ScanPoint) :
    Except GrammarError (Option (Winner × ScanMatch) × Bool) :=
  match g.rule? f.rule with
  | some (.beginEnd region endLast) => do
    let matcher ← g.limitMatcher f region p.anchoring
    return ((matcher.find line p.pos).map fun m => (.limit region, m), endLast)
  | _ => return (none, false)

def prefer (ruleMatch endMatch : Option (Winner × ScanMatch)) (endLast : Bool) :
    Option (Winner × ScanMatch) :=
  match ruleMatch, endMatch with
  | some r, some e =>
    if r.2.start < e.2.start || (r.2.start == e.2.start && endLast) then some r else some e
  | some r, none => some r
  | none, e => e

def nextMatch (f : Frame) (p : ScanPoint) : Except GrammarError (Option (Winner × ScanMatch)) := do
  let r ← g.ruleMatch line f p
  let (e, endLast) ← g.endMatch line f p
  return prefer r e endLast

def emitMatch (again : Retokenize) (table : CaptureTable) (m : ScanMatch) (s : ScanState) :
    Except GrammarError ScanState := do
  let run ← (CaptureContext.mk line s.frames s.point.isTextStart m.captures).emit again table s.run
  return { s with run := run }.cover m.stop

def endRegion (again : Retokenize) (region : Region) (m : ScanMatch) (s : ScanState) :
    Except GrammarError Progress := do
  -- The end match is inside the name, but no longer inside the content.
  let s := (s.cover m.start).withTop fun f => { f with contentScopes := f.nameScopes }
  let s ← emitMatch line again region.limitCaptures m s
  let closed := s.frames.top
  match s.frames.below with
  | [] => return .done (s.cover line.size)
  | f :: rest =>
    -- A region that began and ends without consuming anything stays, lest it begin again.
    if m.stop ≤ s.point.pos && closed.enterPos == some s.point.pos then
      return .done (s.cover line.size)
    else return .more ((s.withFrames ⟨f, rest⟩).withAnchor closed.anchorPos)

def startedFrame (id : RuleId) (rule : Rule) (m : ScanMatch) (s : ScanState) : Frame :=
  let name := rule.name?.map fun t => t.resolve line m.captures
  let scopes := pushScopes s.frames.top.contentScopes name
  ⟨id, some s.point.pos, s.point.anchor, m.stop == line.size, none, scopes, scopes⟩

/-- The frame of a region after its begin match. -/
def enteredFrame (region : Region) (m : ScanMatch) (f : Frame) : Frame :=
  let contentName := region.contentName.map fun t => t.resolve line m.captures
  { f with
    contentScopes := pushScopes f.nameScopes contentName
    limit :=
      if region.hasBackReferences then
        some (BackReference.resolve region.limitSource line m.captures)
      else f.limit }

def beginRegion (again : Retokenize) (region : Region) (m : ScanMatch) (s : ScanState) :
    Except GrammarError Progress := do
  let s ← emitMatch line again region.beginCaptures m s
  let s := (s.withAnchor (some m.stop)).withTop (enteredFrame line region m)
  -- A region that is entered a second time without consuming anything is left again.
  if m.stop ≤ s.point.pos && s.frames.repeatsEnclosing then
    return .done ((s.withFrames s.frames.pop).cover line.size)
  else return .more s

def startRule (again : Retokenize) (id : RuleId) (m : ScanMatch) (s : ScanState) :
    Except GrammarError Progress := do
  let s := s.cover m.start
  match g.rule? id with
  | some rule =>
    let s := s.withFrames (s.frames.push (startedFrame line id rule m s))
    match rule with
    | .beginEnd region _ | .beginWhile region => beginRegion line again region m s
    | .single _ _ captures =>
      let s ← emitMatch line again captures m s
      let s := s.withFrames s.frames.pop
      -- A match that consumes nothing ends the active rule as well.
      if m.stop ≤ s.point.pos then
        return .done ((s.withFrames s.frames.pop).cover line.size)
      else return .more s
    | .container _ => return .done ((s.withFrames s.frames.pop).cover line.size)
  | none => return .done (s.cover line.size)

def step (again : Retokenize) (s : ScanState) : Except GrammarError Progress := do
  match ← g.nextMatch line s.frames.top s.point with
  | none => return .done (s.cover line.size)
  | some (winner, m) =>
    let progress ← match winner with
      | .limit region => endRegion line again region m s
      | .rule id => g.startRule line again id m s
    match progress with
    | .more t => return .more { t with point := t.point.advance m.stop }
    | .done t => return .done t

def scan (again : Retokenize) : Nat → ScanState → Except GrammarError ScanState
  | 0, _ => .error .endless
  | n + 1, s => do
    match ← g.step line again s with
    | .more t => scan again n t
    | .done t => return t

/-- More matches than a line can have: at each position a rule is entered at most once without
consuming anything, and what is entered is left at most once. -/
def scanLimit (frames : Frames) : Nat :=
  frames.depth + (line.size + 1) * (2 * g.ruleCount + 3) + 1

def scanAll (again : Retokenize) (s : ScanState) : Except GrammarError ScanState :=
  g.scan line again (g.scanLimit line s.frames) s

/-- Tokenizes captured text, whose own captures are nested at most `n` deep. -/
def retokenize : Nat → Retokenize
  | 0, _, _, _, _ => .error .endless
  | n + 1, line, frames, start, isTextStart => do
    let s ← g.scanAll line (retokenize n)
      ⟨frames, ⟨start, isTextStart, none⟩, .startingAt start⟩
    return s.run.tokens

end Grammar

end GrammarScopes
