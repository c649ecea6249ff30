import GrammarScopes.Tokenizer.Scan

/-!
At the start of a line, every region that lasts while its pattern matches is asked whether it goes on,
the outermost first.  The first one that does not is left, with everything inside it.
-/

namespace GrammarScopes

/-- The active rules that are known to go on, and whether one has ended. -/
structure WhileState where
  scan : ScanState
  hasEnded : Bool
  deriving DecidableEq, Repr

namespace Grammar

variable (g : Grammar) (line : Line) (again : Retokenize)

def continueRegion (region : Region) (m : ScanMatch) (s : ScanState) :
    Except GrammarError ScanState := do
  let s ← emitMatch line again region.limitCaptures m (s.cover m.start)
  let s := s.withAnchor (some m.stop)
  return { s with point := s.point.advance m.stop }

def checkTop (s : ScanState) : Except GrammarError WhileState := do
  match g.rule? s.frames.top.rule with
  | some (.beginWhile region) =>
    let matcher ← g.limitMatcher s.frames.top region s.point.anchoring
    match matcher.find line s.point.pos with
    | some m => return ⟨← continueRegion line again region m s, false⟩
    | none => return ⟨s.withFrames s.frames.pop, true⟩
  | _ => return ⟨s, false⟩

/-- Asks the rules from the outermost on up to `top`. -/
def checkFrames (point : ScanPoint) (run : TokenRun) :
    Frame → List Frame → Except GrammarError WhileState
  | top, [] => g.checkTop line again ⟨⟨top, []⟩, point, run⟩
  | top, f :: below => do
    let w ← checkFrames point run f below
    if w.hasEnded then return w
    else g.checkTop line again (w.scan.withFrames (w.scan.frames.push top))

/-- The state in which a line is scanned, when it begins with the given rules active. -/
def checkWhile (frames : Frames) (isTextStart : Bool) : Except GrammarError ScanState := do
  -- The anchor moves to the start of the line if the begin match ran up to it.
  let anchor := if frames.top.beganAtEnd then some 0 else none
  let w ← g.checkFrames line again ⟨0, isTextStart, anchor⟩ (.startingAt 0) frames.top frames.below
  return w.scan

end Grammar

end GrammarScopes
