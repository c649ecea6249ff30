import GrammarScopes.Proofs.Pattern.Plain
import GrammarScopes.Proofs.Tokenizer.Enclosed

/-!
Tokenizing in a form that is quick to evaluate, where no pattern has anchors: the patterns are compiled from
their characters, and each line takes few matches.
-/

namespace GrammarScopes

namespace Grammar

variable {g : Grammar} {line : Line} {again : Retokenize}

def evalRuleMatch? (g : Grammar) (line : Line) (f : Frame) (p : ScanPoint) :
    Option (Option (Winner × ScanMatch)) :=
  if (g.scanSet? f.rule).isNone || (candidates g.rules f.rule).isEmpty then some none
  else
    (Scanner.plainMatcher? (g.startPatterns f.rule)).map fun matcher =>
      (matcher.find line p.pos).bind fun m =>
        (candidates g.rules f.rule)[m.index]?.map fun id => (.rule id, m)

def evalEndMatch? (g : Grammar) (line : Line) (f : Frame) (p : ScanPoint) :
    Option (Option (Winner × ScanMatch) × Bool) :=
  match g.rule? f.rule with
  | some (.beginEnd region endLast) =>
    (Scanner.plainMatcher? [f.limitSource region]).map fun matcher =>
      ((matcher.find line p.pos).map fun m => (.limit region, m), endLast)
  | _ => some (none, false)

def evalStep? (g : Grammar) (line : Line) (again : Retokenize) (s : ScanState) : Option Progress := do
  let r ← g.evalRuleMatch? line s.frames.top s.point
  let (e, endLast) ← g.evalEndMatch? line s.frames.top s.point
  match prefer r e endLast with
  | none => return .done (s.cover line.size)
  | some (winner, m) =>
    let progress ← (match winner with
      | .limit region => endRegion line again region m s
      | .rule id => g.startRule line again id m s).toOption
    return Progress.moved m progress

def evalScan? (g : Grammar) (line : Line) (again : Retokenize) : Nat → ScanState → Option ScanState
  | 0, _ => none
  | n + 1, s => do
    match ← g.evalStep? line again s with
    | .more t => evalScan? g line again n t
    | .done t => return t

/-- The rules that are active after a line, if that takes at most eight matches and no active rule asks for
more on every line. -/
def evalLine? (g : Grammar) (text : String) (stack : RuleStack) : Option Frames := do
  let fs := g.startFrames stack
  if fs.toList.any fun f => (g.rule? f.rule) matches some (.beginWhile _) then none
  else
    let s : ScanState :=
      ⟨fs, ⟨0, stack.isInitial, if fs.top.beganAtEnd then some 0 else none⟩, .startingAt 0⟩
    let t ← g.evalScan? (.ofText text) (g.retokenize nestingLimit) 8 s
    return t.frames

section

variable (hg : g.WellFormed) (hscanner : g.scanner = .standard)

include hg hscanner

theorem ruleMatch_of_eval {f : Frame} {p : ScanPoint} {x : Option (Winner × ScanMatch)}
    (h : g.evalRuleMatch? line f p = some x) : g.ruleMatch line f p = .ok x := by
  unfold evalRuleMatch? at h
  split at h
  next hnone =>
    cases h
    cases hset : g.scanSet? f.rule with
    | none => rw [ruleMatch, hset]; rfl
    | some set =>
      have hnone : candidates g.rules f.rule = [] := by simpa [hset] using hnone
      obtain rfl := hg.scanSet?_eq hset
      simp [ruleMatch, hset, ScanSet.ofRule, hnone, pure, Except.pure]
  next hsome =>
    obtain ⟨set, hset⟩ : ∃ set, g.scanSet? f.rule = some set := by
      cases hset : g.scanSet? f.rule <;> simp [hset] at hsome ⊢
    have hne : candidates g.rules f.rule ≠ [] := by simpa [hset] using hsome
    obtain ⟨matcher, hmatcher, rfl⟩ := Option.map_eq_some_iff.mp h
    obtain ⟨patterns, hpatterns, rfl⟩ := Option.map_eq_some_iff.mp hmatcher
    rw [ruleMatch_eq hg hset hne, hscanner, Scanner.compile_plain hpatterns]
    rfl

theorem endMatch_of_eval {f : Frame} {p : ScanPoint} {x : Option (Winner × ScanMatch) × Bool}
    (h : g.evalEndMatch? line f p = some x) : g.endMatch line f p = .ok x := by
  unfold evalEndMatch? at h
  split at h
  next region endLast hrule =>
    obtain ⟨matcher, hmatcher, rfl⟩ := Option.map_eq_some_iff.mp h
    obtain ⟨patterns, hpatterns, rfl⟩ := Option.map_eq_some_iff.mp hmatcher
    rw [endMatch, hrule]
    dsimp only
    rw [limitMatcher_eq hg hrule rfl, hscanner, ← List.map_singleton, Scanner.compile_plain hpatterns]
    rfl
  next hnot =>
    cases h
    unfold endMatch
    split
    next region endLast hrule => exact absurd hrule (hnot region endLast)
    next => rfl

theorem step_of_eval {s : ScanState} {p : Progress} (h : g.evalStep? line again s = some p) :
    g.step line again s = .ok p := by
  obtain ⟨r, hr, h⟩ := Option.bind_eq_some_iff.mp h
  obtain ⟨⟨e, endLast⟩, he, h⟩ := Option.bind_eq_some_iff.mp h
  have hnext : g.nextMatch line s.frames.top s.point = .ok (prefer r e endLast) := by
    rw [nextMatch, ruleMatch_of_eval hg hscanner hr, endMatch_of_eval hg hscanner he]
    rfl
  unfold step
  rw [hnext]
  dsimp only at h
  split at h
  next hnone =>
    cases h
    rw [hnone]
    rfl
  next winner m hsome =>
    obtain ⟨progress, hprogress, h⟩ := Option.bind_eq_some_iff.mp h
    cases h
    have hprogress := ok_of_toOption hprogress
    rw [hsome]
    cases winner with
    | limit region =>
      simp only [bind, Except.bind, hprogress]
      cases progress <;> rfl
    | rule id =>
      simp only [bind, Except.bind, hprogress]
      cases progress <;> rfl

theorem scans_of_eval {n : Nat} {s t : ScanState} (h : g.evalScan? line again n s = some t) :
    g.Scans line again s (.ok t) := by
  induction n generalizing s with
  | zero => cases h
  | succ n ih =>
    obtain ⟨p, hp, h⟩ := Option.bind_eq_some_iff.mp h
    have hstep := step_of_eval hg hscanner hp
    cases p with
    | more u => exact .more hstep (ih h)
    | done u =>
      cases h
      exact .done hstep

theorem tokenizeLine_of_eval {text : String} {stack : RuleStack} {fs : Frames}
    (h : g.evalLine? text stack = some fs) :
    ∃ tokens, g.tokenizeLine text stack = .ok ⟨tokens, .active fs⟩ := by
  have hends : g.scanner.EndsInLine := hscanner ▸ Scanner.standard_sound.endsInLine
  unfold evalLine? at h
  dsimp only at h
  split at h
  next => cases h
  next hwhile =>
    obtain ⟨t, ht, h⟩ := Option.bind_eq_some_iff.mp h
    cases h
    have hwhile : ∀ f ∈ (g.startFrames stack).toList, g.NotWhile f.rule := by
      intro f hf region hrule
      refine hwhile (List.any_eq_true.mpr ⟨f, hf, ?_⟩)
      rw [hrule]
    have hcheck : g.checkWhile (.ofText text) (g.retokenize nestingLimit) (g.startFrames stack)
        stack.isInitial = _ := checkWhile_eq hwhile _
    exact ⟨_, tokenizeNested_of_scans hg hends hcheck (scans_of_eval hg hscanner ht)⟩

end

end Grammar

end GrammarScopes
