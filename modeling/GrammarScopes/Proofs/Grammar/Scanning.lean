import GrammarScopes.Line
import GrammarScopes.Grammar.PatternSet
import GrammarScopes.Proofs.Line.Boundary

/-!
What tokenizing relies on in a scanner: whatever a match reports lies in the searched line and begins
and ends between characters.  The scanner of this library is such a scanner.
-/

namespace GrammarScopes

/-- Places of lines that include the end, and those of what a line is cut short to. -/
structure Places (P : Line → Nat → Prop) : Prop where
  size : ∀ line, P line line.size
  of_upTo? : ∀ {line p : Line} {stop b : Nat}, line.upTo? stop = some p → P p b → P line b

theorem isBoundary_places : Places Line.IsBoundary := ⟨Line.isBoundary_size, Line.IsBoundary.of_upTo?⟩

theorem true_places : Places fun _ _ => True := ⟨fun _ => trivial, fun _ _ => trivial⟩

theorem Anchoring.apply_of_hasAnchor_eq_false (a : Anchoring) {cs : List Char}
    (h : hasAnchor cs = false) : a.apply cs = cs := by
  fun_induction hasAnchor cs with
  | case1 c cs ih =>
    simp only [Bool.or_eq_false_iff] at h
    obtain ⟨⟨hA, hG⟩, hcs⟩ := h
    have hforbids : a.forbids c = false := by simp [Anchoring.forbids, hA, hG]
    simp [Anchoring.apply, hforbids, ih hcs]
  | case2 c cs hpair ih =>
    rw [Anchoring.apply.eq_2 _ _ _ hpair, ih h]
  | case3 => rfl

theorem Anchoring.patternText_of_hasAnchor_eq_false (a : Anchoring) {s : String}
    (h : hasAnchor s.toList = false) : a.patternText s = s := by
  rw [patternText, a.apply_of_hasAnchor_eq_false h, String.ofList_toList]

/-- The whole match and all groups begin and end at such places. -/
def ScanMatch.Within (m : ScanMatch) (P : Nat → Prop) : Prop :=
  ∀ span, some span ∈ m.captures → P span.start ∧ P span.stop

def Matcher.FindsIn (P : Line → Nat → Prop) (m : Matcher) : Prop :=
  ∀ line pos r, m.find line pos = some r → r.Within (P line)

def Scanner.FindsIn (P : Line → Nat → Prop) (s : Scanner) : Prop :=
  ∀ sources m, s.compile sources = .ok m → m.FindsIn P

/-- Whatever is reported lies inside the searched text and on character boundaries. -/
def Scanner.Sound (s : Scanner) : Prop := s.FindsIn Line.IsBoundary

theorem ScanMatch.Within.start {m : ScanMatch} {P : Nat → Prop} (h : m.Within P) : P m.start :=
  (h m.whole (by simp [captures])).1

theorem ScanMatch.Within.stop {m : ScanMatch} {P : Nat → Prop} (h : m.Within P) : P m.stop :=
  (h m.whole (by simp [captures])).2

namespace Scanner

theorem toMatch_within {line : Line} {f : Found} {m : ScanMatch} (h : toMatch line f = some m) :
    m.Within line.IsBoundary := by
  unfold toMatch at h
  dsimp only at h
  split at h
  next whole groups hs =>
    cases h
    intro span hspan
    rw [ScanMatch.captures, ← hs] at hspan
    obtain ⟨s, -, hs⟩ := List.mem_map.mp hspan
    obtain ⟨p, -, rfl⟩ := Option.map_eq_some_iff.mp hs
    exact ⟨line.isBoundary_offset _, line.isBoundary_offset _⟩
  next => cases h

theorem matcher_sound (patterns : List Pattern.Compiled) : (matcher patterns).FindsIn Line.IsBoundary := by
  intro line pos m h
  simp only [matcher, Option.bind_eq_bind, Option.bind_eq_some_iff] at h
  obtain ⟨p, -, f, -, hm⟩ := h
  exact toMatch_within hm

theorem standard_sound : standard.Sound := by
  intro sources m h
  change (sources.mapM compilePattern).bind (fun ps => .ok (matcher ps)) = .ok m at h
  cases hs : sources.mapM compilePattern with
  | error e => rw [hs] at h; cases h
  | ok patterns =>
    rw [hs] at h
    cases h
    exact matcher_sound patterns

theorem findsIn_true (s : Scanner) : s.FindsIn fun _ _ => True :=
  fun _ _ _ _ _ _ _ _ _ => ⟨trivial, trivial⟩

end Scanner

namespace PatternSet

/-- Patterns without anchors share one matcher, which is the one that any place would give. -/
theorem ofSources_matcher (scanner : Scanner) (sources : List String) (a : Anchoring) :
    (ofSources scanner sources).matcher a = scanner.compile (sources.map a.patternText) := by
  unfold ofSources
  split
  next =>
    obtain ⟨t, s⟩ := a
    cases t <;> cases s <;> rfl
  next h =>
    have hplain : sources.map a.patternText = sources := by
      simp only [List.any_eq_true, not_exists, not_and, Bool.not_eq_true] at h
      refine (List.map_congr_left fun s hs => ?_).trans sources.map_id
      exact a.patternText_of_hasAnchor_eq_false (h s hs)
    rw [hplain]
    obtain ⟨t, s⟩ := a
    cases t <;> cases s <;> rfl

end PatternSet

end GrammarScopes
