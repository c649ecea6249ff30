import GrammarScopes.Proofs.Except
import GrammarScopes.Proofs.Grammar.Compiled
import GrammarScopes.Proofs.Grammar.Scanning
import GrammarScopes.Tokenizer.Scan

/-!
Where the next match of a line comes from: from the patterns of the rules that may start, or from the
pattern that limits the active region.
-/

namespace GrammarScopes

def Frame.limitSource (f : Frame) (region : Region) : String := f.limit.getD region.limitSource

theorem orPatternError_eq_ok {α : Type} {x : Except PatternFault α} {a : α} :
    orPatternError x = .ok a ↔ x = .ok a := by
  cases x <;> simp [orPatternError]

theorem orPatternError_ne_endless {α : Type} (x : Except PatternFault α) :
    orPatternError x ≠ .error .endless := by
  cases x <;> simp [orPatternError]

namespace Grammar

def startPatterns (g : Grammar) (id : RuleId) : List String :=
  (candidates g.rules id).filterMap fun i => g.rules[i]?.bind Rule.startPattern?

/-- The match that a search with these patterns finds. -/
def Finds (g : Grammar) (line : Line) (p : ScanPoint) (patterns : List String) (m : ScanMatch) :
    Prop :=
  ∃ matcher, g.scanner.compile (patterns.map p.anchoring.patternText) = .ok matcher ∧
    matcher.find line p.pos = some m

variable {g : Grammar} {line : Line} {f : Frame} {p : ScanPoint}

theorem Finds.within {P : Line → Nat → Prop} {patterns : List String} {m : ScanMatch}
    (h : g.Finds line p patterns m) (hscanner : g.scanner.FindsIn P) : m.Within (P line) := by
  obtain ⟨matcher, hcompile, hfind⟩ := h
  exact hscanner _ matcher hcompile line p.pos m hfind

theorem prefer_eq {r e : Option (Winner × ScanMatch)} {endLast : Bool} {w : Winner × ScanMatch}
    (h : prefer r e endLast = some w) : r = some w ∨ e = some w := by
  unfold prefer at h
  split at h
  · split at h
    · exact .inl h
    · exact .inr h
  · exact .inl h
  · exact .inr h

section

variable (hg : g.WellFormed)

include hg

theorem limitMatcher_eq {rule : Rule} {region : Region} (hrule : g.rule? f.rule = some rule)
    (hregion : rule.region? = some region) (a : Anchoring) :
    g.limitMatcher f region a =
      orPatternError (g.scanner.compile [a.patternText (f.limitSource region)]) := by
  unfold limitMatcher Frame.limitSource
  rw [hg.limit_eq hrule hregion]
  cases f.limit <;> simp [PatternSet.ofSource, PatternSet.ofSources_matcher]

theorem ruleMatch_eq {set : ScanSet} (hset : g.scanSet? f.rule = some set)
    (hrules : candidates g.rules f.rule ≠ []) :
    g.ruleMatch line f p =
      (orPatternError (g.scanner.compile ((g.startPatterns f.rule).map p.anchoring.patternText))).map
        fun matcher => (matcher.find line p.pos).bind fun m =>
          (candidates g.rules f.rule)[m.index]?.map fun id => (.rule id, m) := by
  unfold ruleMatch
  rw [hset]
  obtain rfl := hg.scanSet?_eq hset
  have hne : (ScanSet.ofRule g.scanner g.rules f.rule).rules.isEmpty = false := by
    simpa [ScanSet.ofRule] using hrules
  simp only [hne, Bool.false_eq_true, ↓reduceIte]
  have hmatcher : (ScanSet.ofRule g.scanner g.rules f.rule).patterns.matcher p.anchoring =
      g.scanner.compile ((g.startPatterns f.rule).map p.anchoring.patternText) := by
    simp only [ScanSet.ofRule, PatternSet.ofSources_matcher, startPatterns]
  rw [hmatcher]
  cases g.scanner.compile ((g.startPatterns f.rule).map p.anchoring.patternText) <;> rfl

theorem ruleMatch_eq_ok {w : Winner} {m : ScanMatch} (h : g.ruleMatch line f p = .ok (some (w, m))) :
    ∃ id ∈ candidates g.rules f.rule, w = .rule id ∧ g.Finds line p (g.startPatterns f.rule) m := by
  cases hset : g.scanSet? f.rule with
  | none => simp [ruleMatch, hset, pure, Except.pure] at h
  | some set =>
    by_cases hrules : candidates g.rules f.rule = []
    · obtain rfl := hg.scanSet?_eq hset
      simp [ruleMatch, hset, ScanSet.ofRule, hrules, pure, Except.pure] at h
    · rw [ruleMatch_eq hg hset hrules] at h
      cases hmatcher : orPatternError
          (g.scanner.compile ((g.startPatterns f.rule).map p.anchoring.patternText)) with
      | error e => rw [hmatcher] at h; cases h
      | ok matcher =>
        simp only [hmatcher, Except.map, Except.ok.injEq, Option.bind_eq_some_iff,
          Option.map_eq_some_iff, Prod.mk.injEq] at h
        obtain ⟨m', hfind, id, hid, rfl, rfl⟩ := h
        exact ⟨id, List.mem_of_getElem? hid, rfl, matcher, orPatternError_eq_ok.mp hmatcher, hfind⟩

theorem endMatch_eq_ok {w : Winner} {m : ScanMatch} {endLast : Bool}
    (h : g.endMatch line f p = .ok (some (w, m), endLast)) :
    ∃ region, w = .limit region ∧ g.rule? f.rule = some (.beginEnd region endLast) ∧
      g.Finds line p [f.limitSource region] m := by
  unfold endMatch at h
  split at h
  next region last hrule =>
    rw [limitMatcher_eq hg hrule rfl] at h
    obtain ⟨matcher, hmatcher, h⟩ := bind_eq_ok.mp h
    simp only [pure, Except.pure, Except.ok.injEq, Prod.mk.injEq, Option.map_eq_some_iff] at h
    obtain ⟨⟨m', hfind, rfl, rfl⟩, rfl⟩ := h
    exact ⟨region, rfl, hrule, matcher, orPatternError_eq_ok.mp hmatcher, hfind⟩
  next => cases h

/-- A match starts a rule that may start, or it ends the region that is active. -/
theorem nextMatch_eq_ok {w : Winner} {m : ScanMatch}
    (h : g.nextMatch line f p = .ok (some (w, m))) :
    (∃ id ∈ candidates g.rules f.rule, w = .rule id ∧
        g.Finds line p (g.startPatterns f.rule) m) ∨
      ∃ region endLast, w = .limit region ∧ g.rule? f.rule = some (.beginEnd region endLast) ∧
        g.Finds line p [f.limitSource region] m := by
  obtain ⟨r, hr, h⟩ := bind_eq_ok.mp h
  obtain ⟨⟨e, endLast⟩, he, h⟩ := bind_eq_ok.mp h
  simp only [pure, Except.pure, Except.ok.injEq] at h
  rcases prefer_eq h with rfl | rfl
  · exact .inl (ruleMatch_eq_ok hg hr)
  · obtain ⟨region, hw, hrule, hfinds⟩ := endMatch_eq_ok hg he
    exact .inr ⟨region, endLast, hw, hrule, hfinds⟩

theorem nextMatch_finds {w : Winner} {m : ScanMatch}
    (h : g.nextMatch line f p = .ok (some (w, m))) : ∃ patterns, g.Finds line p patterns m := by
  rcases nextMatch_eq_ok hg h with ⟨_, _, _, hfinds⟩ | ⟨_, _, _, _, hfinds⟩
  · exact ⟨_, hfinds⟩
  · exact ⟨_, hfinds⟩

theorem nextMatch_limit {region : Region} {m : ScanMatch}
    (h : g.nextMatch line f p = .ok (some (.limit region, m))) :
    ∃ endLast, g.rule? f.rule = some (.beginEnd region endLast) := by
  rcases nextMatch_eq_ok hg h with ⟨_, _, hw, _⟩ | ⟨_, endLast, hw, hrule, _⟩
  · cases hw
  · cases hw
    exact ⟨endLast, hrule⟩

end

end Grammar

end GrammarScopes
