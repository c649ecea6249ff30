import GrammarScopes.Proofs.Grammar.ScanSets
import GrammarScopes.Proofs.Tokenizer.Matches

/-!
The competition for the next match of a line.  The patterns that start rules and the pattern that ends the active
region are searched for apart from each other; what comes out is the earliest match of all of them in one list.
-/

namespace GrammarScopes

abbrev Hit := Winner × Span × Captures

def Hit.start (h : Hit) : Nat := h.2.1.start

def Hit.ofMatch (w : Winner × ScanMatch) : Hit := (w.1, w.2.whole, w.2.groups)

theorem Scanner.compile_singleton (source : String) :
    standard.compile [source] = (compilePattern source).map fun c => matcher [c] := by
  change ([source].mapM compilePattern).bind (fun cs => .ok (matcher cs)) = _
  rw [List.mapM_cons, List.mapM_nil]
  cases compilePattern source <;> rfl

namespace Grammar

def starters (g : Grammar) (id : RuleId) : List (Winner × String) :=
  (candidates g.rules id).filterMap fun x =>
    (g.rules[x]?.bind Rule.startPattern?).map fun source => (.rule x, source)

/-- All that competes for the next match: the pattern that ends the active region comes first or last. -/
def contenders (g : Grammar) (f : Frame) : List (Winner × String) :=
  match g.rule? f.rule with
  | some (.beginEnd region endLast) =>
    if endLast then g.starters f.rule ++ [(.limit region, f.limitSource region)]
    else (.limit region, f.limitSource region) :: g.starters f.rule
  | _ => g.starters f.rule

/-- What one of them finds when nothing else is searched for. -/
def hit (g : Grammar) (line : Line) (p : ScanPoint) (c : Winner × String) : Option Hit :=
  (g.scanner.compile [p.anchoring.patternText c.2]).toOption.bind fun matcher =>
    (matcher.find line p.pos).map fun m => Hit.ofMatch (c.1, m)

/-- Each pattern compiles, and a match that begins before the place where the search starts is not listed behind one
that begins there. -/
structure Fair (g : Grammar) (line : Line) (p : ScanPoint) (cs : List (Winner × String)) : Prop where
  compiles : ∀ c ∈ cs, ∃ matcher, g.scanner.compile [p.anchoring.patternText c.2] = .ok matcher
  ahead : cs.Pairwise fun c c' => ∀ o ∈ g.hit line p c, o.start = p.pos → ∀ o' ∈ g.hit line p c', p.pos ≤ o'.start

variable {g : Grammar} {line : Line} {f : Frame} {p : ScanPoint} {cs : List (Winner × String)}

theorem Fair.sublist {cs' : List (Winner × String)} (h : g.Fair line p cs) (hsub : cs'.Sublist cs) :
    g.Fair line p cs' :=
  ⟨fun c hc => h.compiles c (hsub.subset hc), h.ahead.sublist hsub⟩

instance : Decidable (g.Fair line p cs) :=
  decidable_of_iff ((∀ c ∈ cs, (g.scanner.compile [p.anchoring.patternText c.2]).toOption.isSome = true) ∧
      cs.Pairwise fun c c' => ∀ o ∈ g.hit line p c, o.start = p.pos → ∀ o' ∈ g.hit line p c', p.pos ≤ o'.start) <| by
    constructor
    · rintro ⟨hcompiles, hahead⟩
      refine ⟨fun c hc => ?_, hahead⟩
      obtain ⟨matcher, hmatcher⟩ := Option.isSome_iff_exists.mp (hcompiles c hc)
      exact ⟨matcher, ok_of_toOption hmatcher⟩
    · intro h
      refine ⟨fun c hc => ?_, h.ahead⟩
      obtain ⟨matcher, hmatcher⟩ := h.compiles c hc
      rw [hmatcher]
      rfl

theorem map_prefer_true (r e : Option (Winner × ScanMatch)) :
    (prefer r e true).map Hit.ofMatch = earlier Hit.start (r.map Hit.ofMatch) (e.map Hit.ofMatch) := by
  cases r with
  | none => rfl
  | some r =>
    cases e with
    | none => rfl
    | some e =>
      simp only [prefer, Bool.and_true]
      rcases Nat.lt_or_ge e.2.start r.2.start with hlt | hle
      · rw [if_neg (by simp; omega)]
        exact (earlier_of_lt (a := Hit.ofMatch r) (b := Hit.ofMatch e) hlt).symm
      · rw [if_pos (by simp; omega)]
        exact (earlier_of_le (a := Hit.ofMatch r) (b := Hit.ofMatch e) hle).symm

theorem map_prefer_false (r e : Option (Winner × ScanMatch)) :
    (prefer r e false).map Hit.ofMatch = earlier Hit.start (e.map Hit.ofMatch) (r.map Hit.ofMatch) := by
  cases r with
  | none => exact (earlier_none_right _ _).symm
  | some r =>
    cases e with
    | none => rfl
    | some e =>
      simp only [prefer, Bool.and_false, Bool.or_false]
      rcases Nat.lt_or_ge r.2.start e.2.start with hlt | hle
      · rw [if_pos (by simpa using hlt)]
        exact (earlier_of_lt (a := Hit.ofMatch e) (b := Hit.ofMatch r) hlt).symm
      · rw [if_neg (by simpa using hle)]
        exact (earlier_of_le (a := Hit.ofMatch e) (b := Hit.ofMatch r) hle).symm

theorem starters_eq (g : Grammar) (id : RuleId) :
    g.starters id = (candidates g.rules id).map fun x => (.rule x, ScanSet.startText g.rules x) := by
  rw [← List.filterMap_eq_map]
  refine List.filterMap_congr fun x hx => ?_
  rw [ScanSet.startPattern_eq (candidates_plain x hx)]
  rfl

theorem map_starters (g : Grammar) (id : RuleId) (text : String → String) :
    (g.starters id).map (fun c => text c.2) = (g.startPatterns id).map text := by
  rw [starters, startPatterns, List.map_filterMap, List.map_filterMap]
  simp only [Option.map_map]
  rfl

section

variable (hscanner : g.scanner = .standard)

include hscanner

theorem hit_eq (c : Winner × String) : g.hit line p c =
    (Scanner.findAlone line p.pos (Scanner.compilePattern (p.anchoring.patternText c.2))).map
      fun m => (c.1, m.whole, m.groups) := by
  rw [hit, hscanner, Scanner.compile_singleton, Scanner.findAlone]
  cases Scanner.compilePattern (p.anchoring.patternText c.2) <;> rfl

theorem find_hits (hfair : g.Fair line p cs) :
    ∃ matcher, g.scanner.compile (cs.map fun c => p.anchoring.patternText c.2) = .ok matcher ∧
      (matcher.find line p.pos).bind (fun m => cs[m.index]?.map fun c => Hit.ofMatch (c.1, m)) =
        firstOf Hit.start (cs.map (g.hit line p)) := by
  have hcompiles : ∀ c ∈ cs, ∃ compiled, Scanner.compilePattern (p.anchoring.patternText c.2) = .ok compiled := by
    intro c hc
    obtain ⟨matcher, hmatcher⟩ := hfair.compiles c hc
    rw [hscanner, Scanner.compile_singleton] at hmatcher
    cases hcompiled : Scanner.compilePattern (p.anchoring.patternText c.2) with
    | error e =>
      rw [hcompiled] at hmatcher
      cases hmatcher
    | ok compiled => exact ⟨compiled, rfl⟩
  obtain ⟨patterns, hpatterns⟩ := exists_ok_mapM hcompiles
  have hhit : ∀ c : Winner × String, ∀ m ∈ Scanner.findAlone line p.pos
      (Scanner.compilePattern (p.anchoring.patternText c.2)), g.hit line p c = some (c.1, m.whole, m.groups) := by
    intro c m hm
    rw [hit_eq hscanner, Option.mem_def.mp hm]
    rfl
  have hahead := hfair.ahead.imp fun {c c'} h m hm hstart m' hm' => h _ (hhit c m hm) hstart _ (hhit c' m' hm')
  refine ⟨Scanner.matcher patterns, ?_, ?_⟩
  · rw [hscanner]
    change ((cs.map fun c => p.anchoring.patternText c.2).mapM Scanner.compilePattern).bind
      (fun ps => .ok (Scanner.matcher ps)) = _
    rw [List.mapM_map]
    exact congrArg (Except.bind · _) hpatterns
  · have hfirst := Scanner.find_eq_firstOf Prod.fst hpatterns hahead
    simp only [← hit_eq hscanner] at hfirst
    exact hfirst

end

theorem ruleMatch_hits {scope : String} {grammars : GrammarSet} (h : compile scope grammars .standard = .ok g)
    (hfair : g.Fair line p (g.starters f.rule)) :
    ∃ r, g.ruleMatch line f p = .ok r ∧
      r.map Hit.ofMatch = firstOf Hit.start ((g.starters f.rule).map (g.hit line p)) := by
  have hg := compile_wellFormed h
  by_cases hrules : candidates g.rules f.rule = []
  · refine ⟨none, ?_, by rw [starters, hrules]; rfl⟩
    unfold ruleMatch
    cases hset : g.scanSet? f.rule with
    | none => rfl
    | some set =>
      obtain rfl := hg.scanSet?_eq hset
      simp [ScanSet.ofRule, hrules, pure, Except.pure]
  · have hid : f.rule < g.ruleCount := by
      refine Nat.lt_of_not_le fun hle => hrules ?_
      rw [candidates, Array.getElem?_eq_none hle]
      rfl
    obtain ⟨set, hset⟩ := exists_scanSet h hid
    obtain ⟨matcher, hmatcher, hfind⟩ := find_hits (compile_scanner h) hfair
    rw [map_starters] at hmatcher
    rw [ruleMatch_eq hg hset hrules, hmatcher]
    refine ⟨_, rfl, ?_⟩
    rw [← hfind, Option.map_bind]
    congr 1
    funext m
    rw [starters_eq, List.getElem?_map, Function.comp_apply, Option.map_map, Option.map_map]
    rfl

theorem endMatch_hit (hg : g.WellFormed) {region : Region} {endLast : Bool}
    (hrule : g.rule? f.rule = some (.beginEnd region endLast))
    (hfair : g.Fair line p [(.limit region, f.limitSource region)]) :
    ∃ e, g.endMatch line f p = .ok (e, endLast) ∧
      e.map Hit.ofMatch = g.hit line p (.limit region, f.limitSource region) := by
  obtain ⟨matcher, hmatcher⟩ := hfair.compiles _ List.mem_cons_self
  unfold endMatch
  rw [hrule]
  dsimp only
  rw [limitMatcher_eq hg hrule rfl, hmatcher]
  refine ⟨_, rfl, ?_⟩
  rw [hit, hmatcher, Option.map_map]
  rfl

section

variable {region : Region}

theorem contenders_of_last (hrule : g.rule? f.rule = some (.beginEnd region true)) :
    g.contenders f = g.starters f.rule ++ [(.limit region, f.limitSource region)] := by
  rw [contenders, hrule]
  rfl

theorem contenders_of_first (hrule : g.rule? f.rule = some (.beginEnd region false)) :
    g.contenders f = (.limit region, f.limitSource region) :: g.starters f.rule := by
  rw [contenders, hrule]
  rfl

end

section

variable (hother : ∀ region endLast, g.rule? f.rule ≠ some (.beginEnd region endLast))

include hother

theorem contenders_of_other : g.contenders f = g.starters f.rule := by
  unfold contenders
  split
  next region endLast hrule => exact absurd hrule (hother region endLast)
  next => rfl

theorem endMatch_of_other : g.endMatch line f p = .ok (none, false) := by
  unfold endMatch
  split
  next region endLast hrule => exact absurd hrule (hother region endLast)
  next => rfl

end

theorem nextMatch_hits {scope : String} {grammars : GrammarSet} (h : compile scope grammars .standard = .ok g)
    (hfair : g.Fair line p (g.contenders f)) :
    ∃ r, g.nextMatch line f p = .ok r ∧
      r.map Hit.ofMatch = firstOf Hit.start ((g.contenders f).map (g.hit line p)) := by
  have hg := compile_wellFormed h
  by_cases hregion : ∃ region endLast, g.rule? f.rule = some (.beginEnd region endLast)
  · obtain ⟨region, endLast, hrule⟩ := hregion
    cases endLast with
    | true =>
      rw [contenders_of_last hrule] at hfair ⊢
      obtain ⟨r, hr, hrhits⟩ := ruleMatch_hits h (hfair.sublist (List.sublist_append_left _ _))
      obtain ⟨e, he, hehit⟩ := endMatch_hit hg hrule (hfair.sublist (List.sublist_append_right _ _))
      refine ⟨prefer r e true, by rw [nextMatch, hr, he]; rfl, ?_⟩
      rw [map_prefer_true, hrhits, hehit, List.map_append, firstOf_append, List.map_singleton, firstOf_singleton]
    | false =>
      rw [contenders_of_first hrule] at hfair ⊢
      obtain ⟨r, hr, hrhits⟩ := ruleMatch_hits h (hfair.sublist (List.sublist_cons_self _ _))
      have hlimit := hfair.sublist (List.singleton_sublist.mpr List.mem_cons_self)
      obtain ⟨e, he, hehit⟩ := endMatch_hit hg hrule hlimit
      refine ⟨prefer r e false, by rw [nextMatch, hr, he]; rfl, ?_⟩
      rw [map_prefer_false, hrhits, hehit, List.map_cons, firstOf_cons]
  · have hother : ∀ region endLast, g.rule? f.rule ≠ some (.beginEnd region endLast) :=
      fun region endLast hrule => hregion ⟨region, endLast, hrule⟩
    rw [contenders_of_other hother] at hfair ⊢
    obtain ⟨r, hr, hrhits⟩ := ruleMatch_hits h hfair
    refine ⟨prefer r none false, by rw [nextMatch, hr, endMatch_of_other hother]; rfl, ?_⟩
    rw [map_prefer_false, ← hrhits]
    rfl

/-- What comes out of the two searches is what one search for all contenders finds: the match that begins first, and of
those that begin at the same place that of the first contender. -/
theorem nextMatch_competes {scope : String} {grammars : GrammarSet} (h : compile scope grammars .standard = .ok g)
    (hfair : g.Fair line p (g.contenders f)) :
    ∃ r all, g.nextMatch line f p = .ok r ∧
      g.scanner.compile ((g.contenders f).map fun c => p.anchoring.patternText c.2) = .ok all ∧
      r.map Hit.ofMatch =
        (all.find line p.pos).bind (fun m => (g.contenders f)[m.index]?.map fun c => Hit.ofMatch (c.1, m)) ∧
      Earliest Hit.start ((g.contenders f).map (g.hit line p)) (r.map Hit.ofMatch) := by
  obtain ⟨r, hr, hhits⟩ := nextMatch_hits h hfair
  obtain ⟨all, hall, hfind⟩ := find_hits (compile_scanner h) hfair
  exact ⟨r, all, hr, hall, hhits.trans hfind.symm, hhits ▸ firstOf_earliest _ _⟩

def doubledEnd : GrammarDescription where
  scopeName := "s"
  patterns := [{
    beginPattern := some "(x|y)"
    endPattern := some "\\1"
    applyEndPatternLast := some (.bool true)
    patterns := some [{ pattern := some "xx" }] }]

theorem nextMatch_competes_doubled :
    let line := Line.ofText "xaxxx"
    let p : ScanPoint := ⟨1, false, some 1⟩
    let f : Frame := ⟨1, some 0, none, false, some "x", ["s"], ["s"]⟩
    ∃ g, compile "s" [("s", doubledEnd)] .standard = .ok g ∧ g.Fair line p (g.contenders f) ∧
      ∃ r, g.nextMatch line f p = .ok r ∧ r.map (·.2.whole) = some ⟨2, 4⟩ ∧
        Earliest Hit.start ((g.contenders f).map (g.hit line p)) (r.map Hit.ofMatch) := by
  intro line p f
  obtain ⟨g, hg, hfair, hwhole⟩ : ∃ g, compile "s" [("s", doubledEnd)] .standard = .ok g ∧
      g.Fair line p (g.contenders f) ∧
      (g.nextMatch line f p).toOption.map (·.map (·.2.whole)) = some (some ⟨2, 4⟩) :=
    ⟨_, rfl, by decide +kernel, by decide +kernel⟩
  obtain ⟨r, -, hr, -, -, hearliest⟩ := nextMatch_competes hg hfair
  rw [hr] at hwhole
  exact ⟨g, hg, hfair, r, hr, Option.some_inj.mp hwhole, hearliest⟩

def keptLetter : GrammarDescription where
  scopeName := "s"
  patterns := [{ pattern := some "a" }, { pattern := some "b" }, { pattern := some "(?<=\\Ka)[bc]" }]

/-- A search is over with a match that begins where it starts, although another one begins earlier. -/
theorem nextMatch_passes_kept :
    let line := Line.ofText "ab"
    let p : ScanPoint := ⟨1, false, none⟩
    let f : Frame := .root root "s"
    ∃ g r, compile "s" [("s", keptLetter)] .standard = .ok g ∧
      (∀ c ∈ g.contenders f, ∃ matcher, g.scanner.compile [p.anchoring.patternText c.2] = .ok matcher) ∧
      g.nextMatch line f p = .ok r ∧
      ¬ Earliest Hit.start ((g.contenders f).map (g.hit line p)) (r.map Hit.ofMatch) := by
  intro line p f
  obtain ⟨g, hg, hcompiles, hnext, hhits⟩ : ∃ g, compile "s" [("s", keptLetter)] .standard = .ok g ∧
      (∀ c ∈ g.contenders f, (g.scanner.compile [p.anchoring.patternText c.2]).toOption.isSome = true) ∧
      (g.nextMatch line f p).toOption.map (·.map fun w => (Hit.ofMatch w).start) = some (some 1) ∧
      ((g.contenders f).map (g.hit line p)).map (·.map Hit.start) = [none, some 1, some 0] :=
    ⟨_, rfl, by decide +kernel, by decide +kernel, by decide +kernel⟩
  obtain ⟨r, hr, hstart⟩ := Option.map_eq_some_iff.mp hnext
  obtain ⟨w, rfl, hw⟩ := Option.map_eq_some_iff.mp hstart
  have hzero : some 0 ∈ ((g.contenders f).map (g.hit line p)).map (·.map Hit.start) := by simp [hhits]
  obtain ⟨_, ho, hbegins⟩ := List.mem_map.mp hzero
  obtain ⟨o, rfl, hbegins⟩ := Option.map_eq_some_iff.mp hbegins
  refine ⟨g, some w, hg, fun c hc => ?_, ok_of_toOption hr, fun h => ?_⟩
  · obtain ⟨matcher, hmatcher⟩ := Option.isSome_iff_exists.mp (hcompiles c hc)
    exact ⟨matcher, ok_of_toOption hmatcher⟩
  · have hle := h.le ho
    omega

end Grammar

end GrammarScopes
