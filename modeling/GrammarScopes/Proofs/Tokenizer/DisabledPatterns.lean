import GrammarScopes.Proofs.Pattern.LiteralText
import GrammarScopes.Proofs.Pattern.TracksTree
import GrammarScopes.Proofs.Tokenizer.Searches

/-!
Patterns that are to match nothing.  A region without an end pattern is given the stand-in for one, and so is every
anchor that does not hold where a search begins.  In a line in which the stand-in does not occur nothing that requires
it matches.
-/

namespace GrammarScopes

open Pattern

theorem Line.never_not_mem_ofText {text : String} (h : neverChar ∉ text.toList) :
    neverChar ∉ (Line.ofText text).chars.toList := by
  have hbreak : neverChar ≠ '\n' := by decide
  simpa [ofText, ofChars, hbreak] using h

theorem compile_never : Pattern.compile "\uffff" = .ok (literal [neverChar]) := compile_escape [neverChar]

theorem Library.limitSource_of_rule {l : Library} {scanner : Scanner} {nodes : List GrammarScopes.Node} {site : Site}
    {r : RuleDescription} {s : Surroundings} {region : Region} {endLast : Bool}
    (h : l.rule scanner nodes (.rule site r s) = .beginEnd region endLast) :
    region.limitSource = r.endPattern.getD "\uffff" := by
  unfold Library.rule RuleDescription.shape at h
  dsimp only at h
  cases hmatch : r.pattern <;> cases hbegin : r.beginPattern <;> cases hwhile : r.whilePattern
  all_goals
    simp only [hmatch, hbegin, hwhile] at h
    cases h
  rfl

namespace Grammar

variable {g : Grammar} {line l : Line} {stack : RuleStack} {fs : Frames} {p : ScanPoint} {patterns : List String}
  {m : ScanMatch}

theorem Finds.exists_matchAt (hscanner : g.scanner = .standard) (h : g.Finds line p patterns m) :
    ∃ source c start q att, patterns[m.index]? = some source ∧
      Pattern.compile (p.anchoring.patternText source) = .ok c ∧ line.index? p.pos = some start ∧ start ≤ q ∧
      c.matchAt ⟨line.chars, start⟩ q = some att ∧
      m.captures = (Compiled.spans q att).map (·.map fun s => ⟨line.offset s.1, line.offset s.2⟩) := by
  obtain ⟨matcher, hcompile, hfind⟩ := h
  rw [hscanner] at hcompile
  obtain ⟨cs, hcs, hmatcher⟩ := bind_eq_ok.mp hcompile
  cases hmatcher
  obtain ⟨c, hc, start, q, att, hstart, hlow, -, hatt, hcaptures⟩ := Scanner.find_eq_some hfind
  have hsource := getElem?_mapM hcs m.index
  rw [hc, List.getElem?_map] at hsource
  obtain ⟨text, htext, hcompiled⟩ := Option.map_eq_some_iff.mp hsource
  obtain ⟨source, hsource, rfl⟩ := Option.map_eq_some_iff.mp htext
  refine ⟨source, c, start, q, att, hsource, ?_, hstart, hlow, hatt, hcaptures⟩
  unfold Scanner.compilePattern at hcompiled
  split at hcompiled
  next c' hc' =>
    cases hcompiled
    exact hc'
  next => cases hcompiled

theorem not_finds_never (hscanner : g.scanner = .standard) (hline : neverChar ∉ line.chars.toList) :
    ¬ g.Finds line p ["\uffff"] m := by
  intro h
  obtain ⟨source, c, start, q, att, hsource, hc, -, -, hatt, -⟩ := h.exists_matchAt hscanner
  obtain rfl := List.mem_singleton.mp (List.mem_of_getElem? hsource)
  have htext : p.anchoring.patternText "\uffff" = "\uffff" := p.anchoring.patternText_of_hasAnchor_eq_false rfl
  rw [htext, compile_never] at hc
  cases hc
  have hnone : (literal [neverChar]).matchAt ⟨line.chars, start⟩ q = none :=
    Compiled.run_of_requires (n := 0) _ hline rfl _ _ _
  cases hnone.symm.trans hatt

theorem not_limit_of_no_end {scope : String} {grammars : GrammarSet} (hg : compile scope grammars .standard = .ok g)
    {f : Frame} (hplain : g.Plain f) (hline : neverChar ∉ line.chars.toList) : ∃ l : Library, l.grammars = grammars ∧
      l.grammar? scope = some l.base ∧ g.ruleCount = l.nodes.length ∧
      ∀ site r s, l.nodes[f.rule]? = some (.rule site r s) → r.endPattern = none →
        ∀ region m, g.nextMatch line f p ≠ .ok (some (.limit region, m)) := by
  obtain ⟨l, hgrammars, hbase, hcount, hrules⟩ := compile_nodes hg
  refine ⟨l, hgrammars, hbase, hcount, ?_⟩
  intro site r s hnode hend region m h
  rcases nextMatch_eq_ok (compile_wellFormed hg) h with ⟨_, _, hw, _⟩ | ⟨region', endLast, hw, hrule, hfinds⟩
  · cases hw
  · cases hw
    have hcompiled := hrule
    rw [hrules, hnode] at hcompiled
    have hsource : region.limitSource = "\uffff" := by
      rw [Library.limitSource_of_rule (Option.some.inj hcompiled), hend]
      rfl
    have hlimit : f.limit = none := hplain _ region hrule rfl (by rw [hsource]; decide)
    rw [Frame.limitSource, hlimit, Option.getD_none, hsource] at hfinds
    exact not_finds_never (compile_scanner hg) hline hfinds

/-- Wherever something in the one tree requires an anchor that does not hold, what stands for it in the other matches
nowhere in the line, whatever is to follow it. -/
def DisabledIn (line : Line) (a : Anchoring) (b c : Compiled) : Prop :=
  ∀ n n' calls, StandsFor a n n' → n.requires a.forbidsNode (b.requiresCall a.forbidsNode calls) = true →
    ∀ start depth s k, n'.run ⟨line.chars, start⟩ (c.enter ⟨line.chars, start⟩ depth) s k = none

theorem holds_of_run {t : Subject} {call : GroupRef → Step} {x : Assertion} {s r : Attempt} {k : Goal}
    (h : (Pattern.Node.assertion true x).run t call s k = some r) : t.holds s.pos x = true := by
  unfold Pattern.Node.run at h
  split at h
  next hholds => simpa using hholds
  next => cases h

theorem disabledIn_of_becomes {a : Anchoring} {b c : Compiled} (hline : neverChar ∉ line.chars.toList)
    (h : b.Becomes a c) : DisabledIn line a b c :=
  fun _ _ _ hn hrequires _ => c.run_of_requires hline (hn.requires (fun _ => h.requiresCall) hrequires)

/-- The searches that are made in a line without the stand-in.  No match ends a region that has no end pattern.  `\A`
is kept only at the start of the first line, and then matches only there, and `\G` only at the anchor, where the search
begins.  What matches is a tree in which everything that requires another anchor matches nothing. -/
theorem disabled_never_match {scope : String} {grammars : GrammarSet} (hg : compile scope grammars .standard = .ok g)
    (hstack : g.Reachable stack) {text : String} (htext : neverChar ∉ text.toList)
    (h : g.Searches (.ofText text) stack line fs p) :
    (∃ l : Library, l.grammars = grammars ∧ l.grammar? scope = some l.base ∧ g.ruleCount = l.nodes.length ∧
      ∀ site r s, l.nodes[fs.top.rule]? = some (.rule site r s) → r.endPattern = none →
        ∀ region m, g.nextMatch line fs.top p ≠ .ok (some (.limit region, m))) ∧
    (p.anchoring.textStart = true → stack = .initial ∧ p.pos = 0) ∧
    (p.anchoring.searchStart = true ↔ p.anchor = some p.pos) ∧
    (∀ start call s k x, (Pattern.Node.assertion true .textStart).run ⟨line.chars, start⟩ call s k = some x →
      s.pos = 0) ∧
    (∀ start call s k x, (Pattern.Node.assertion true .searchStart).run ⟨line.chars, start⟩ call s k = some x →
      s.pos = start) ∧
    ∀ patterns m, g.Finds line p patterns m → ∃ source c start q att, patterns[m.index]? = some source ∧
      Pattern.compile (p.anchoring.patternText source) = .ok c ∧ line.index? p.pos = some start ∧ start ≤ q ∧
      c.matchAt ⟨line.chars, start⟩ q = some att ∧
      m.captures = (Compiled.spans q att).map (·.map fun s => ⟨line.offset s.1, line.offset s.2⟩) ∧
      ∀ b, Pattern.compile source = .ok b → StandsFor p.anchoring b.root c.root ∧ DisabledIn line p.anchoring b c ∧
        ∀ calls, b.root.requires p.anchoring.forbidsNode (b.requiresCall p.anchoring.forbidsNode calls) = false := by
  have hwell := compile_wellFormed hg
  have hline : neverChar ∉ line.chars.toList := fun hmem => Line.never_not_mem_ofText htext (h.mem hmem)
  have hplain := h.plain hwell (hstack.ready hwell) fs.top List.mem_cons_self
  refine ⟨not_limit_of_no_end hg hplain hline, h.atStart hwell, beq_iff_eq, ?_, ?_, ?_⟩
  · intro start call s k x hx
    simpa [Subject.holds] using holds_of_run hx
  · intro start call s k x hx
    simpa [Subject.holds] using holds_of_run hx
  · intro patterns m hm
    obtain ⟨source, c, start, q, att, hsource, hc, hstart, hlow, hatt, hcaptures⟩ :=
      hm.exists_matchAt (compile_scanner hg)
    refine ⟨source, c, start, q, att, hsource, hc, hstart, hlow, hatt, hcaptures, fun b hb => ?_⟩
    have hbecomes := compile_becomes hb hc
    have hdisabled := disabledIn_of_becomes hline hbecomes
    have hstands := hbecomes.root.standsFor
    refine ⟨hstands, hdisabled, fun calls => Bool.eq_false_iff.mpr fun hrequires => ?_⟩
    cases (hdisabled _ _ calls hstands hrequires start _ _ some).symm.trans hatt

def openGrammar (patterns : Option (List RuleDescription)) : GrammarDescription where
  scopeName := "s"
  patterns := [{ beginPattern := some "a", name := some "n", patterns := patterns }]

def insideOpen : Frames := ⟨⟨1, some 0, none, false, none, ["s", "n"], ["s", "n"]⟩, [.root 0 "s"]⟩

theorem disabled_never_match_open :
    ∃ g b c, compile "s" [("s", openGrammar (some [{ pattern := some "\\Ax|b" }]))] .standard = .ok g ∧
      g.Searches (.ofText "ab") .initial (.ofText "ab") insideOpen ⟨1, false, some 1⟩ ∧
      (∀ region m, g.nextMatch (.ofText "ab") insideOpen.top ⟨1, false, some 1⟩ ≠ .ok (some (.limit region, m))) ∧
      g.Finds (.ofText "ab") ⟨1, false, some 1⟩ ["\\Ax|b"] ⟨0, ⟨1, 2⟩, []⟩ ∧
      Pattern.compile "\\Ax|b" = .ok b ∧ Pattern.compile "\uffffx|b" = .ok c ∧
      DisabledIn (.ofText "ab") ⟨false, true⟩ b c := by
  let grammars : GrammarSet := [("s", openGrammar (some [{ pattern := some "\\Ax|b" }]))]
  let line := Line.ofText "ab"
  let s : ScanState := ⟨⟨.root 0 "s", []⟩, ⟨0, true, none⟩, .startingAt 0⟩
  let t : ScanState := ⟨insideOpen, ⟨1, false, some 1⟩, ⟨[⟨0, 1, ["s", "n"]⟩], 1⟩⟩
  obtain ⟨g, hg, hcheck, hstep⟩ : ∃ g, compile "s" grammars .standard = .ok g ∧
      (g.checkWhile line (g.retokenize nestingLimit) (g.startFrames .initial) true).toOption = some s ∧
      (g.step line (g.retokenize nestingLimit) s).toOption = some (.more t) := by
    refine ⟨_, rfl, ?_, ?_⟩ <;> decide +kernel
  have hsearches : g.Searches line .initial line t.frames t.point :=
    .followed (.scanned (ok_of_toOption hcheck)) (ok_of_toOption hstep)
  obtain ⟨⟨l, hgrammars, hbase, -, hopen⟩, -, -, -, -, hfinds⟩ :=
    disabled_never_match hg .initial (by decide) hsearches
  obtain rfl : l = ⟨grammars, ⟨"s", openGrammar (some [{ pattern := some "\\Ax|b" }])⟩⟩ := by
    obtain ⟨_, base⟩ := l
    obtain rfl : _ = grammars := hgrammars
    exact congrArg _ (Option.some.inj hbase).symm
  have hfound : g.Finds line t.point ["\\Ax|b"] ⟨0, ⟨1, 2⟩, []⟩ := by
    have hfind : (Scanner.standard.compile (["\\Ax|b"].map t.point.anchoring.patternText)).toOption.bind
        (fun matcher => matcher.find line t.point.pos) = some ⟨0, ⟨1, 2⟩, []⟩ := by decide +kernel
    obtain ⟨matcher, hcompile, hfind⟩ := Option.bind_eq_some_iff.mp hfind
    exact ⟨matcher, compile_scanner hg ▸ ok_of_toOption hcompile, hfind⟩
  obtain ⟨source, c, -, -, -, hsource, hc, -, -, -, -, htree⟩ := hfinds _ _ hfound
  cases hsource
  obtain ⟨b, hb⟩ : ∃ b, (Pattern.compile "\\Ax|b").toOption = some b :=
    Option.isSome_iff_exists.mp (by decide +kernel)
  have hb := ok_of_toOption hb
  exact ⟨g, b, c, hg, hsearches, hopen _ _ _ rfl rfl, hfound, hb, hc, (htree b hb).2.1⟩

/-- A line that has the stand-in ends the region. -/
theorem openRegion_ended_by_never :
    ∃ g r, compile "s" [("s", openGrammar none)] .standard = .ok g ∧
      g.tokenizeLine "a\uffffb" .initial = .ok r ∧
      r.tokens = [⟨0, 1, ["s", "n"]⟩, ⟨1, 2, ["s", "n"]⟩, ⟨2, 3, ["s"]⟩] ∧ r.stack.scopes = ["s"] := by
  let r : LineTokens := ⟨[⟨0, 1, ["s", "n"]⟩, ⟨1, 2, ["s", "n"]⟩, ⟨2, 3, ["s"]⟩], .active ⟨.root 0 "s", []⟩⟩
  obtain ⟨g, hg, hr⟩ : ∃ g, compile "s" [("s", openGrammar none)] .standard = .ok g ∧
      (g.tokenizeLine "a\uffffb" .initial).toOption = some r := by
    refine ⟨_, rfl, ?_⟩
    decide +kernel
  exact ⟨g, r, hg, ok_of_toOption hr, rfl, rfl⟩

end Grammar

end GrammarScopes
