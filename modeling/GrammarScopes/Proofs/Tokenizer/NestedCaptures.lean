import GrammarScopes.Proofs.Pattern.Plain
import GrammarScopes.Proofs.Tokenizer.Termination
import GrammarScopes.Tokenizer.Basic
import Mathlib.Logic.Relation

/-!
When tokenizing captured texts again comes to an end.  A rule can lead to itself through its captures;
then its captured text has to be shorter every time.
-/

namespace GrammarScopes

theorem Line.size_upTo_le (l : Line) (stop : Nat) : ((l.upTo? stop).getD l).size ≤ l.size := by
  cases hp : l.upTo? stop with
  | none => exact Nat.le_refl _
  | some p => exact size_of_upTo? hp ▸ Nat.min_le_right _ _

namespace Grammar

open Relation (ReflTransGen)

/-- One rule may start inside another one, or is used for what that one captures. -/
inductive Leads (g : Grammar) (a b : RuleId) : Prop
  | starts : b ∈ candidates g.rules a → Leads g a b
  | recaptures {group : Nat} : g.Recaptures a group b → Leads g a b

/-- What the group captures is always shorter than what is left of the line. -/
def Shortens (g : Grammar) (a : RuleId) (group : Nat) : Prop :=
  ∀ line f p w m span, g.nextMatch line f p = .ok (some (w, m)) → w.owner f = a →
    m.captures[group]? = some (some span) → span.stop - span.start < line.size - p.pos

def NeverEnds (g : Grammar) (id : RuleId) : Prop :=
  ∀ region endLast, g.rule? id ≠ some (.beginEnd region endLast)

variable {g : Grammar} {line : Line} {again : Retokenize} {r a b : RuleId}

/-- A scan of captured text never leaves the rule that it began with. -/
structure Inside (g : Grammar) (r : RuleId) (start : Nat) (s : ScanState) : Prop where
  pos : start ≤ s.point.pos
  frames : ∃ above f outer, s.frames.toList = above ++ f :: outer ∧ f.rule = r ∧
    ∀ f ∈ above, ReflTransGen g.Leads r f.rule

theorem Inside.top {start : Nat} {s : ScanState} (h : g.Inside r start s) :
    ReflTransGen g.Leads r s.frames.top.rule := by
  obtain ⟨above, f, outer, hframes, hf, habove⟩ := h.frames
  cases above with
  | nil =>
    obtain ⟨rfl, -⟩ := List.cons_eq_cons.mp hframes
    exact hf ▸ .refl
  | cons f' above =>
    obtain ⟨rfl, -⟩ := List.cons_eq_cons.mp hframes
    exact habove _ List.mem_cons_self

theorem step_inside (hg : g.WellFormed) (hr : g.NeverEnds r) {start : Nat} {s t : ScanState}
    (hs : g.Inside r start s) (h : g.step line again s = .ok (.more t)) : g.Inside r start t := by
  have htop := hs.top
  obtain ⟨hpos, above, f, outer, hframes, hf, habove⟩ := hs
  cases step_outcome h with
  | @left region m u f' below hnext hu hbelow hkeep =>
    refine ⟨by rw [ScanPoint.advance_pos]; exact Nat.le_trans hpos (Nat.le_max_left _ _), ?_⟩
    obtain ⟨endLast, hrule⟩ := nextMatch_limit hg hnext
    cases above with
    | nil =>
      obtain ⟨rfl, -⟩ := List.cons_eq_cons.mp hframes
      exact absurd (hf ▸ hrule) (hr _ _)
    | cons f' above =>
      obtain ⟨-, hrest⟩ := List.cons_eq_cons.mp hframes
      exact ⟨above, f, outer, hbelow.symm.trans hrest, hf, (List.forall_mem_cons.mp habove).2⟩
  | @entered id rule region m u hnext hrule hregion hu hnew =>
    refine ⟨by rw [ScanPoint.advance_pos]; exact Nat.le_trans hpos (Nat.le_max_left _ _), ?_⟩
    have hid : id ∈ candidates g.rules s.frames.top.rule := by
      rcases nextMatch_eq_ok hg hnext with ⟨id', hmem, hw, -⟩ | ⟨_, _, hw, -⟩
      · cases hw
        exact hmem
      · cases hw
    let entered := enteredFrame line region m (startedFrame line id rule m s)
    have hentered : ReflTransGen g.Leads r entered.rule := htop.tail (.starts hid)
    exact ⟨entered :: above, f, outer, congrArg (entered :: ·) hframes, hf,
      List.forall_mem_cons.mpr ⟨hentered, habove⟩⟩
  | single hnext hrule hu hadvance =>
    refine ⟨by rw [ScanPoint.advance_pos]; exact Nat.le_trans hpos (Nat.le_max_left _ _), ?_⟩
    exact ⟨above, f, outer, hframes, hf, habove⟩

open Classical in
noncomputable def ledTo (g : Grammar) (r : RuleId) : Finset RuleId :=
  {b ∈ Finset.range g.ruleCount | ReflTransGen g.Leads r b}

theorem mem_ledTo : b ∈ g.ledTo r ↔ b < g.ruleCount ∧ ReflTransGen g.Leads r b := by
  simp [ledTo]

/-- A bound for how deep captures can be nested in a text of a given length. -/
noncomputable def nesting (g : Grammar) (size : Nat) (r : RuleId) (length : Nat) : Nat :=
  (g.ledTo r).card * (size + 1) + length

theorem nesting_lt_of_length_le {size length : Nat} (h : length ≤ size) :
    g.nesting size r length < (g.ruleCount + 1) * (size + 1) := by
  have hsub : g.ledTo r ⊆ Finset.range g.ruleCount :=
    fun b hb => Finset.mem_range.mpr (mem_ledTo.mp hb).1
  have hcard := Finset.card_le_card hsub
  rw [Finset.card_range] at hcard
  have hmul := Nat.mul_le_mul_right (size + 1) hcard
  unfold nesting
  rw [Nat.add_mul]
  omega

/-- Captured text is less deep than the text around it: it leads to fewer rules, or it is shorter. -/
theorem nesting_lt {group size length length' : Nat} (hr : ReflTransGen g.Leads r a)
    (hab : g.Recaptures a group b) (hle : length' ≤ size)
    (hcycle : ReflTransGen g.Leads b a → length' < length) :
    g.nesting size b length' < g.nesting size r length := by
  have hlead : ReflTransGen g.Leads r b := hr.tail (.recaptures hab)
  have hsub : g.ledTo b ⊆ g.ledTo r := by
    intro c hc
    obtain ⟨hlt, hbc⟩ := mem_ledTo.mp hc
    exact mem_ledTo.mpr ⟨hlt, hlead.trans hbc⟩
  unfold nesting
  by_cases hba : ReflTransGen g.Leads b a
  -- a rule that leads back shortens the text; one that does not is not led to any more
  · have hmul := Nat.mul_le_mul_right (size + 1) (Finset.card_le_card hsub)
    have := hcycle hba
    omega
  · obtain ⟨rule, hrule, -⟩ := hab
    have ha : a < g.ruleCount := (Array.getElem?_eq_some_iff.mp hrule).1
    have hlt : (g.ledTo b).card < (g.ledTo r).card := by
      refine Finset.card_lt_card (Finset.ssubset_iff_subset_ne.mpr ⟨hsub, fun heq => hba ?_⟩)
      have hmem : a ∈ g.ledTo r := mem_ledTo.mpr ⟨ha, hr⟩
      exact (mem_ledTo.mp (heq ▸ hmem)).2
    have hmul := Nat.mul_le_mul_right (size + 1) hlt
    rw [Nat.succ_mul] at hmul
    omega

section

variable (hg : g.WellFormed) (hscanner : g.scanner.Sound)
  (htargets : ∀ a group b, g.Recaptures a group b → g.NeverEnds b)
  (hcycles : ∀ a group b, g.Recaptures a group b → ReflTransGen g.Leads b a → g.Shortens a group)

include hg hscanner htargets hcycles

theorem retokenize_agree {size n n' start : Nat} {line : Line} {fs : Frames} (hsize : line.size ≤ size)
    (hr : g.NeverEnds fs.top.rule) (hn : g.nesting size fs.top.rule (line.size - start) < n)
    (hn' : g.nesting size fs.top.rule (line.size - start) < n') (isTextStart : Bool) :
    Agree (g.retokenize n line fs start isTextStart) (g.retokenize n' line fs start isTextStart) := by
  induction n generalizing n' line fs start isTextStart with
  | zero => omega
  | succ n ih =>
    obtain ⟨n', rfl⟩ := Nat.exists_eq_add_one.mpr (Nat.zero_lt_of_lt hn')
    have hstart : g.Inside fs.top.rule start ⟨fs, ⟨start, isTextStart, none⟩, .startingAt start⟩ :=
      ⟨Nat.le_refl _, [], fs.top, fs.below, rfl, rfl, by simp⟩
    have hagree (s : ScanState) (hs : g.Inside fs.top.rule start s) :
        Agree (g.step line (g.retokenize n) s) (g.step line (g.retokenize n') s) := by
      refine step_agree fun a group span fs' hasks isTextStart => ?_
      obtain ⟨hab, w, m, hnext, howner, hcaptured⟩ := hasks.spec hg
      obtain ⟨patterns, hfinds⟩ := nextMatch_finds hg hnext
      have hstop := (hfinds.within hscanner span (List.mem_of_getElem? hcaptured)).2
      have hlead : ReflTransGen g.Leads fs.top.rule a := by
        rcases nextMatch_eq_ok hg hnext with ⟨id, hmem, rfl, -⟩ | ⟨region, _, rfl, -⟩
        · exact howner ▸ hs.top.tail (.starts hmem)
        · exact howner ▸ hs.top
      have hle := hstop.le_size
      have hcut := hstop.size_upTo
      have hlt : g.nesting size fs'.top.rule (((line.upTo? span.stop).getD line).size - span.start) <
          g.nesting size fs.top.rule (line.size - start) := by
        rw [hcut]
        refine nesting_lt hlead hab (by omega) fun hcycle => ?_
        have hshort := hcycles a group _ hab hcycle line _ _ w m span hnext howner hcaptured
        have := hs.pos
        omega
      exact ih (by omega) (htargets a group _ hab) (by omega) (by omega) isTextStart
    have hscan := scanAll_agree hg hscanner.endsInLine hagree
      (fun s t => step_inside hg hr) hstart
    exact hscan.bind fun _ _ => agree_ok _

theorem tokenizeNested_agree (text : String) (stack : RuleStack) {n n' : Nat}
    (hn : (g.ruleCount + 1) * ((Line.ofText text).size + 1) ≤ n)
    (hn' : (g.ruleCount + 1) * ((Line.ofText text).size + 1) ≤ n') :
    Agree (g.tokenizeNested n text stack) (g.tokenizeNested n' text stack) := by
  let line := Line.ofText text
  have hagree (a : RuleId) (group : Nat) (span : Span) (fs : Frames)
      (hab : g.Recaptures a group fs.top.rule) :
      AgreeOn (g.retokenize n) (g.retokenize n') line fs span := by
    intro isTextStart
    have hsize := line.size_upTo_le span.stop
    have hlt := nesting_lt_of_length_le (g := g) (r := fs.top.rule)
      (Nat.le_trans (Nat.sub_le _ span.start) hsize)
    exact retokenize_agree hg hscanner htargets hcycles hsize (htargets a group _ hab)
      (Nat.lt_of_lt_of_le hlt hn) (Nat.lt_of_lt_of_le hlt hn') isTextStart
  have hstep (s : ScanState) :
      Agree (g.step line (g.retokenize n) s) (g.step line (g.retokenize n') s) :=
    step_agree fun a group span fs hasks => hagree a group span fs (hasks.spec hg).1
  refine (checkWhile_agree hagree _ _).bind fun s _ => ?_
  refine Agree.bind ?_ fun _ _ => agree_ok _
  exact scanAll_agree hg hscanner.endsInLine (fun s _ => hstep s) (fun _ _ _ _ => trivial) trivial

end

/-- Tokenizing a line returns if no rule has what it captures tokenized again with rules that lead back
to it, unless what it captures is shorter than what was left of the line, and if no region is
used for captured text that could end in it.  How deep captured texts may be nested then makes no
difference. -/
theorem tokenizeNested_returns {scope : String} {grammars : GrammarSet} {scanner : Scanner}
    (hcompile : compile scope grammars scanner = .ok g) (hscanner : scanner.Sound)
    (htargets : ∀ a group b, g.Recaptures a group b → g.NeverEnds b)
    (hcycles : ∀ a group b, g.Recaptures a group b → ReflTransGen g.Leads b a → g.Shortens a group)
    (text : String) (stack : RuleStack) {n : Nat}
    (hn : (g.ruleCount + 1) * ((Line.ofText text).size + 1) ≤ n) :
    g.tokenizeNested n text stack ≠ .error .endless ∧
      ∀ n', n ≤ n' → g.tokenizeNested n' text stack = g.tokenizeNested n text stack := by
  have hg := compile_wellFormed hcompile
  have hscanner : g.scanner.Sound := compile_scanner hcompile ▸ hscanner
  refine ⟨(tokenizeNested_agree hg hscanner htargets hcycles text stack hn hn).2, fun n' hn' => ?_⟩
  have hagree := tokenizeNested_agree hg hscanner htargets hcycles text stack hn (hn.trans hn')
  exact hagree.1.symm

def selfGrammar (pattern : String) : GrammarDescription where
  scopeName := "s"
  patterns := [{
    pattern := some pattern
    captures := some [("1", { patterns := some [{ reference := some "$self" }] })] }]

structure IsSelf (pattern : String) (g : Grammar) : Prop where
  compile_eq : compile "s" [("s", selfGrammar pattern)] .standard = .ok g
  rules : g.rules =
    #[.container [1], .single none pattern [(1, ⟨none, none, some 2⟩)], .container [0]]

theorem exists_isSelf (pattern : String) : ∃ g, IsSelf pattern g := ⟨_, rfl, rfl⟩

section

variable {pattern : String} (hself : IsSelf pattern g)

include hself

theorem IsSelf.cases {id : RuleId} {rule : Rule} (hrule : g.rule? id = some rule) :
    (id = 1 ∧ rule = .single none pattern [(1, ⟨none, none, some 2⟩)]) ∨
      ∃ patterns, rule = .container patterns := by
  rw [rule?, hself.rules] at hrule
  rcases id with _ | _ | _ | id
  · cases hrule
    exact .inr ⟨_, rfl⟩
  · cases hrule
    exact .inl ⟨rfl, rfl⟩
  · cases hrule
    exact .inr ⟨_, rfl⟩
  · cases hrule

theorem IsSelf.rule_one : g.rule? 1 = some (.single none pattern [(1, ⟨none, none, some 2⟩)]) := by
  rw [rule?, hself.rules]
  rfl

theorem IsSelf.exists_container {id : RuleId} (hid : id = 0 ∨ id = 2) :
    ∃ patterns, g.rule? id = some (.container patterns) := by
  rw [rule?, hself.rules]
  rcases hid with rfl | rfl <;> exact ⟨_, rfl⟩

theorem IsSelf.candidates {id : RuleId} (hid : id = 0 ∨ id = 2) : candidates g.rules id = [1] := by
  rw [hself.rules]
  rcases hid with rfl | rfl <;> rfl

theorem IsSelf.eq_of_mem_startPatterns {id : RuleId} {s : String} (hs : s ∈ g.startPatterns id) :
    s = pattern := by
  obtain ⟨c, hc, hpattern⟩ := List.mem_filterMap.mp hs
  obtain ⟨rule, hrule, hpattern⟩ := Option.bind_eq_some_iff.mp hpattern
  rcases hself.cases hrule with ⟨-, rfl⟩ | ⟨patterns, rfl⟩
  · exact (Option.some.inj hpattern).symm
  · cases hpattern

theorem IsSelf.startPatterns {id : RuleId} (hid : id = 0 ∨ id = 2) :
    g.startPatterns id = [pattern] := by
  rw [Grammar.startPatterns, hself.candidates hid, hself.rules]
  rfl

theorem IsSelf.neverEnds (id : RuleId) : g.NeverEnds id := by
  intro region endLast hrule
  rcases hself.cases hrule with ⟨-, h⟩ | ⟨patterns, h⟩
  · cases h
  · cases h

theorem IsSelf.recaptures {group : Nat} (h : g.Recaptures a group b) : a = 1 ∧ group = 1 ∧ b = 2 := by
  obtain ⟨rule, hrule, table, htable, r, hr, hb⟩ := h
  rcases hself.cases hrule with ⟨rfl, rfl⟩ | ⟨patterns, rfl⟩
  · obtain rfl := List.mem_singleton.mp htable
    have hmem := CaptureTable.mem_of_rule? hr
    simp only [List.mem_singleton, Prod.mk.injEq] at hmem
    obtain ⟨rfl, rfl⟩ := hmem
    exact ⟨rfl, rfl, (Option.some.inj hb).symm⟩
  · cases htable

end

theorem tokenizeNested_returns_dashes :
    ∃ g, compile "s" [("s", selfGrammar "-(.*)")] .standard = .ok g ∧
      g.tokenizeNested 20 "---" .initial ≠ .error .endless ∧
      ∀ n, 20 ≤ n → g.tokenizeNested n "---" .initial = g.tokenizeNested 20 "---" .initial := by
  obtain ⟨g, hself⟩ := exists_isSelf "-(.*)"
  have hg := hself.compile_eq
  refine ⟨g, hg, ?_⟩
  have hshortens : g.Shortens 1 1 := by
    intro line f p w m span hnext howner hspan
    have hpasses : ∀ s ∈ g.startPatterns f.rule, Pattern.passes (·.endsWith 1) s = true := by
      intro s hs
      rw [hself.eq_of_mem_startPatterns hs]
      decide +kernel
    obtain ⟨patterns, hends, hcompile⟩ := Scanner.compile_passing hpasses
    rcases nextMatch_eq_ok (compile_wellFormed hg) hnext with ⟨_, -, -, matcher, hmatcher, hfind⟩ |
      ⟨region, endLast, -, hrule, -⟩
    · rw [compile_scanner hg, hcompile] at hmatcher
      cases hmatcher
      exact Scanner.captured_lt hends hfind hspan
    · exact absurd hrule (hself.neverEnds f.rule region endLast)
  refine tokenizeNested_returns hg Scanner.standard_sound (fun _ _ b _ => hself.neverEnds b) ?_ "---"
    .initial ?_
  · intro a group b h _
    obtain ⟨rfl, rfl, -⟩ := hself.recaptures h
    exact hshortens
  · rw [ruleCount, hself.rules]
    decide +kernel

def groupLine : Line := .ofChars ['a'] 1

def groupMatch : ScanMatch := ⟨0, ⟨0, 1⟩, [some ⟨0, 1⟩]⟩

theorem nextMatch_self (hself : IsSelf "(a)" g) {line : Line}
    (hline : line = .ofText "a" ∨ line = groupLine) {f : Frame} (hf : f.rule = 0 ∨ f.rule = 2)
    (b : Bool) : g.nextMatch line f ⟨0, b, none⟩ = .ok (some (.rule 1, groupMatch)) := by
  obtain ⟨matcher, hcompile, hfind⟩ : ∃ matcher, Scanner.standard.compile ["(a)"] = .ok matcher ∧
      ∀ line, line = Line.ofText "a" ∨ line = groupLine → matcher.find line 0 = some groupMatch := by
    refine ⟨_, rfl, ?_⟩
    rintro line (rfl | rfl) <;> decide +kernel
  have hanchor (a : Anchoring) : a.patternText "(a)" = "(a)" :=
    a.patternText_of_hasAnchor_eq_false (by decide)
  have hcandidates := hself.candidates hf
  obtain ⟨patterns, hrule⟩ := hself.exists_container hf
  have hcount : f.rule < g.ruleCount := by
    rw [ruleCount, hself.rules]
    rcases hf with hf | hf <;> rw [hf] <;> decide
  obtain ⟨set, hset⟩ := exists_scanSet hself.compile_eq hcount
  unfold nextMatch
  rw [ruleMatch_eq (compile_wellFormed hself.compile_eq) hset (by simp [hcandidates])]
  simp [endMatch, hrule, hcandidates, hself.startPatterns hf, compile_scanner hself.compile_eq, hanchor,
    hcompile, hfind line hline, orPatternError, prefer, groupMatch, Except.map, bind, Except.bind, pure, Except.pure]

theorem scanAll_self (hself : IsSelf "(a)" g) {again : Retokenize}
    (hagain : ∀ fs b, fs.top.rule = 2 → again groupLine fs 0 b = .error .endless) {line : Line}
    (hline : line = .ofText "a" ∨ line = groupLine) {fs : Frames}
    (hfs : fs.top.rule = 0 ∨ fs.top.rule = 2) (b : Bool) (run : TokenRun) :
    g.scanAll line again ⟨fs, ⟨0, b, none⟩, run⟩ = .error .endless := by
  let table : CaptureTable := [(1, ⟨none, none, some 2⟩)]
  have hcut : (line.upTo? 1).getD line = groupLine := by
    rcases hline with rfl | rfl <;> rfl
  have hemit (c : CaptureContext) (run : TokenRun) (hc : c.line = line)
      (hcaptures : c.captures = groupMatch.captures) : c.emit again table run = .error .endless := by
    have hgroups : c.groups table = [(⟨none, none, some 2⟩, ⟨0, 1⟩)] := by
      rw [CaptureContext.groups, hcaptures]
      rfl
    rw [CaptureContext.emit, hgroups]
    simp [CaptureContext.step, CaptureContext.retokenize, CaptureContext.frame, Frames.push, hc, hcut,
      hagain, bind, Except.bind]
  have hstep : g.step line again ⟨fs, ⟨0, b, none⟩, run⟩ = .error .endless := by
    simp [step, nextMatch_self hself hline hfs, startRule, hself.rule_one, emitMatch, hemit, table,
      bind, Except.bind]
  rw [scanAll, scanLimit, scan, hstep]
  rfl

theorem retokenize_self (hself : IsSelf "(a)" g) (n : Nat) (fs : Frames) (b : Bool)
    (hfs : fs.top.rule = 2) : g.retokenize n groupLine fs 0 b = .error .endless := by
  induction n generalizing fs b with
  | zero => rfl
  | succ n ih =>
    have hscan := scanAll_self hself ih (.inr rfl) (.inr hfs) b (.startingAt 0)
    simp [retokenize, hscan, bind, Except.bind]

/-- However deep captured texts may be nested, tokenizing this line goes deeper. -/
theorem tokenizeNested_self : ∃ g, compile "s" [("s", selfGrammar "(a)")] .standard = .ok g ∧
    ∀ n, g.tokenizeNested n "a" .initial = .error .endless := by
  obtain ⟨g, hself⟩ := exists_isSelf "(a)"
  refine ⟨g, hself.compile_eq, fun n => ?_⟩
  obtain ⟨patterns, hroot⟩ := hself.exists_container (.inl rfl)
  have hcheck : g.checkWhile (.ofText "a") (g.retokenize n) (g.startFrames .initial) true =
      .ok ⟨g.startFrames .initial, ⟨0, true, none⟩, .startingAt 0⟩ := by
    simp [checkWhile, startFrames, checkFrames, checkTop, Frame.root, root, hroot, bind, Except.bind,
      pure, Except.pure]
  have hscan : g.scanAll (.ofText "a") (g.retokenize n)
      ⟨g.startFrames .initial, ⟨0, true, none⟩, .startingAt 0⟩ = .error .endless :=
    scanAll_self hself (retokenize_self hself n) (.inl rfl) (.inl rfl) true (.startingAt 0)
  simp [tokenizeNested, RuleStack.isInitial, hcheck, hscan, bind, Except.bind]

end Grammar

end GrammarScopes
