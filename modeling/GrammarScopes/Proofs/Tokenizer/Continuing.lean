import GrammarScopes.Proofs.Tokenizer.MatchReach

/-!
Which active rules go on when a line begins.  The regions that last while a pattern matches are asked from the outermost
on, each where the one before it has got to; the first that is not found is left, and those inside it are not asked.
-/

namespace GrammarScopes

theorem Frames.toList_injective : Function.Injective Frames.toList := by
  rintro ⟨top, below⟩ ⟨top', below'⟩ h
  cases h
  rfl

/-- Where the next region is asked, after one that goes on with a match. -/
def ScanPoint.after (p : ScanPoint) (m : ScanMatch) : ScanPoint := ({ p with anchor := some m.stop }).advance m.stop

namespace Grammar

variable {g : Grammar} {line : Line} {again : Retokenize} {start p p' : ScanPoint} {f : Frame} {fs kept : List Frame}
  {m m' : ScanMatch} {ms ms' : List ScanMatch} {region : Region} {s : ScanState}

/-- The region of an active rule that lasts while its pattern matches. -/
def whileRegion? (g : Grammar) (f : Frame) : Option Region :=
  match g.rule? f.rule with
  | some (.beginWhile region) => some region
  | _ => none

def Misses (g : Grammar) (line : Line) (p : ScanPoint) (patterns : List String) : Prop :=
  ∃ matcher, g.scanner.compile (patterns.map p.anchoring.patternText) = .ok matcher ∧ matcher.find line p.pos = none

/-- All regions of some frames go on, with their matches and the point that they lead to.  As in a stack of rules, the
innermost frame comes first, and so does the match that was found last. -/
inductive GoOn (g : Grammar) (line : Line) (start : ScanPoint) : List Frame → List ScanMatch → ScanPoint → Prop
  | nil : GoOn g line start [] [] start
  | other {f : Frame} {fs : List Frame} {ms : List ScanMatch} {p : ScanPoint} :
      GoOn g line start fs ms p → g.whileRegion? f = none → GoOn g line start (f :: fs) ms p
  | found {f : Frame} {fs : List Frame} {ms : List ScanMatch} {p : ScanPoint} {region : Region} {m : ScanMatch} :
      GoOn g line start fs ms p → g.whileRegion? f = some region → g.Finds line p [f.limitSource region] m →
      GoOn g line start (f :: fs) (m :: ms) (p.after m)

theorem Finds.unique {patterns : List String} (h : g.Finds line p patterns m) (h' : g.Finds line p patterns m') :
    m = m' := by
  obtain ⟨matcher, hcompile, hfind⟩ := h
  obtain ⟨matcher', hcompile', hfind'⟩ := h'
  cases hcompile.symm.trans hcompile'
  exact Option.some.inj (hfind.symm.trans hfind')

theorem Finds.not_misses {patterns : List String} (h : g.Finds line p patterns m) : ¬ g.Misses line p patterns := by
  rintro ⟨matcher', hcompile', hnone⟩
  obtain ⟨matcher, hcompile, hfind⟩ := h
  cases hcompile.symm.trans hcompile'
  cases hfind.symm.trans hnone

theorem GoOn.pos (h : g.GoOn line start fs ms p) : p.pos = (ms.map (·.stop)).foldl max start.pos := by
  induction h with
  | nil => rfl
  | other _ _ ih => exact ih
  | found _ _ _ ih =>
    rw [ScanPoint.after, ScanPoint.advance_pos, ih, List.map_cons, List.foldl_cons, foldl_max]

theorem GoOn.anchor (h : g.GoOn line start fs ms p) : p.anchor = (ms.head?.map (·.stop)).or start.anchor := by
  induction h with
  | nil => rfl
  | other _ _ ih => exact ih
  | found _ _ _ _ =>
    unfold ScanPoint.after ScanPoint.advance
    split <;> rfl

theorem GoOn.isTextStart (h : g.GoOn line start fs ms p) :
    p.isTextStart = (start.isTextStart && p.pos == start.pos) := by
  induction h with
  | nil => simp
  | other _ _ ih => exact ih
  | @found f fs ms p region m hgo _ _ ih =>
    have hle : start.pos ≤ p.pos := hgo.pos ▸ (foldl_max_le.mp (Nat.le_refl _)).1
    unfold ScanPoint.after ScanPoint.advance
    split
    next hlt =>
      dsimp only at hlt ⊢
      have hne : m.stop ≠ start.pos := by omega
      simp [hne]
    next => exact ih

theorem GoOn.unique (h : g.GoOn line start fs ms p) (h' : g.GoOn line start fs ms' p') : ms = ms' ∧ p = p' := by
  induction h generalizing ms' p' with
  | nil =>
    cases h'
    exact ⟨rfl, rfl⟩
  | other _ hregion ih =>
    cases h' with
    | other h' _ => exact ih h'
    | found _ hregion' _ => cases hregion.symm.trans hregion'
  | found _ hregion hfinds ih =>
    cases h' with
    | other _ hregion' => cases hregion.symm.trans hregion'
    | found h' hregion' hfinds' =>
      cases hregion.symm.trans hregion'
      obtain ⟨rfl, rfl⟩ := ih h'
      cases hfinds.unique hfinds'
      exact ⟨rfl, rfl⟩

theorem GoOn.of_cons (h : g.GoOn line start (f :: fs) ms p) : ∃ ms' p', g.GoOn line start fs ms' p' := by
  cases h with
  | other h _ | found h _ _ => exact ⟨_, _, h⟩

theorem GoOn.of_suffix (h : g.GoOn line start fs ms p) (hsuffix : kept <:+ fs) :
    ∃ ms' p', g.GoOn line start kept ms' p' := by
  obtain ⟨above, rfl⟩ := hsuffix
  induction above generalizing ms p with
  | nil => exact ⟨ms, p, h⟩
  | cons f above ih =>
    obtain ⟨ms', p', h⟩ := h.of_cons
    exact ih h

theorem GoOn.not_misses (h : g.GoOn line start kept ms p) (hregion : g.whileRegion? f = some region)
    (hmisses : g.Misses line p [f.limitSource region]) (hsuffix : f :: kept <:+ fs) :
    ¬ g.GoOn line start fs ms' p' := by
  intro hall
  obtain ⟨ms', p', hf⟩ := hall.of_suffix hsuffix
  cases hf with
  | other _ hregion' => cases hregion.symm.trans hregion'
  | found h' hregion' hfinds =>
    cases hregion.symm.trans hregion'
    obtain ⟨rfl, rfl⟩ := h.unique h'
    exact hfinds.not_misses hmisses

inductive Asked (g : Grammar) (line : Line) (again : Retokenize) (s : ScanState) :
    Except GrammarError WhileState → Prop
  | other : g.whileRegion? s.frames.top = none → Asked g line again s (.ok ⟨s, false⟩)
  | found {region : Region} {m : ScanMatch} {run : TokenRun} : g.whileRegion? s.frames.top = some region →
      g.Finds line s.point [s.frames.top.limitSource region] m →
      Asked g line again s (.ok ⟨⟨s.frames, s.point.after m, run⟩, false⟩)
  | missed {region : Region} : g.whileRegion? s.frames.top = some region →
      g.Misses line s.point [s.frames.top.limitSource region] →
      Asked g line again s (.ok ⟨s.withFrames s.frames.pop, true⟩)
  | refused {region : Region} {fault : PatternFault} : g.whileRegion? s.frames.top = some region →
      g.scanner.compile [s.point.anchoring.patternText (s.frames.top.limitSource region)] = .error fault →
      Asked g line again s (.error (.invalidPattern fault))
  | failed {region : Region} {m : ScanMatch} {e : GrammarError} : g.whileRegion? s.frames.top = some region →
      g.Finds line s.point [s.frames.top.limitSource region] m →
      emitMatch line again region.limitCaptures m (s.cover m.start) = .error e → Asked g line again s (.error e)

theorem checkTop_asked (hg : g.WellFormed) (s : ScanState) : g.Asked line again s (g.checkTop line again s) := by
  unfold checkTop
  split
  next region hrule =>
    have hregion : g.whileRegion? s.frames.top = some region := by rw [whileRegion?, hrule]
    rw [limitMatcher_eq hg hrule rfl]
    cases hcompile : g.scanner.compile [s.point.anchoring.patternText (s.frames.top.limitSource region)] with
    | error fault => exact .refused hregion hcompile
    | ok matcher =>
      simp only [orPatternError, bind, Except.bind]
      cases hfind : matcher.find line s.point.pos with
      | none => exact .missed hregion ⟨matcher, hcompile, hfind⟩
      | some m =>
        have hfinds : g.Finds line s.point [s.frames.top.limitSource region] m := ⟨matcher, hcompile, hfind⟩
        simp only [continueRegion, bind, Except.bind]
        cases hu : emitMatch line again region.limitCaptures m (s.cover m.start) with
        | error e => exact .failed hregion hfinds hu
        | ok u =>
          obtain ⟨hframes, hpoint⟩ := emitMatch_eq_ok hu
          have hfound : g.Asked line again s (.ok ⟨⟨s.frames, s.point.after m, u.run⟩, false⟩) := .found hregion hfinds
          simp only [pure, Except.pure, ScanState.withAnchor, hframes, hpoint]
          exact hfound
  next hrule =>
    refine .other ?_
    unfold whileRegion?
    split
    next region hregion => exact absurd hregion (hrule region)
    next => rfl

inductive Checked (g : Grammar) (line : Line) (again : Retokenize) (start : ScanPoint) (run : TokenRun)
    (frames : List Frame) : Except GrammarError WhileState → Prop
  | all {ms : List ScanMatch} {s : ScanState} : g.GoOn line start frames ms s.point → s.frames.toList = frames →
      Checked g line again start run frames (.ok ⟨s, false⟩)
  | left {f : Frame} {kept : List Frame} {ms : List ScanMatch} {region : Region} {s : ScanState} :
      f :: kept <:+ frames → g.GoOn line start kept ms s.point → g.whileRegion? f = some region →
      g.Misses line s.point [f.limitSource region] → s.frames = (Frames.mk f kept).pop →
      g.checkFrames line again start run f kept = .ok ⟨s, true⟩ → Checked g line again start run frames (.ok ⟨s, true⟩)
  | refused {f : Frame} {kept : List Frame} {ms : List ScanMatch} {p : ScanPoint} {region : Region}
      {fault : PatternFault} : f :: kept <:+ frames → g.GoOn line start kept ms p → g.whileRegion? f = some region →
      g.scanner.compile [p.anchoring.patternText (f.limitSource region)] = .error fault →
      Checked g line again start run frames (.error (.invalidPattern fault))
  | failed {f : Frame} {kept : List Frame} {ms : List ScanMatch} {region : Region} {m : ScanMatch} {s : ScanState}
      {e : GrammarError} : f :: kept <:+ frames → g.GoOn line start kept ms s.point →
      g.whileRegion? f = some region → g.Finds line s.point [f.limitSource region] m → s.frames.toList = f :: kept →
      emitMatch line again region.limitCaptures m s = .error e → Checked g line again start run frames (.error e)

variable {run : TokenRun} {top : Frame} {below : List Frame} {x : Except GrammarError WhileState}

theorem Asked.checked (h : g.Asked line again s x) (hgo : g.GoOn line start below ms s.point)
    (hframes : s.frames = ⟨top, below⟩) (hx : g.checkFrames line again start run top below = x) :
    g.Checked line again start run (top :: below) x := by
  cases h with
  | other hregion =>
    rw [hframes] at hregion
    exact .all (hgo.other hregion) (by rw [hframes]; rfl)
  | found hregion hfinds =>
    rw [hframes] at hregion hfinds
    exact .all (hgo.found hregion hfinds) (by rw [hframes]; rfl)
  | missed hregion hmisses =>
    rw [hframes] at hregion hmisses
    exact .left List.suffix_rfl hgo hregion hmisses (congrArg Frames.pop hframes) hx
  | refused hregion hcompile =>
    rw [hframes] at hregion hcompile
    exact .refused List.suffix_rfl hgo hregion hcompile
  | @failed region m e hregion hfinds hfails =>
    rw [hframes] at hregion hfinds
    exact .failed (s := s.cover m.start) List.suffix_rfl hgo hregion hfinds (congrArg Frames.toList hframes) hfails

theorem checkFrames_checked (hg : g.WellFormed) (line : Line) (again : Retokenize) (start : ScanPoint) (run : TokenRun)
    (top : Frame) (below : List Frame) :
    g.Checked line again start run (top :: below) (g.checkFrames line again start run top below) := by
  induction below generalizing top with
  | nil => exact (checkTop_asked hg ⟨⟨top, []⟩, start, run⟩).checked .nil rfl rfl
  | cons f below ih =>
    have ih := ih f
    generalize hx : g.checkFrames line again start run f below = x at ih
    have hstep : g.checkFrames line again start run top (f :: below) = x >>= fun w =>
        if w.hasEnded then .ok w else g.checkTop line again (w.scan.withFrames (w.scan.frames.push top)) := by
      rw [← hx]
      rfl
    have hsuffix {kept : List Frame} (h : kept <:+ f :: below) : kept <:+ top :: f :: below :=
      h.trans (List.suffix_cons top (f :: below))
    cases ih with
    | @all ms s hgo hframes =>
      have hpush : s.frames.push top = ⟨top, f :: below⟩ := congrArg (Frames.mk top) hframes
      rw [hstep]
      exact (checkTop_asked hg (s.withFrames (s.frames.push top))).checked hgo hpush hstep
    | left h hgo hregion hmisses hframes heq => rw [hstep]; exact .left (hsuffix h) hgo hregion hmisses hframes heq
    | refused h hgo hregion hcompile => rw [hstep]; exact .refused (hsuffix h) hgo hregion hcompile
    | failed h hgo hregion hfinds hframes hfails =>
      rw [hstep]
      exact .failed (hsuffix h) hgo hregion hfinds hframes hfails

/-- What is left says nothing about the rules inside it, which may be others. -/
theorem checkFrames_of_ended {w : WhileState} (h : g.checkFrames line again start run f kept = .ok w)
    (hw : w.hasEnded = true) (hsuffix : f :: kept <:+ top :: below) :
    g.checkFrames line again start run top below = .ok w := by
  induction below generalizing top with
  | nil =>
    rcases List.suffix_cons_iff.mp hsuffix with heq | hnil
    · cases heq
      exact h
    · cases List.eq_nil_of_suffix_nil hnil
  | cons f' below ih =>
    rcases List.suffix_cons_iff.mp hsuffix with heq | hbelow
    · cases heq
      exact h
    · simp [checkFrames, ih hbelow, hw, bind, Except.bind, pure, Except.pure]

theorem whileRegion?_root (hg : g.WellFormed) (hroot : f.rule = root) : g.whileRegion? f = none := by
  obtain ⟨patterns, hcontainer⟩ := hg.root_container
  rw [whileRegion?, hroot, hcontainer]

theorem toList_pop_of_root (hg : g.WellFormed) (hregion : g.whileRegion? f = some region)
    (hsuffix : f :: kept <:+ fs) (hroot : fs.getLast?.map (·.rule) = some root) :
    (Frames.mk f kept).pop.toList = kept := by
  cases kept with
  | nil =>
    obtain ⟨above, rfl⟩ := hsuffix
    rw [List.getLast?_concat] at hroot
    cases (whileRegion?_root hg (Option.some.inj hroot)).symm.trans hregion
  | cons f' kept => rfl

theorem checkFrames_spans (hg : g.WellFormed) {frames : Frames} {w : WhileState}
    (h : g.checkFrames line again start run frames.top frames.below = .ok w) :
    ∃ new, w.scan.run.latest = new ++ run.latest ∧ TokenRun.Spans run.stop new w.scan.run.stop := by
  have hagain : again.Sound (fun _ _ => True) fun _ => True := fun _ _ _ _ _ _ _ _ _ => ⟨trivial, trivial⟩
  obtain ⟨hgrow, -⟩ :=
    checkFrames_spec hg g.scanner.findsIn_true true_places scopeClosed_true hagain (Frames.scoped_true _) h
  exact hgrow.exists_new

/-- The rules active at the start of a line go on up to the first region that is asked and not found.  The root always
goes on, and where a condition fails to give an answer, it is one that is asked. -/
theorem checkWhile_cuts {scope : String} {grammars : GrammarSet} {scanner : Scanner}
    (hcompile : compile scope grammars scanner = .ok g) (line : Line) (again : Retokenize) (frames : Frames) (pos : Nat)
    (isTextStart : Bool) (run : TokenRun) :
    let start : ScanPoint := ⟨pos, isTextStart, if frames.top.beganAtEnd then some 0 else none⟩
    let check (frames : Frames) := (g.checkFrames line again start run frames.top frames.below).map WhileState.scan
    (pos = 0 → run = .startingAt 0 → g.checkWhile line again frames isTextStart = check frames) ∧
    (∀ s, check frames = .ok s → ∃ ms,
      (g.GoOn line start frames.toList ms s.point ∧ s.frames = frames ∨
        (∀ ms p, ¬ g.GoOn line start frames.toList ms p) ∧ ∃ f kept region,
          f :: kept <:+ frames.toList ∧ g.GoOn line start kept ms s.point ∧ g.whileRegion? f = some region ∧
          g.Misses line s.point [f.limitSource region] ∧ s.frames = (Frames.mk f kept).pop ∧
          (frames.toList.getLast?.map (·.rule) = some root → s.frames.toList = kept) ∧
          ∀ frames', f :: kept <:+ frames'.toList → check frames' = .ok s) ∧
      s.point.pos = (ms.map (·.stop)).foldl max pos ∧
      s.point.anchor = (ms.head?.map (·.stop)).or start.anchor ∧
      s.point.isTextStart = (isTextStart && s.point.pos == pos) ∧
      ∃ new, s.run.latest = new ++ run.latest ∧ TokenRun.Spans run.stop new s.run.stop) ∧
    ∀ e, check frames = .error e → ∃ f kept region ms p,
      f :: kept <:+ frames.toList ∧ g.GoOn line start kept ms p ∧ g.whileRegion? f = some region ∧
      ((∃ fault, g.scanner.compile [p.anchoring.patternText (f.limitSource region)] = .error fault ∧
          e = .invalidPattern fault) ∨
        ∃ m u, g.Finds line p [f.limitSource region] m ∧ u.frames.toList = f :: kept ∧
          emitMatch line again region.limitCaptures m u = .error e) := by
  intro start check
  have hg := compile_wellFormed hcompile
  have hchecked := checkFrames_checked hg line again start run frames.top frames.below
  -- `Checked` has one case for each way in which asking the frames comes out
  generalize hx : g.checkFrames line again start run frames.top frames.below = x at hchecked
  have hcheck : check frames = x.map WhileState.scan := congrArg (Except.map WhileState.scan) hx
  refine ⟨?_, fun s hs => ?_, fun e he => ?_⟩
  · rintro rfl rfl
    rw [hcheck, checkWhile, hx]
    cases x <;> rfl
  · rw [hcheck] at hs
    cases hchecked with
    | @all ms t hgo hframes =>
      cases hs
      exact ⟨ms, .inl ⟨hgo, Frames.toList_injective hframes⟩, hgo.pos, hgo.anchor, hgo.isTextStart,
        checkFrames_spans hg hx⟩
    | @left f kept ms region t hsuffix hgo hregion hmisses hframes heq =>
      cases hs
      have hkept (hroot : frames.toList.getLast?.map (·.rule) = some root) : t.frames.toList = kept :=
        hframes ▸ toList_pop_of_root hg hregion hsuffix hroot
      have hothers (frames' : Frames) (h : f :: kept <:+ frames'.toList) : check frames' = .ok t :=
        congrArg (Except.map WhileState.scan) (checkFrames_of_ended heq rfl h)
      exact ⟨ms, .inr ⟨fun ms' p' => hgo.not_misses hregion hmisses hsuffix, f, kept, region, hsuffix, hgo, hregion,
        hmisses, hframes, hkept, hothers⟩, hgo.pos, hgo.anchor, hgo.isTextStart, checkFrames_spans hg hx⟩
    | refused | failed => cases hs
  · rw [hcheck] at he
    cases hchecked with
    | all | left => cases he
    | refused hsuffix hgo hregion hrefused =>
      cases he
      exact ⟨_, _, _, _, _, hsuffix, hgo, hregion, .inl ⟨_, hrefused, rfl⟩⟩
    | failed hsuffix hgo hregion hfinds hframes hfails =>
      cases he
      exact ⟨_, _, _, _, _, hsuffix, hgo, hregion, .inr ⟨_, _, hfinds, hframes, hfails⟩⟩

def quotesGrammar : GrammarDescription where
  scopeName := "s"
  patterns := [{
    name := some "quote"
    beginPattern := some ">"
    whilePattern := some ">"
    patterns := some [{ name := some "list", beginPattern := some "\\*", whilePattern := some "\\G\\*" }] }]

theorem checkWhile_cuts_list :
    let line := Line.ofText ">x"
    let quote : Frame := ⟨1, none, none, false, none, ["s", "quote"], ["s", "quote"]⟩
    let list : Frame := ⟨2, none, none, true, none, ["s", "quote", "list"], ["s", "quote", "list"]⟩
    let frames : Frames := ⟨list, [quote, .root root "s"]⟩
    ∃ g s ms region, compile "s" [("s", quotesGrammar)] .standard = .ok g ∧
      g.checkWhile line (g.retokenize 0) frames false = .ok s ∧ s.frames = ⟨quote, [.root root "s"]⟩ ∧
      s.point = ⟨1, false, some 1⟩ ∧ s.run.latest = [⟨0, 1, ["s", "quote"]⟩] ∧
      g.GoOn line ⟨0, false, some 0⟩ s.frames.toList ms s.point ∧ g.whileRegion? list = some region ∧
      g.Misses line s.point [list.limitSource region] := by
  intro line quote list frames
  let s : ScanState := ⟨⟨quote, [.root root "s"]⟩, ⟨1, false, some 1⟩, ⟨[⟨0, 1, ["s", "quote"]⟩], 1⟩⟩
  obtain ⟨g, hg, hs⟩ : ∃ g, compile "s" [("s", quotesGrammar)] .standard = .ok g ∧
      (g.checkWhile line (g.retokenize 0) frames false).toOption = some s :=
    ⟨_, rfl, by decide +kernel⟩
  have hs := ok_of_toOption hs
  obtain ⟨hcheck, hcuts, -⟩ := checkWhile_cuts hg line (g.retokenize 0) frames 0 false (.startingAt 0)
  obtain ⟨ms, hcases, -⟩ := hcuts s (by rw [← hs, hcheck rfl rfl])
  rcases hcases with ⟨-, hframes⟩ | ⟨-, f, kept, region, hsuffix, hgo, hregion, hmisses, -, hkept, -⟩
  · cases congrArg (·.below.length) hframes
  · have hkept : s.frames.toList = kept := hkept rfl
    rw [← hkept] at hsuffix hgo
    have hf : f :: s.frames.toList = list :: s.frames.toList := hsuffix.eq_of_length rfl
    cases hf
    exact ⟨g, s, ms, region, hg, hs, rfl, rfl, rfl, hgo, hregion, hmisses⟩

end Grammar

end GrammarScopes
