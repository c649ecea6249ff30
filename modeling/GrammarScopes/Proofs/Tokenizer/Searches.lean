import GrammarScopes.Proofs.Tokenizer.ActiveRules
import GrammarScopes.Proofs.Tokenizer.Again
import GrammarScopes.Proofs.Tokenizer.Continuing

/-!
The searches that tokenizing a line makes, those in captured texts included.  The text is at its start only where
nothing of the first line has been consumed, and a rule has a limit of its own only if its limit refers back.
-/

namespace GrammarScopes

/-- What is searched when a captured text is tokenized: the line up to the end of that text. -/
def Line.cutAt (l : Line) (span : Span) : Line := (l.upTo? span.stop).getD l

def ScanPoint.captured (p : ScanPoint) (span : Span) : ScanPoint :=
  ⟨span.start, p.isTextStart && span.start == 0, none⟩

theorem Line.mem_cutAt {l : Line} {span : Span} {c : Char} (h : c ∈ (l.cutAt span).chars.toList) :
    c ∈ l.chars.toList := by
  unfold cutAt at h
  cases hcut : l.upTo? span.stop with
  | none => simpa [hcut] using h
  | some cut =>
    obtain ⟨i, -, rfl⟩ := Option.map_eq_some_iff.mp hcut
    simp only [hcut, Option.getD_some, ofChars] at h
    exact List.mem_of_mem_take (by simpa using h)

namespace Grammar

variable {g : Grammar} {line l : Line} {stack : RuleStack} {fs : Frames} {p : ScanPoint}

def startPoint (g : Grammar) (stack : RuleStack) : ScanPoint :=
  ⟨0, stack.isInitial, if (g.startFrames stack).top.beganAtEnd then some 0 else none⟩

/-- The searches made while a line is tokenized: in which line, with which rules active, and from which point.  What a
captured text is tokenized with does not matter here, so that it may be anything. -/
inductive Searches (g : Grammar) (line : Line) (stack : RuleStack) : Line → Frames → ScanPoint → Prop
  /-- An active rule is asked whether it goes on. -/
  | asked {f : Frame} {kept : List Frame} {ms : List ScanMatch} {p : ScanPoint} :
      f :: kept <:+ (g.startFrames stack).toList → g.GoOn line (g.startPoint stack) kept ms p →
      Searches g line stack line ⟨f, kept⟩ p
  | scanned {again : Retokenize} {s : ScanState} :
      g.checkWhile line again (g.startFrames stack) stack.isInitial = .ok s →
      Searches g line stack line s.frames s.point
  | followed {l : Line} {again : Retokenize} {s t : ScanState} :
      Searches g line stack l s.frames s.point → g.Follows l again s t → Searches g line stack l t.frames t.point
  /-- A group of the next match is tokenized again. -/
  | captured {l : Line} {s : ScanState} {id : RuleId} {group : Nat} {span : Span} {fs : Frames} :
      Searches g line stack l s.frames s.point → g.Asks l s id group span fs → fs.top.limit = none →
      Searches g line stack (l.cutAt span) fs (s.point.captured span)
  /-- A group of the match with which a region goes on is tokenized again. -/
  | continued {l : Line} {fs : Frames} {p : ScanPoint} {region : Region} {m : ScanMatch} {group : Nat} {span : Span}
      {f : Frame} :
      Searches g line stack l fs p → g.whileRegion? fs.top = some region →
      g.Finds l p [fs.top.limitSource region] m → region.limitCaptures.Asks m.captures group span f → f.limit = none →
      Searches g line stack (l.cutAt span) (fs.push f) (p.captured span)

/-- The frame has no limit of its own, or the limit of its rule refers back. -/
def Plain (g : Grammar) (f : Frame) : Prop :=
  ∀ rule region, g.rule? f.rule = some rule → rule.region? = some region →
    BackReference.occursIn region.limitSource = false → f.limit = none

theorem plain_of_none {f : Frame} (h : f.limit = none) : g.Plain f := fun _ _ _ _ _ => h

theorem plain_of_limit {f : Frame} {rule : Rule} {region : Region} (hrule : g.rule? f.rule = some rule)
    (hregion : rule.region? = some region) (hlimit : f.limit.isSome = BackReference.occursIn region.limitSource) :
    g.Plain f := by
  intro rule' region' hrule' hregion' hplain
  cases hrule.symm.trans hrule'
  cases hregion.symm.trans hregion'
  rw [hplain] at hlimit
  simpa using hlimit

theorem Nested.plain {top : Frame} {below : List Frame} (h : g.Nested top below) : ∀ f ∈ top :: below, g.Plain f := by
  induction h with
  | root =>
    intro f hf
    obtain rfl := List.mem_singleton.mp hf
    exact plain_of_none rfl
  | region _ hrule hregion hlimit _ _ ih =>
    exact List.forall_mem_cons.mpr ⟨plain_of_limit hrule hregion hlimit, ih⟩

theorem FramesStep.plain (hg : g.WellFormed) {fs fs' : Frames} (h : FramesStep g fs fs')
    (hfs : ∀ f ∈ fs.toList, g.Plain f) : ∀ f ∈ fs'.toList, g.Plain f := by
  cases h with
  | stay => exact hfs
  | reset _ =>
    obtain ⟨htop, hbelow⟩ := List.forall_mem_cons.mp hfs
    exact List.forall_mem_cons.mpr ⟨htop, hbelow⟩
  | leave =>
    obtain ⟨top, below⟩ := fs
    cases below with
    | nil => exact hfs
    | cons f below => exact (List.forall_mem_cons.mp hfs).2
  | enter hrule hregion hlimit _ _ =>
    rw [hg.hasBackReferences_eq hrule hregion] at hlimit
    exact List.forall_mem_cons.mpr ⟨plain_of_limit hrule hregion hlimit, hfs⟩

theorem Follows.framesStep (hg : g.WellFormed) {again : Retokenize} {s t : ScanState} (h : g.Follows l again s t) :
    FramesStep g s.frames t.frames := by
  have hagain : again.Sound (fun _ _ => True) fun _ => True := fun _ _ _ _ _ _ _ _ _ => ⟨trivial, trivial⟩
  exact (step_spec hg g.scanner.findsIn_true true_places scopeClosed_true hagain (Frames.scoped_true _) h).frames

/-- A search that begins where the text does is one at the start of the first line. -/
def AtStart (stack : RuleStack) (p : ScanPoint) : Prop := p.isTextStart = true → stack = .initial ∧ p.pos = 0

theorem AtStart.advance (h : AtStart stack p) (anchor : Option Nat) (stop : Nat) :
    AtStart stack (({ p with anchor := anchor }).advance stop) := by
  unfold ScanPoint.advance
  split
  · exact nofun
  · exact h

theorem AtStart.captured (h : AtStart stack p) (span : Span) : AtStart stack (p.captured span) := by
  intro hstart
  obtain ⟨hp, hspan⟩ := Bool.and_eq_true_iff.mp hstart
  exact ⟨(h hp).1, beq_iff_eq.mp hspan⟩

theorem AtStart.follows {again : Retokenize} {s t : ScanState} (h : AtStart stack s.point)
    (hstep : g.Follows l again s t) : AtStart stack t.point := by
  have hout := step_outcome hstep
  generalize hprogress : Progress.more t = progress at hout
  cases hout with
  | left | entered =>
    cases hprogress
    exact h.advance _ _
  | single =>
    cases hprogress
    exact h.advance s.point.anchor _
  | _ => cases hprogress

theorem GoOn.atStart {kept : List Frame} {ms : List ScanMatch} (h : g.GoOn line (g.startPoint stack) kept ms p) :
    AtStart stack p := by
  intro hstart
  rw [h.isTextStart] at hstart
  obtain ⟨hinitial, hpos⟩ := Bool.and_eq_true_iff.mp hstart
  constructor
  · cases stack with
    | initial => rfl
    | active frames => cases hinitial
  · simpa [startPoint] using hpos

theorem checkWhile_spec (hg : g.WellFormed) {again : Retokenize} {s : ScanState}
    (h : g.checkWhile line again (g.startFrames stack) stack.isInitial = .ok s) :
    s.frames.toList <:+ (g.startFrames stack).toList ∧ AtStart stack s.point := by
  obtain ⟨w, hw, h⟩ := bind_eq_ok.mp h
  cases h
  have hchecked := checkFrames_checked hg line again (g.startPoint stack) (.startingAt 0) (g.startFrames stack).top
    (g.startFrames stack).below
  have hw' : g.checkFrames line again (g.startPoint stack) (.startingAt 0) (g.startFrames stack).top
    (g.startFrames stack).below = .ok w := hw
  rw [hw'] at hchecked
  cases hchecked with
  | all hgo hframes => exact ⟨hframes ▸ List.suffix_rfl, hgo.atStart⟩
  | @left f kept ms region s hsuffix hgo _ _ hframes _ =>
    refine ⟨?_, hgo.atStart⟩
    rw [hframes]
    cases kept with
    | nil => exact hsuffix
    | cons f' kept => exact (List.suffix_cons f (f' :: kept)).trans hsuffix

theorem Searches.mem (h : g.Searches line stack l fs p) {c : Char} (hc : c ∈ l.chars.toList) :
    c ∈ line.chars.toList := by
  induction h with
  | asked | scanned => exact hc
  | followed _ _ ih => exact ih hc
  | captured _ _ _ ih => exact ih (Line.mem_cutAt hc)
  | continued _ _ _ _ _ ih => exact ih (Line.mem_cutAt hc)

theorem Searches.atStart (hg : g.WellFormed) (h : g.Searches line stack l fs p) : AtStart stack p := by
  induction h with
  | asked _ hgo => exact hgo.atStart
  | scanned hcheck => exact (checkWhile_spec hg hcheck).2
  | followed _ hstep ih => exact ih.follows hstep
  | captured _ _ _ ih => exact ih.captured _
  | continued _ _ _ _ _ ih => exact ih.captured _

theorem Asks.below {s : ScanState} {id : RuleId} {group : Nat} {span : Span} (h : g.Asks l s id group span fs)
    (hs : ∀ f ∈ s.frames.toList, g.Plain f) : ∀ f ∈ fs.below, g.Plain f := by
  cases h with
  | limit =>
    obtain ⟨htop, hbelow⟩ := List.forall_mem_cons.mp hs
    exact List.forall_mem_cons.mpr ⟨htop, hbelow⟩
  | rule =>
    exact List.forall_mem_cons.mpr ⟨plain_of_none rfl, hs⟩

theorem Searches.plain (hg : g.WellFormed) (hstack : g.Ready stack) (h : g.Searches line stack l fs p) :
    ∀ f ∈ fs.toList, g.Plain f := by
  have hstart := hstack.1.plain
  induction h with
  | asked hsuffix _ => exact fun f hf => hstart f (hsuffix.mem hf)
  | scanned hcheck => exact fun f hf => hstart f ((checkWhile_spec hg hcheck).1.mem hf)
  | followed _ hstep ih => exact (hstep.framesStep hg).plain hg ih
  | captured _ hasks hlimit ih => exact List.forall_mem_cons.mpr ⟨plain_of_none hlimit, hasks.below ih⟩
  | continued _ _ _ _ hlimit ih => exact List.forall_mem_cons.mpr ⟨plain_of_none hlimit, ih⟩

end Grammar

end GrammarScopes
