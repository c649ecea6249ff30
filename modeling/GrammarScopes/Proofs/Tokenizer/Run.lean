import GrammarScopes.Proofs.Tokenizer.Step
import GrammarScopes.Tokenizer.Basic
import Mathlib.Logic.Relation

/-!
Scanning a line from match to match, and the regions that are asked before whether they go on.  A
tokenized line has grown from its start to its end, and its active rules come from those of the line
before it by leaving some and then by matches.
-/

namespace GrammarScopes

namespace Grammar

open Relation (ReflTransGen)

variable {P : Line → Nat → Prop} {S : List String → Prop} {g : Grammar} {line : Line}
  {again : Retokenize}

theorem framesSteps_scoped {fs fs' : Frames} (h : ReflTransGen (FramesStep g) fs fs')
    (hS : ScopeClosed S) (hs : fs.Scoped S) : fs'.Scoped S := by
  induction h with
  | refl => exact hs
  | tail _ hstep ih => exact hstep.scoped hS ih

variable (hg : g.WellFormed) (hscanner : g.scanner.FindsIn P) (hP : Places P) (hS : ScopeClosed S)

include hg hscanner hP hS

theorem scan_spec (hagain : again.Sound P S) {n : Nat} {s t : ScanState} (hs : s.frames.Scoped S)
    (h : g.scan line again n s = .ok t) :
    s.run.GrowsBy (Admits (P line) S) t.run ∧ ReflTransGen (FramesStep g) s.frames t.frames ∧
      line.size ≤ t.run.stop := by
  induction n generalizing s with
  | zero => cases h
  | succ n ih =>
    obtain ⟨p, hp, h⟩ := bind_eq_ok.mp h
    have hstep := step_spec hg hscanner hP hS hagain hs hp
    cases p with
    | more u =>
      obtain ⟨hgrow, hframes, hsize⟩ := ih (hstep.frames.scoped hS hs) h
      exact ⟨hstep.grows.trans hgrow, .head hstep.frames hframes, hsize⟩
    | done u =>
      cases h
      exact ⟨hstep.grows, .single hstep.frames, hstep.covers _ rfl⟩

theorem retokenize_sound (n : Nat) : (g.retokenize n).Sound P S := by
  induction n with
  | zero => intro line frames start isTextStart tokens _ h; cases h
  | succ n ih =>
    intro line frames start isTextStart tokens hs h
    obtain ⟨s, hscan, h⟩ := bind_eq_ok.mp h
    cases h
    obtain ⟨hgrow, -⟩ := scan_spec hg hscanner hP hS ih hs hscan
    intro t ht
    exact hgrow.forall_latest (by simp [TokenRun.startingAt]) t (List.mem_reverse.mp ht)

section While

theorem checkTop_spec (hagain : again.Sound P S) {s : ScanState} {w : WhileState}
    (hs : s.frames.Scoped S) (h : g.checkTop line again s = .ok w) :
    s.run.GrowsBy (Admits (P line) S) w.scan.run ∧
      w.scan.frames = if w.hasEnded then s.frames.pop else s.frames := by
  unfold checkTop at h
  split at h
  next region hrule =>
    rw [limitMatcher_eq hg hrule rfl] at h
    obtain ⟨matcher, hmatcher, h⟩ := bind_eq_ok.mp h
    split at h
    next m hm =>
      have hwithin := hscanner _ matcher (orPatternError_eq_ok.mp hmatcher) _ _ _ hm
      obtain ⟨t, ht, h⟩ := bind_eq_ok.mp h
      cases h
      obtain ⟨u, hu, ht⟩ := bind_eq_ok.mp ht
      cases ht
      have hgrow := emitMatch_grows (s := s.cover m.start) hP (hS.sound hagain hs _) hs.top.2 hwithin hu
      exact ⟨(cover_grows hs.top.2 hwithin.start).trans hgrow, (emitMatch_eq_ok hu).1⟩
    next =>
      cases h
      exact ⟨.refl, rfl⟩
  next =>
    cases h
    exact ⟨.refl, rfl⟩

theorem checkFrames_spec (hagain : again.Sound P S) {point : ScanPoint} {run : TokenRun}
    {top : Frame} {below : List Frame} {w : WhileState} (hs : Frames.Scoped S ⟨top, below⟩)
    (h : g.checkFrames line again point run top below = .ok w) :
    run.GrowsBy (Admits (P line) S) w.scan.run ∧ w.scan.frames.toList <:+ top :: below ∧
      (w.hasEnded = false → w.scan.frames = ⟨top, below⟩) := by
  induction below generalizing top w with
  | nil =>
    obtain ⟨hgrow, hframes⟩ := checkTop_spec hg hscanner hP hS hagain hs h
    have hpop : (Frames.mk top []).pop = ⟨top, []⟩ := rfl
    rw [hpop, ite_self] at hframes
    exact ⟨hgrow, hframes ▸ List.suffix_rfl, fun _ => hframes⟩
  | cons f below ih =>
    -- the regions below are asked first, and the top one only if they all go on
    obtain ⟨v, hv, h⟩ := bind_eq_ok.mp h
    obtain ⟨hgrow, hsuffix, hgoes⟩ := ih (Frames.Scoped.pop hs) hv
    split at h
    next hended =>
      cases h
      exact ⟨hgrow, hsuffix.trans (List.suffix_cons _ _), fun hw => by simp [hended] at hw⟩
    next hended =>
      have hpush : v.scan.frames.push top = ⟨top, f :: below⟩ := by
        rw [hgoes (by simpa using hended)]
        rfl
      rw [hpush] at h
      obtain ⟨hgrow', hframes⟩ := checkTop_spec hg hscanner hP hS hagain hs h
      refine ⟨hgrow.trans hgrow', ?_, fun hw => by rw [hframes, hw]; rfl⟩
      rw [hframes]
      split
      · exact List.suffix_cons _ _
      · exact List.suffix_rfl

end While

/-- How a line is tokenized: the active rules go on as far as they do, matches change them, and the run
of tokens grows from the start of the line to its end. -/
theorem tokenizeNested_spec {n : Nat} {text : String} {stack : RuleStack} {r : LineTokens}
    (hs : (g.startFrames stack).Scoped S) (h : g.tokenizeNested n text stack = .ok r) :
    ∃ (run : TokenRun) (fs fs' : Frames),
      (TokenRun.startingAt 0).GrowsBy (Admits (P (.ofText text)) S) run ∧
      (Line.ofText text).size ≤ run.stop ∧ r.tokens = run.finish (.ofText text) ∧
      fs.toList <:+ (g.startFrames stack).toList ∧ ReflTransGen (FramesStep g) fs fs' ∧
      r.stack = .active fs' := by
  obtain ⟨s, hcheck, h⟩ := bind_eq_ok.mp h
  obtain ⟨t, hscan, h⟩ := bind_eq_ok.mp h
  cases h
  have hagain := retokenize_sound (S := S) hg hscanner hP hS n
  obtain ⟨w, hw, hcheck⟩ := bind_eq_ok.mp hcheck
  cases hcheck
  obtain ⟨hgrow, hsuffix, -⟩ := checkFrames_spec hg hscanner hP hS hagain hs hw
  have hws : w.scan.frames.Scoped S := fun f hf => hs f (hsuffix.mem hf)
  obtain ⟨hgrow', hframes, hsize⟩ := scan_spec hg hscanner hP hS hagain hws hscan
  exact ⟨t.run, w.scan.frames, t.frames, hgrow.trans hgrow', hsize, rfl, hsuffix, hframes, rfl⟩

end Grammar

end GrammarScopes
