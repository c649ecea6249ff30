import GrammarScopes.Proofs.Tokenizer.Growth
import GrammarScopes.Proofs.Tokenizer.Outcome

/-!
What one match does while a line is scanned: to the active rules, and to the tokens.
-/

namespace GrammarScopes

def Progress.state : Progress → ScanState
  | more s | done s => s

namespace Grammar

/-- What a match does to the active rules. -/
inductive FramesStep (g : Grammar) (fs : Frames) : Frames → Prop
  | stay : FramesStep g fs fs
  /-- A region that has ended without consuming anything stays, but has lost its inner scopes. -/
  | reset {region : Region} {endLast : Bool} :
      g.rule? fs.top.rule = some (.beginEnd region endLast) →
      FramesStep g fs { fs with top := { fs.top with contentScopes := fs.top.nameScopes } }
  | leave : FramesStep g fs fs.pop
  | enter {f : Frame} {rule : Rule} {region : Region} {name contentName : Option String} :
      g.rule? f.rule = some rule → rule.region? = some region →
      f.limit.isSome = region.hasBackReferences →
      f.nameScopes = pushScopes fs.top.contentScopes name →
      f.contentScopes = pushScopes f.nameScopes contentName →
      FramesStep g fs (fs.push f)

variable {P : Line → Nat → Prop} {S : List String → Prop} {g : Grammar} {line : Line}
  {again : Retokenize}

theorem FramesStep.scoped {fs fs' : Frames} (h : FramesStep g fs fs') (hS : ScopeClosed S)
    (hs : fs.Scoped S) : fs'.Scoped S := by
  cases h with
  | stay => exact hs
  | reset _ =>
    obtain ⟨htop, hbelow⟩ := List.forall_mem_cons.mp hs
    exact List.forall_mem_cons.mpr ⟨⟨htop.1, htop.1⟩, hbelow⟩
  | leave => exact hs.pop
  | enter _ _ _ hname hcontent =>
    have hn := hname ▸ hS _ _ hs.top.2
    exact hs.push ⟨hn, hcontent ▸ hS _ _ hn⟩

structure ScanStep (g : Grammar) (line : Line) (P : Line → Nat → Prop) (S : List String → Prop)
    (s : ScanState) (p : Progress) : Prop where
  grows : s.run.GrowsBy (Admits (P line) S) p.state.run
  frames : FramesStep g s.frames p.state.frames
  covers : ∀ t, p = .done t → line.size ≤ t.run.stop

theorem cover_grows {s : ScanState} (hs : S s.frames.top.contentScopes) {stop : Nat}
    (hstop : P line stop) : s.run.GrowsBy (Admits (P line) S) (s.cover stop).run :=
  .extend .refl ⟨hstop, hs⟩

theorem emitMatch_grows {m : ScanMatch} {s u : ScanState} {table : CaptureTable} (hP : Places P)
    (htable : table.Sound P S again s.frames) (hs : S s.frames.top.contentScopes)
    (hm : m.Within (P line))
    (h : emitMatch line again table m s = .ok u) : s.run.GrowsBy (Admits (P line) S) u.run := by
  obtain ⟨run, hrun, h⟩ := bind_eq_ok.mp h
  cases h
  let c : CaptureContext := ⟨line, s.frames, s.point.isTextStart, m.captures⟩
  have hgrow : s.run.GrowsBy (Admits (P line) S) run :=
    CaptureContext.emit_grows (c := c) hP hs htable hm hrun
  exact hgrow.extend ⟨hm.stop, hs⟩

theorem ScanStep.more {s t : ScanState} (hgrow : s.run.GrowsBy (Admits (P line) S) t.run)
    (hframes : FramesStep g s.frames t.frames) : ScanStep g line P S s (.more t) :=
  ⟨hgrow, hframes, fun _ h => by cases h⟩

theorem ScanStep.done {s t : ScanState} (hP : Places P) (hS : ScopeClosed S)
    (hs : s.frames.Scoped S) (hgrow : s.run.GrowsBy (Admits (P line) S) t.run)
    (hframes : FramesStep g s.frames t.frames) :
    ScanStep g line P S s (.done (t.cover line.size)) := by
  refine ⟨hgrow.trans (cover_grows (hframes.scoped hS hs).top.2 (hP.size line)), hframes, ?_⟩
  rintro _ ⟨⟩
  exact (TokenRun.le_stop_extend _ _ _).2

theorem step_spec (hg : g.WellFormed) (hscanner : g.scanner.FindsIn P) (hP : Places P)
    (hS : ScopeClosed S) (hagain : again.Sound P S) {s : ScanState} {p : Progress}
    (hs : s.frames.Scoped S) (h : g.step line again s = .ok p) : ScanStep g line P S s p := by
  have hwithin {w : Winner} {m : ScanMatch}
      (hnext : g.nextMatch line s.frames.top s.point = .ok (some (w, m))) : m.Within (P line) := by
    obtain ⟨patterns, hfinds⟩ := nextMatch_finds hg hnext
    exact hfinds.within hscanner
  -- what is inside a region has ended before the match of its end is emitted
  have hended {region : Region} {m : ScanMatch} {u : ScanState}
      (hnext : g.nextMatch line s.frames.top s.point = .ok (some (.limit region, m)))
      (hu : emitMatch line again region.limitCaptures m (s.closing m) = .ok u) :
      FramesStep g s.frames u.frames ∧ s.run.GrowsBy (Admits (P line) S) u.run := by
    obtain ⟨endLast, hrule⟩ := nextMatch_limit hg hnext
    have hreset := FramesStep.reset hrule
    have hm := hwithin hnext
    have hclosing := hreset.scoped hS hs
    have hgrow := emitMatch_grows hP (hS.sound hagain hclosing _) hclosing.top.2 hm hu
    exact ⟨(emitMatch_eq_ok hu).1 ▸ hreset, (cover_grows hs.top.2 hm.start).trans hgrow⟩
  have hstarted {id : RuleId} {rule : Rule} {table : CaptureTable} {m : ScanMatch} {u : ScanState}
      (hnext : g.nextMatch line s.frames.top s.point = .ok (some (.rule id, m)))
      (hu : emitMatch line again table m (starting line id rule m s) = .ok u) :
      s.run.GrowsBy (Admits (P line) S) u.run := by
    have hm := hwithin hnext
    have hpush : (starting line id rule m s).frames.Scoped S :=
      hs.push ⟨hS _ _ hs.top.2, hS _ _ hs.top.2⟩
    have hgrow := emitMatch_grows hP (hS.sound hagain hpush _) hpush.top.2 hm hu
    exact (cover_grows hs.top.2 hm.start).trans hgrow
  cases step_outcome h with
  | rest hnext => exact .done hP hS hs .refl .stay
  | kept hnext hu =>
    obtain ⟨hframes, hgrow⟩ := hended hnext hu
    exact .done hP hS hs hgrow hframes
  | @left _ _ _ f below hnext hu hbelow _ =>
    have hpop : s.frames.pop = ⟨f, below⟩ := by rw [Frames.pop, hbelow]
    exact .more (hended hnext hu).2 (hpop ▸ .leave)
  | @entered _ _ region _ _ hnext hrule hregion hu _ =>
    have hgrow := hstarted hnext hu
    refine .more hgrow (.enter hrule hregion ?_ rfl rfl)
    cases hb : region.hasBackReferences <;> simp [enteredFrame, startedFrame, hb]
  | repeated hnext _ _ hu _ _ =>
    have hgrow := hstarted hnext hu
    exact .done hP hS hs hgrow .stay
  | single hnext _ hu _ =>
    have hgrow := hstarted hnext hu
    exact .more hgrow .stay
  | emptySingle hnext _ hu _ =>
    have hgrow := hstarted hnext hu
    exact .done hP hS hs hgrow .leave
  | nothing hnext _ => exact .done hP hS hs (cover_grows hs.top.2 (hwithin hnext).start) .stay

end Grammar

end GrammarScopes
