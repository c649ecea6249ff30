import GrammarScopes.Proofs.Tokenizer.Matches

/-!
All that one match can do to a line that is being scanned.
-/

namespace GrammarScopes

deriving instance DecidableEq for Progress

/-- The rules of the frames on top that became active at one position. -/
def Frames.enteredAt (fs : Frames) (pos : Nat) : List RuleId :=
  (fs.toList.takeWhile (·.enterPos == some pos)).map (·.rule)

def ScanState.closing (s : ScanState) (m : ScanMatch) : ScanState :=
  (s.cover m.start).withTop fun f => { f with contentScopes := f.nameScopes }

namespace Grammar

variable {g : Grammar} {line : Line} {again : Retokenize} {m : ScanMatch} {s t u : ScanState}
  {p : Progress}

def starting (line : Line) (id : RuleId) (rule : Rule) (m : ScanMatch) (s : ScanState) : ScanState :=
  (s.cover m.start).withFrames (s.frames.push (startedFrame line id rule m s))

theorem repeatsEnclosing_push (fs : Frames) {f : Frame} {pos : Nat} (hf : f.enterPos = some pos) :
    (fs.push f).repeatsEnclosing = decide (f.rule ∈ fs.enteredAt pos) := by
  simp only [Frames.repeatsEnclosing, Frames.push, Frames.enteredAt, hf]
  rw [Bool.eq_iff_iff]
  simp

theorem emitMatch_eq_ok {table : CaptureTable} (h : emitMatch line again table m s = .ok u) :
    u.frames = s.frames ∧ u.point = s.point := by
  obtain ⟨run, -, h⟩ := bind_eq_ok.mp h
  cases h
  exact ⟨rfl, rfl⟩

/-- One match leads from a state to the next. -/
def Follows (g : Grammar) (line : Line) (again : Retokenize) (s t : ScanState) : Prop :=
  g.step line again s = .ok (.more t)

/-- What a step does, by the match that comes next. -/
inductive Outcome (g : Grammar) (line : Line) (again : Retokenize) (s : ScanState) : Progress → Prop
  | rest : g.nextMatch line s.frames.top s.point = .ok none →
      Outcome g line again s (.done (s.cover line.size))
  /-- A region that ends where it began, or with nothing below it, stays. -/
  | kept {region : Region} {m : ScanMatch} {u : ScanState} :
      g.nextMatch line s.frames.top s.point = .ok (some (.limit region, m)) →
      emitMatch line again region.limitCaptures m (s.closing m) = .ok u →
      Outcome g line again s (.done (u.cover line.size))
  | left {region : Region} {m : ScanMatch} {u : ScanState} {f : Frame} {below : List Frame} :
      g.nextMatch line s.frames.top s.point = .ok (some (.limit region, m)) →
      emitMatch line again region.limitCaptures m (s.closing m) = .ok u →
      s.frames.below = f :: below →
      (m.stop ≤ s.point.pos → s.frames.top.enterPos ≠ some s.point.pos) →
      Outcome g line again s (.more
        ⟨⟨f, below⟩, ({ s.point with anchor := s.frames.top.anchorPos }).advance m.stop, u.run⟩)
  | entered {id : RuleId} {rule : Rule} {region : Region} {m : ScanMatch} {u : ScanState} :
      g.nextMatch line s.frames.top s.point = .ok (some (.rule id, m)) →
      g.rule? id = some rule → rule.region? = some region →
      emitMatch line again region.beginCaptures m (starting line id rule m s) = .ok u →
      (m.stop ≤ s.point.pos → id ∉ s.frames.enteredAt s.point.pos) →
      Outcome g line again s (.more
        ⟨s.frames.push (enteredFrame line region m (startedFrame line id rule m s)),
          ({ s.point with anchor := some m.stop }).advance m.stop, u.run⟩)
  | repeated {id : RuleId} {rule : Rule} {region : Region} {m : ScanMatch} {u : ScanState} :
      g.nextMatch line s.frames.top s.point = .ok (some (.rule id, m)) →
      g.rule? id = some rule → rule.region? = some region →
      emitMatch line again region.beginCaptures m (starting line id rule m s) = .ok u →
      m.stop ≤ s.point.pos → id ∈ s.frames.enteredAt s.point.pos →
      Outcome g line again s (.done
        (ScanState.mk s.frames { s.point with anchor := some m.stop } u.run |>.cover line.size))
  | single {id : RuleId} {name : Option ScopeTemplate} {pattern : String} {captures : CaptureTable}
      {m : ScanMatch} {u : ScanState} :
      g.nextMatch line s.frames.top s.point = .ok (some (.rule id, m)) →
      g.rule? id = some (.single name pattern captures) →
      emitMatch line again captures m (starting line id (.single name pattern captures) m s) = .ok u →
      s.point.pos < m.stop →
      Outcome g line again s (.more ⟨s.frames, s.point.advance m.stop, u.run⟩)
  /-- A single match that consumes nothing ends the active rule as well. -/
  | emptySingle {id : RuleId} {name : Option ScopeTemplate} {pattern : String}
      {captures : CaptureTable} {m : ScanMatch} {u : ScanState} :
      g.nextMatch line s.frames.top s.point = .ok (some (.rule id, m)) →
      g.rule? id = some (.single name pattern captures) →
      emitMatch line again captures m (starting line id (.single name pattern captures) m s) = .ok u →
      m.stop ≤ s.point.pos →
      Outcome g line again s (.done (ScanState.mk s.frames.pop s.point u.run |>.cover line.size))
  | nothing {id : RuleId} {m : ScanMatch} :
      g.nextMatch line s.frames.top s.point = .ok (some (.rule id, m)) →
      (∀ rule, g.rule? id = some rule → rule.isContainer = true) →
      Outcome g line again s (.done ((s.cover m.start).cover line.size))

def Progress.moved (m : ScanMatch) : Progress → Progress
  | .more t => .more { t with point := t.point.advance m.stop }
  | .done t => .done t

theorem endRegion_outcome {region : Region}
    (hnext : g.nextMatch line s.frames.top s.point = .ok (some (.limit region, m)))
    (h : endRegion line again region m s = .ok p) : Outcome g line again s (Progress.moved m p) := by
  obtain ⟨u, hu, h⟩ := bind_eq_ok.mp h
  obtain ⟨hframes, hpoint⟩ := emitMatch_eq_ok hu
  have hbelow : u.frames.below = s.frames.below := by rw [hframes]; rfl
  have hpos : u.point = s.point := hpoint
  have hkept : Outcome g line again s (.done (u.cover line.size)) := .kept hnext hu
  dsimp only at h
  split at h
  next => cases h; exact hkept
  next f rest hrest =>
    split at h
    next => cases h; exact hkept
    next hcond =>
      cases h
      have htop : u.frames.top.enterPos = s.frames.top.enterPos ∧
          u.frames.top.anchorPos = s.frames.top.anchorPos := by
        rw [hframes]; exact ⟨rfl, rfl⟩
      simp only [Progress.moved, ScanState.withFrames, ScanState.withAnchor, hpos, htop.2]
      refine .left hnext hu (hbelow ▸ hrest) fun hle hpos' => hcond ?_
      simp [hpos, htop.1, hle, hpos']

theorem beginRegion_outcome {id : RuleId} {rule : Rule} {region : Region}
    (hnext : g.nextMatch line s.frames.top s.point = .ok (some (.rule id, m)))
    (hrule : g.rule? id = some rule) (hregion : rule.region? = some region)
    (h : beginRegion line again region m (starting line id rule m s) = .ok p) :
    Outcome g line again s (Progress.moved m p) := by
  obtain ⟨u, hu, h⟩ := bind_eq_ok.mp h
  obtain ⟨hframes, hpoint⟩ := emitMatch_eq_ok hu
  let f := enteredFrame line region m (startedFrame line id rule m s)
  have hentered : (u.withAnchor (some m.stop)).withTop (enteredFrame line region m) =
      ⟨s.frames.push f, { s.point with anchor := some m.stop }, u.run⟩ := by
    simp only [ScanState.withTop, ScanState.withAnchor, hframes, hpoint]
    rfl
  have hf : f.rule = id ∧ f.enterPos = some s.point.pos := ⟨rfl, rfl⟩
  have hrepeats := repeatsEnclosing_push s.frames hf.2
  dsimp only at h
  rw [hentered] at h
  simp only [hrepeats, hf.1, Bool.and_eq_true, decide_eq_true_eq] at h
  split at h
  next hcond =>
    cases h
    exact .repeated (u := u) hnext hrule hregion hu hcond.1 hcond.2
  next hcond =>
    cases h
    exact .entered (u := u) hnext hrule hregion hu fun hle hmem => hcond ⟨hle, hmem⟩

theorem startRule_outcome {id : RuleId}
    (hnext : g.nextMatch line s.frames.top s.point = .ok (some (.rule id, m)))
    (h : g.startRule line again id m s = .ok p) : Outcome g line again s (Progress.moved m p) := by
  unfold startRule at h
  dsimp only at h
  split at h
  next rule hrule =>
    cases rule with
    | beginEnd region last => exact beginRegion_outcome hnext hrule rfl h
    | beginWhile region => exact beginRegion_outcome hnext hrule rfl h
    | single name pattern captures =>
      obtain ⟨u, hu, h⟩ := bind_eq_ok.mp h
      obtain ⟨hframes, hpoint⟩ := emitMatch_eq_ok hu
      have hstate : u.withFrames u.frames.pop = ⟨s.frames, s.point, u.run⟩ := by
        simp only [ScanState.withFrames, hframes, hpoint]
        rfl
      rw [hstate] at h
      split at h
      next hle =>
        cases h
        exact .emptySingle (u := u) hnext hrule hu hle
      next hlt =>
        cases h
        exact .single (u := u) hnext hrule hu (Nat.lt_of_not_le hlt)
    | container =>
      cases h
      refine .nothing hnext fun rule' hrule' => ?_
      cases hrule.symm.trans hrule'
      rfl
  next hnone =>
    cases h
    exact .nothing hnext fun rule hrule => by cases hnone.symm.trans hrule

theorem step_outcome (h : g.step line again s = .ok p) : Outcome g line again s p := by
  obtain ⟨next, hnext, h⟩ := bind_eq_ok.mp h
  cases next with
  | none =>
    cases h
    exact .rest hnext
  | some wm =>
    obtain ⟨winner, m⟩ := wm
    have hmoved (q : Progress) (h : (match q with
        | .more t => return .more { t with point := t.point.advance m.stop }
        | .done t => return .done t) = Except.ok (ε := GrammarError) p) :
        p = Progress.moved m q := by
      cases q <;> cases h <;> rfl
    cases winner with
    | limit region =>
      obtain ⟨q, hq, h⟩ := bind_eq_ok.mp h
      exact hmoved q h ▸ endRegion_outcome hnext hq
    | rule id =>
      obtain ⟨q, hq, h⟩ := bind_eq_ok.mp h
      exact hmoved q h ▸ startRule_outcome hnext hq

end Grammar

end GrammarScopes
