import GrammarScopes.Proofs.Tokenizer.Growth
import GrammarScopes.Proofs.Tokenizer.Outcome
import GrammarScopes.Tokenizer.While

/-!
How tokenizing a line depends on the way in which captured texts are tokenized again.  Two ways that
agree on every text that is asked for give the same result.
-/

namespace GrammarScopes

/-- Computations with one result, which is not that there is no end. -/
def Agree {α : Type} (x y : Except GrammarError α) : Prop := x = y ∧ x ≠ .error .endless

theorem agree_ok {α : Type} (a : α) : Agree (.ok a) (.ok a) := ⟨rfl, nofun⟩

theorem Agree.bind {α β : Type} {x y : Except GrammarError α} {f f' : α → Except GrammarError β}
    (h : Agree x y) (hf : ∀ a, x = .ok a → Agree (f a) (f' a)) : Agree (x >>= f) (y >>= f') := by
  obtain ⟨rfl, hne⟩ := h
  cases x with
  | ok a => exact hf a rfl
  | error e => exact ⟨rfl, fun he => hne (by cases he; rfl)⟩

theorem Agree.foldlM {α β : Type} {f f' : β → α → Except GrammarError β} {l : List α}
    (hf : ∀ b, ∀ a ∈ l, Agree (f b a) (f' b a)) (b : β) : Agree (l.foldlM f b) (l.foldlM f' b) := by
  induction l generalizing b with
  | nil => exact agree_ok b
  | cons a l ih =>
    rw [List.foldlM_cons, List.foldlM_cons]
    exact (hf b a List.mem_cons_self).bind fun c _ =>
      ih (fun b a ha => hf b a (List.mem_cons_of_mem _ ha)) c

theorem agree_orPatternError {α : Type} (x : Except PatternFault α) :
    Agree (orPatternError x) (orPatternError x) := ⟨rfl, orPatternError_ne_endless x⟩

def AgreeOn (again again' : Retokenize) (line : Line) (frames : Frames) (span : Span) : Prop :=
  ∀ isTextStart, Agree (again ((line.upTo? span.stop).getD line) frames span.start isTextStart)
    (again' ((line.upTo? span.stop).getD line) frames span.start isTextStart)

structure CaptureTable.Asks (table : CaptureTable) (captures : Captures) (group : Nat) (span : Span)
    (f : Frame) : Prop where
  rule : ∃ rule, table.rule? group = some rule ∧ rule.retokenize = some f.rule
  captured : captures[group]? = some (some span)

variable {again again' : Retokenize}

theorem CaptureContext.emit_agree {c : CaptureContext} {table : CaptureTable}
    (h : ∀ group span f, table.Asks c.captures group span f →
      AgreeOn again again' c.line (c.frames.push f) span) (run : TokenRun) :
    Agree (c.emit again table run) (c.emit again' table run) := by
  refine Agree.bind (Agree.foldlM ?_ _) fun s _ => agree_ok _
  rintro s ⟨rule, span⟩ hmem
  obtain ⟨group, hrule, hcaptured, -⟩ := mem_groups hmem
  unfold step
  dsimp only
  split
  next id hid =>
    refine Agree.bind (h group span (frame id _ _ _) ⟨⟨rule, hrule, hid⟩, hcaptured⟩ _) ?_
    exact fun _ _ => agree_ok _
  next => split <;> exact agree_ok _

def Rule.startCaptures : Rule → CaptureTable
  | container _ => []
  | single _ _ captures => captures
  | beginEnd region _ | beginWhile region => region.beginCaptures

def Winner.owner (f : Frame) : Winner → RuleId
  | limit _ => f.rule
  | rule id => id

namespace Grammar

variable {g : Grammar} {line : Line} {s : ScanState}

/-- A group of one rule is tokenized again with another one. -/
def Recaptures (g : Grammar) (a : RuleId) (group : Nat) (b : RuleId) : Prop :=
  ∃ rule, g.rule? a = some rule ∧ ∃ table ∈ rule.tables,
    ∃ r, table.rule? group = some r ∧ r.retokenize = some b

/-- What the next match has tokenized again: by which rule and group, which stretch, and with which
rules active. -/
inductive Asks (g : Grammar) (line : Line) (s : ScanState) : RuleId → Nat → Span → Frames → Prop
  | limit {region : Region} {m : ScanMatch} {group : Nat} {span : Span} {f : Frame} :
      g.nextMatch line s.frames.top s.point = .ok (some (.limit region, m)) →
      region.limitCaptures.Asks m.captures group span f →
      Asks g line s s.frames.top.rule group span ((s.closing m).frames.push f)
  | rule {id : RuleId} {rule : Rule} {m : ScanMatch} {group : Nat} {span : Span} {f : Frame} :
      g.nextMatch line s.frames.top s.point = .ok (some (.rule id, m)) → g.rule? id = some rule →
      rule.startCaptures.Asks m.captures group span f →
      Asks g line s id group span ((starting line id rule m s).frames.push f)

theorem emitMatch_agree {table : CaptureTable} {m : ScanMatch}
    (h : ∀ group span f, table.Asks m.captures group span f →
      AgreeOn again again' line (s.frames.push f) span) :
    Agree (emitMatch line again table m s) (emitMatch line again' table m s) :=
  (CaptureContext.emit_agree (c := ⟨line, s.frames, s.point.isTextStart, m.captures⟩) h _).bind
    fun _ _ => agree_ok _

theorem agree_endMatch (f : Frame) (p : ScanPoint) :
    Agree (g.endMatch line f p) (g.endMatch line f p) := by
  unfold endMatch
  split
  · exact (agree_orPatternError _).bind fun _ _ => agree_ok _
  · exact agree_ok _

theorem agree_ruleMatch (f : Frame) (p : ScanPoint) :
    Agree (g.ruleMatch line f p) (g.ruleMatch line f p) := by
  unfold ruleMatch
  split
  · exact agree_ok _
  · split
    · exact agree_ok _
    · exact (agree_orPatternError _).bind fun _ _ => agree_ok _

theorem agree_nextMatch (f : Frame) (p : ScanPoint) :
    Agree (g.nextMatch line f p) (g.nextMatch line f p) :=
  (agree_ruleMatch f p).bind fun _ _ => (agree_endMatch f p).bind fun _ _ => agree_ok _

theorem endRegion_agree {region : Region} {m : ScanMatch}
    (h : ∀ group span f, region.limitCaptures.Asks m.captures group span f →
      AgreeOn again again' line ((s.closing m).frames.push f) span) :
    Agree (endRegion line again region m s) (endRegion line again' region m s) := by
  refine (emitMatch_agree (s := s.closing m) h).bind fun u _ => ?_
  dsimp only
  split
  · exact agree_ok _
  · split <;> exact agree_ok _

theorem startRule_agree {id : RuleId} {m : ScanMatch}
    (h : ∀ rule, g.rule? id = some rule → ∀ group span f,
      rule.startCaptures.Asks m.captures group span f →
      AgreeOn again again' line ((starting line id rule m s).frames.push f) span) :
    Agree (g.startRule line again id m s) (g.startRule line again' id m s) := by
  unfold startRule
  dsimp only
  split
  next rule hrule =>
    have hbegin (region : Region) (hregion : rule.startCaptures = region.beginCaptures) :
        Agree (beginRegion line again region m (starting line id rule m s))
          (beginRegion line again' region m (starting line id rule m s)) := by
      refine (emitMatch_agree (hregion ▸ h rule hrule)).bind fun u _ => ?_
      dsimp only
      split <;> exact agree_ok _
    split
    next region last => exact hbegin region rfl
    next region => exact hbegin region rfl
    next name pattern captures =>
      refine Agree.bind (emitMatch_agree (h _ hrule)) fun u _ => ?_
      split <;> exact agree_ok _
    next => exact agree_ok _
  next => exact agree_ok _

theorem step_agree (h : ∀ a group span fs, g.Asks line s a group span fs →
    AgreeOn again again' line fs span) : Agree (g.step line again s) (g.step line again' s) := by
  refine (agree_nextMatch _ _).bind fun next hnext => ?_
  cases next with
  | none => exact agree_ok _
  | some wm =>
    obtain ⟨winner, m⟩ := wm
    cases winner with
    | limit region =>
      have hend := endRegion_agree fun group span f hf => h _ _ _ _ (.limit hnext hf)
      exact hend.bind fun p _ => by cases p <;> exact agree_ok _
    | rule id =>
      have hstart := startRule_agree fun rule hrule group span f hf =>
        h _ _ _ _ (.rule hnext hrule hf)
      exact hstart.bind fun p _ => by cases p <;> exact agree_ok _

theorem Asks.spec (hg : g.WellFormed) {a : RuleId} {group : Nat} {span : Span} {fs : Frames}
    (h : g.Asks line s a group span fs) : g.Recaptures a group fs.top.rule ∧
      ∃ w m, g.nextMatch line s.frames.top s.point = .ok (some (w, m)) ∧ w.owner s.frames.top = a ∧
        m.captures[group]? = some (some span) := by
  cases h with
  | @limit region m _ _ f hnext hasks =>
    obtain ⟨endLast, hrule⟩ := nextMatch_limit hg hnext
    refine ⟨⟨_, hrule, region.limitCaptures, by simp [Rule.tables], hasks.rule⟩, ?_⟩
    exact ⟨_, m, hnext, rfl, hasks.captured⟩
  | @rule id rule m _ _ f hnext hrule hasks =>
    refine ⟨⟨rule, hrule, rule.startCaptures, ?_, hasks.rule⟩, _, m, hnext, rfl, hasks.captured⟩
    cases rule with
    | container patterns =>
      obtain ⟨r, hr, -⟩ := hasks.rule
      cases hr
    | single => exact List.mem_singleton_self _
    | beginEnd => exact List.mem_cons_self
    | beginWhile => exact List.mem_cons_self

section

variable (h : ∀ a group span fs, g.Recaptures a group fs.top.rule → AgreeOn again again' line fs span)

include h

theorem checkTop_agree (s : ScanState) :
    Agree (g.checkTop line again s) (g.checkTop line again' s) := by
  unfold checkTop
  split
  next region hrule =>
    refine (agree_orPatternError _).bind fun matcher _ => ?_
    split
    next m _ =>
      have hemit : Agree (emitMatch line again region.limitCaptures m (s.cover m.start))
          (emitMatch line again' region.limitCaptures m (s.cover m.start)) := by
        refine emitMatch_agree fun group span f hasks => h s.frames.top.rule group span _ ?_
        exact ⟨_, hrule, region.limitCaptures, by simp [Rule.tables], hasks.rule⟩
      exact (hemit.bind fun _ _ => agree_ok _).bind fun _ _ => agree_ok _
    next => exact agree_ok _
  next => exact agree_ok _

theorem checkFrames_agree (point : ScanPoint) (run : TokenRun) (top : Frame) (below : List Frame) :
    Agree (g.checkFrames line again point run top below)
      (g.checkFrames line again' point run top below) := by
  induction below generalizing top with
  | nil => exact checkTop_agree h _
  | cons f below ih =>
    refine (ih f).bind fun w _ => ?_
    split
    · exact agree_ok _
    · exact checkTop_agree h _

theorem checkWhile_agree (fs : Frames) (isTextStart : Bool) :
    Agree (g.checkWhile line again fs isTextStart) (g.checkWhile line again' fs isTextStart) :=
  (checkFrames_agree h _ _ _ _).bind fun _ _ => agree_ok _

end

end Grammar

end GrammarScopes
