import GrammarScopes.Proofs.Tokenizer.Partition
import GrammarScopes.Proofs.Tokenizer.Termination

/-!
Regions that nothing inside them can leave.  The rules inside consume text when they start and are only
ended by patterns of their own, so that the region stays as long as its own end is not found.
-/

namespace GrammarScopes

def CaptureTable.IsPlain (table : CaptureTable) : Prop := ∀ e ∈ table, e.2.retokenize = none

theorem CaptureContext.emit_ok {c : CaptureContext} {table : CaptureTable} {again : Retokenize}
    (h : table.IsPlain) (run : TokenRun) : ∃ run', c.emit again table run = .ok run' := by
  refine exists_ok_bind (exists_ok_foldlM (fun s g hg => ?_) _) fun s _ => ⟨_, rfl⟩
  obtain ⟨group, hrule, -, -⟩ := mem_groups hg
  have hplain := h _ (CaptureTable.mem_of_rule? hrule)
  unfold step
  dsimp only at hplain ⊢
  rw [hplain]
  dsimp only
  split <;> exact ⟨_, rfl⟩

theorem Rule.beginCaptures_mem {rule : Rule} {region : Region} (h : rule.region? = some region) :
    region.beginCaptures ∈ rule.tables := by
  cases rule with
  | container | single => cases h
  | beginEnd | beginWhile => cases h; exact List.mem_cons_self

theorem Frames.depth_mapFrames (fs : Frames) (change : Frame → Frame) :
    (fs.mapFrames change).depth = fs.depth := by
  simp only [depth, mapFrames, List.length_map]

theorem Frames.depth_of_mapFrames {fs fs' : Frames} {change : Frame → Frame}
    (h : fs.mapFrames change = fs'.mapFrames change) : fs.depth = fs'.depth := by
  rw [← fs.depth_mapFrames change, h, fs'.depth_mapFrames change]

abbrev Anywhere : Line → Nat → Prop := fun _ _ => True

theorem ScanMatch.within_anywhere (m : ScanMatch) (line : Line) : m.Within (Anywhere line) :=
  fun _ _ => ⟨trivial, trivial⟩

theorem TokenRun.scopes_of_mem_finish {P : Nat → Prop} {S : List String → Prop} {pos : Nat}
    {run : TokenRun} (h : (TokenRun.startingAt pos).GrowsBy (Admits P S) run) {line : Line} :
    ∀ t ∈ run.finish line, S t.scopes := by
  intro t ht
  obtain ⟨b, hb, rfl⟩ := List.mem_map.mp ht
  obtain ⟨v, hv, hscopes, -⟩ := mem_trimLast_dropBreak (List.mem_reverse.mp hb)
  have hlatest := h.forall_latest (by simp [startingAt]) v hv
  exact hscopes ▸ hlatest.2

namespace Grammar

variable {g : Grammar} {line : Line} {again : Retokenize} {S : List String → Prop} {base : Frames}
  {ids : List RuleId} {s : ScanState} {m : ScanMatch}

theorem emitMatch_ok {table : CaptureTable} (h : table.IsPlain) :
    ∃ u, emitMatch line again table m s = .ok u :=
  exists_ok_bind (CaptureContext.emit_ok h _) fun _ _ => ⟨_, rfl⟩

theorem endRegion_ok {region : Region} (h : region.limitCaptures.IsPlain) :
    ∃ p, endRegion line again region m s = .ok p := by
  refine exists_ok_bind (emitMatch_ok h) fun u _ => ?_
  dsimp only
  split
  · exact ⟨_, rfl⟩
  · split <;> exact ⟨_, rfl⟩

theorem startRule_ok {id : RuleId}
    (h : ∀ rule, g.rule? id = some rule → rule.startCaptures.IsPlain) :
    ∃ p, g.startRule line again id m s = .ok p := by
  unfold startRule
  dsimp only
  split
  next rule hrule =>
    have hbegin (region : Region) (hregion : rule.startCaptures = region.beginCaptures) :
        ∃ p, beginRegion line again region m (starting line id rule m s) = .ok p := by
      refine exists_ok_bind (emitMatch_ok (hregion ▸ h rule hrule)) fun u _ => ?_
      dsimp only
      split <;> exact ⟨_, rfl⟩
    split
    next region last => exact hbegin region rfl
    next region => exact hbegin region rfl
    next name pattern captures =>
      refine exists_ok_bind (emitMatch_ok (h _ hrule)) fun u _ => ?_
      split <;> exact ⟨_, rfl⟩
    next => exact ⟨_, rfl⟩
  next => exact ⟨_, rfl⟩

theorem step_ok {next : Option (Winner × ScanMatch)}
    (hnext : g.nextMatch line s.frames.top s.point = .ok next)
    (hlimit : ∀ region m, next = some (.limit region, m) → region.limitCaptures.IsPlain)
    (hstart : ∀ id m, next = some (.rule id, m) → ∀ rule, g.rule? id = some rule →
      rule.startCaptures.IsPlain) : ∃ p, g.step line again s = .ok p := by
  refine exists_ok_bind ⟨next, hnext⟩ fun x hx => ?_
  cases hnext.symm.trans hx
  cases next with
  | none => exact ⟨_, rfl⟩
  | some wm =>
    obtain ⟨winner, m⟩ := wm
    cases winner with
    | limit region =>
      exact exists_ok_bind (endRegion_ok (hlimit region m rfl)) fun p _ => by cases p <;> exact ⟨_, rfl⟩
    | rule id =>
      exact exists_ok_bind (startRule_ok (hstart id m rfl)) fun p _ => by cases p <;> exact ⟨_, rfl⟩

def Compiles (g : Grammar) (patterns : List String) : Prop :=
  ∀ a : Anchoring, ∃ matcher, g.scanner.compile (patterns.map a.patternText) = .ok matcher

/-- What may start inside a rule: one of `ids`, and only by consuming text. -/
structure StartsWithin (g : Grammar) (ids : List RuleId) (id : RuleId) : Prop where
  mem : ∀ c ∈ candidates g.rules id, c ∈ ids
  compiles : g.Compiles (g.startPatterns id)
  consumes : ∀ line p m, g.Finds line p (g.startPatterns id) m → p.pos < m.stop

/-- A rule that keeps to a class of scopes, and asks for nothing but its own patterns. -/
structure IsInner (g : Grammar) (S : List String → Prop) (rule : Rule) : Prop where
  ends : ∀ region, rule ≠ .beginWhile region
  name : KeepsScopes S rule.name?
  plain : ∀ table ∈ rule.tables, table.IsPlain
  names : ∀ table ∈ rule.tables, ∀ e ∈ table, KeepsScopes S e.2.name ∧ KeepsScopes S e.2.contentName
  contentName : ∀ region, rule.region? = some region → KeepsScopes S region.contentName
  fixedLimit : ∀ region, rule.region? = some region → region.hasBackReferences = false
  limit : ∀ region, rule.region? = some region → g.Compiles [region.limitSource]

theorem IsInner.plain_startCaptures {rule : Rule} (h : g.IsInner S rule) :
    rule.startCaptures.IsPlain := by
  cases rule with
  | container => exact fun e he => nomatch he
  | single => exact h.plain _ (List.mem_singleton_self _)
  | beginEnd => exact h.plain _ List.mem_cons_self
  | beginWhile => exact h.plain _ List.mem_cons_self

theorem IsInner.sound {P : Line → Nat → Prop} {rule : Rule} (h : g.IsInner S rule)
    {table : CaptureTable} (htable : table ∈ rule.tables) (fs : Frames) :
    table.Sound P S again fs :=
  ⟨h.names table htable, fun e he hagain => absurd (h.plain table htable e he) hagain⟩

def NotWhile (g : Grammar) (id : RuleId) : Prop := ∀ region, g.rule? id ≠ some (.beginWhile region)

/-- The rules `ids` and no others can be active inside the region on top of `base`. -/
structure Encloses (g : Grammar) (base : Frames) (ids : List RuleId) (S : List String → Prop) : Prop where
  region : ∃ region endLast, g.rule? base.top.rule = some (.beginEnd region endLast) ∧
    g.Compiles [region.limitSource]
  limit : base.top.limit = none
  scopes : S base.top.contentScopes
  outer : ∀ f ∈ base.below, g.NotWhile f.rule
  starts : ∀ id, id = base.top.rule ∨ id ∈ ids → g.StartsWithin ids id
  inner : ∀ id ∈ ids, ∃ rule, g.rule? id = some rule ∧ g.IsInner S rule

def NoEndFrom (g : Grammar) (r : RuleId) (line : Line) (pos : Nat) : Prop :=
  ∀ region endLast, g.rule? r = some (.beginEnd region endLast) →
    ∀ p m, pos ≤ p.pos → ¬ g.Finds line p [region.limitSource] m

abbrev NoEnd (g : Grammar) (r : RuleId) (line : Line) : Prop := g.NoEndFrom r line 0

theorem NoEndFrom.mono {r : RuleId} {pos pos' : Nat} (h : g.NoEndFrom r line pos) (hle : pos ≤ pos') :
    g.NoEndFrom r line pos' :=
  fun region endLast hr p m hp => h region endLast hr p m (hle.trans hp)

/-- No rule of `ids` ends where the line begins, unless its end reaches further. -/
def EndPastStart (g : Grammar) (ids : List RuleId) (line : Line) : Prop :=
  ∀ id ∈ ids, ∀ region endLast, g.rule? id = some (.beginEnd region endLast) →
    ∀ p m, p.pos = 0 → g.Finds line p [region.limitSource] m → 0 < m.stop

theorem checkFrames_eq {point : ScanPoint} {run : TokenRun} {f : Frame} {below : List Frame}
    (h : ∀ f' ∈ f :: below, g.NotWhile f'.rule) :
    g.checkFrames line again point run f below = .ok ⟨⟨⟨f, below⟩, point, run⟩, false⟩ := by
  have htop (s : ScanState) (hs : g.NotWhile s.frames.top.rule) :
      g.checkTop line again s = .ok ⟨s, false⟩ := by
    unfold checkTop
    split
    next region hrule => exact absurd hrule (hs region)
    next => rfl
  induction below generalizing f with
  | nil => exact htop _ (h f List.mem_cons_self)
  | cons outer below ih =>
    obtain ⟨hf, hbelow⟩ := List.forall_mem_cons.mp h
    simp only [checkFrames, ih hbelow, bind, Except.bind]
    exact htop _ hf

theorem checkWhile_eq {fs : Frames} (h : ∀ f ∈ fs.top :: fs.below, g.NotWhile f.rule)
    (isTextStart : Bool) :
    g.checkWhile line again fs isTextStart =
      .ok ⟨fs, ⟨0, isTextStart, if fs.top.beganAtEnd then some 0 else none⟩, .startingAt 0⟩ := by
  simp only [checkWhile, checkFrames_eq h, bind, Except.bind]
  rfl

/-- The frames of `base` are active, but for positions on their lines, and on top of them only rules that the
region encloses. -/
inductive Enclosed (g : Grammar) (base : Frames) (ids : List RuleId) (S : List String → Prop) :
    Frame → List Frame → Prop
  | region {f : Frame} {outer : List Frame}
      (h : (⟨f, outer⟩ : Frames).mapFrames Frame.forNextLine = base.mapFrames Frame.forNextLine) :
      Enclosed g base ids S f outer
  | inner {f outer : Frame} {below : List Frame} :
      Enclosed g base ids S outer below → f.rule ∈ ids → f.limit = none → f.Scoped S →
      Enclosed g base ids S f (outer :: below)

section

variable {f : Frame} {below : List Frame}

theorem Enclosed.forNextLine (h : g.Enclosed base ids S f below) :
    g.Enclosed base ids S f.forNextLine (below.map Frame.forNextLine) := by
  induction h with
  | @region f outer h =>
    refine .region ?_
    rw [← h]
    have hagain : Frame.forNextLine ∘ Frame.forNextLine = Frame.forNextLine := rfl
    simp only [Frames.mapFrames, List.map_map, hagain]
    rfl
  | inner _ hmem hlimit hscoped ih => exact .inner ih hmem hlimit hscoped

theorem Enclosed.depth_le (h : g.Enclosed base ids S f below) : base.depth ≤ (⟨f, below⟩ : Frames).depth := by
  induction h with
  | region h => exact Nat.le_of_eq (Frames.depth_of_mapFrames h).symm
  | inner _ _ _ _ ih => exact Nat.le_succ_of_le ih

theorem Enclosed.eq_of_depth (h : g.Enclosed base ids S f below)
    (hdepth : (⟨f, below⟩ : Frames).depth = base.depth) :
    (⟨f, below⟩ : Frames).mapFrames Frame.forNextLine = base.mapFrames Frame.forNextLine := by
  cases h with
  | region h => exact h
  | inner houter _ _ _ =>
    have hle := houter.depth_le
    rw [← hdepth] at hle
    exact absurd hle (Nat.not_succ_le_self _)

theorem Enclosed.rule_of_region
    (h : (⟨f, below⟩ : Frames).mapFrames Frame.forNextLine = base.mapFrames Frame.forNextLine) :
    f.rule = base.top.rule :=
  congrArg (fun fs : Frames => fs.top.rule) h

end

section

variable (hg : g.WellFormed) (henc : g.Encloses base ids S)

include henc

section

variable {f : Frame} {below : List Frame} (h : g.Enclosed base ids S f below)

include h

theorem Enclosed.scopes : S f.contentScopes := by
  cases h with
  | region h =>
    have hscopes : f.contentScopes = base.top.contentScopes :=
      congrArg (fun fs : Frames => fs.top.contentScopes) h
    exact hscopes ▸ henc.scopes
  | inner _ _ _ hscoped => exact hscoped.2

omit henc in
theorem Enclosed.mem : f.rule = base.top.rule ∨ f.rule ∈ ids := by
  cases h with
  | region h => exact .inl (rule_of_region h)
  | inner _ hmem _ _ => exact .inr hmem

theorem Enclosed.limit : f.limit = none := by
  cases h with
  | region h =>
    have hlimit : f.limit = base.top.limit := congrArg (fun fs : Frames => fs.top.limit) h
    exact hlimit.trans henc.limit
  | inner _ _ hlimit _ => exact hlimit

theorem Enclosed.notWhile : ∀ f' ∈ f :: below, g.NotWhile f'.rule := by
  induction h with
  | @region f outer h =>
    refine List.forall_mem_cons.mpr ⟨fun region hrule => ?_, fun f' hf' => ?_⟩
    · obtain ⟨_, _, hregion, -⟩ := henc.region
      rw [rule_of_region h, hregion] at hrule
      cases hrule
    · have houter : outer.map Frame.forNextLine = base.below.map Frame.forNextLine := congrArg (·.below) h
      have hmem : f'.forNextLine ∈ base.below.map Frame.forNextLine := houter ▸ List.mem_map_of_mem hf'
      obtain ⟨f₀, hf₀, heq⟩ := List.mem_map.mp hmem
      have hrule : f₀.forNextLine.rule = f'.forNextLine.rule := congrArg Frame.rule heq
      have hrule : f₀.rule = f'.rule := hrule
      exact hrule ▸ henc.outer f₀ hf₀
  | inner _ hmem _ _ ih =>
    refine List.forall_mem_cons.mpr ⟨fun region hrule => ?_, ih⟩
    obtain ⟨rule, hrule', hinner⟩ := henc.inner _ hmem
    cases hrule'.symm.trans hrule
    exact hinner.ends region rfl

end

theorem Encloses.limitCompiles {id : RuleId} (hid : id = base.top.rule ∨ id ∈ ids) {region : Region}
    {endLast : Bool} (hrule : g.rule? id = some (.beginEnd region endLast)) :
    g.Compiles [region.limitSource] := by
  rcases hid with rfl | hmem
  · obtain ⟨_, _, hregion, hcompiles⟩ := henc.region
    cases hregion.symm.trans hrule
    exact hcompiles
  · obtain ⟨rule, hrule', hinner⟩ := henc.inner id hmem
    cases hrule'.symm.trans hrule
    exact hinner.limit region rfl

include hg

omit henc in
theorem ruleMatch_ok {f : Frame} (hcompiles : g.Compiles (g.startPatterns f.rule)) (p : ScanPoint) :
    ∃ x, g.ruleMatch line f p = .ok x := by
  cases hset : g.scanSet? f.rule with
  | none => exact ⟨none, by rw [ruleMatch, hset]; rfl⟩
  | some set =>
    by_cases hnone : candidates g.rules f.rule = []
    · obtain rfl := hg.scanSet?_eq hset
      exact ⟨none, by simp [ruleMatch, hset, ScanSet.ofRule, hnone, pure, Except.pure]⟩
    · obtain ⟨matcher, hmatcher⟩ := hcompiles p.anchoring
      rw [ruleMatch_eq hg hset hnone, hmatcher]
      exact ⟨_, rfl⟩

theorem Enclosed.nextMatch_ok {f : Frame} {below : List Frame} (h : g.Enclosed base ids S f below)
    (p : ScanPoint) : ∃ next, g.nextMatch line f p = .ok next := by
  have hrule : ∃ x, g.ruleMatch line f p = .ok x :=
    ruleMatch_ok hg (henc.starts f.rule h.mem).compiles p
  have hend : ∃ x, g.endMatch line f p = .ok x := by
    unfold endMatch
    split
    next region endLast hrule =>
      obtain ⟨matcher, hmatcher⟩ := henc.limitCompiles h.mem hrule p.anchoring
      rw [limitMatcher_eq hg hrule rfl, Frame.limitSource, h.limit henc]
      exact exists_ok_bind ⟨matcher, orPatternError_eq_ok.mpr hmatcher⟩ fun _ _ => ⟨_, rfl⟩
    next => exact ⟨_, rfl⟩
  exact exists_ok_bind hrule fun _ _ => exists_ok_bind hend fun _ _ => ⟨_, rfl⟩

theorem Enclosed.next {f : Frame} {below : List Frame} {p : ScanPoint}
    (hend : (⟨f, below⟩ : Frames).depth = base.depth → g.NoEndFrom base.top.rule line p.pos)
    (h : g.Enclosed base ids S f below) {w : Winner}
    (hnext : g.nextMatch line f p = .ok (some (w, m))) :
    (∃ id ∈ ids, w = .rule id ∧ p.pos < m.stop ∧
        ∃ rule, g.rule? id = some rule ∧ g.IsInner S rule) ∨
      ∃ region endLast outer rest, w = .limit region ∧ below = outer :: rest ∧
        g.Enclosed base ids S outer rest ∧ f.rule ∈ ids ∧ f.limit = none ∧ f.Scoped S ∧
        g.IsInner S (.beginEnd region endLast) := by
  rcases nextMatch_eq_ok hg hnext with ⟨id, hmem, rfl, hfinds⟩ | ⟨region, endLast, rfl, hrule, hfinds⟩
  · left
    have hstarts := henc.starts f.rule h.mem
    have hid := hstarts.mem id hmem
    exact ⟨id, hid, rfl, hstarts.consumes line p m hfinds, henc.inner id hid⟩
  · right
    rw [Frame.limitSource, h.limit henc] at hfinds
    cases h with
    | region h =>
      have hnone := hend (Frames.depth_of_mapFrames h) region endLast (Enclosed.rule_of_region h ▸ hrule)
      exact absurd hfinds (hnone p m (Nat.le_refl _))
    | @inner _ outer rest houter hmem hlimit hscoped =>
      obtain ⟨rule, hrule', hinner⟩ := henc.inner _ hmem
      cases hrule'.symm.trans hrule
      exact ⟨region, endLast, outer, rest, rfl, rfl, houter, hmem, hlimit, hscoped, hinner⟩

theorem Enclosed.step_ok (hend : s.frames.depth = base.depth → g.NoEndFrom base.top.rule line s.point.pos)
    (hs : g.Enclosed base ids S s.frames.top s.frames.below) : ∃ p, g.step line again s = .ok p := by
  obtain ⟨next, hnext⟩ : ∃ next, g.nextMatch line s.frames.top s.point = .ok next :=
    hs.nextMatch_ok hg henc s.point
  refine Grammar.step_ok hnext ?_ ?_
  · rintro region m rfl
    rcases hs.next hg henc hend hnext with ⟨_, _, hw, _⟩ | ⟨_, _, _, _, hw, _, _, _, _, _, hinner⟩
    · cases hw
    · cases hw
      exact hinner.plain _ (by simp [Rule.tables])
  · rintro id m rfl rule hrule
    rcases hs.next hg henc hend hnext with ⟨_, _, hw, _, _, hrule', hinner⟩ | ⟨_, _, _, _, hw, _⟩
    · cases hw
      cases hrule'.symm.trans hrule
      exact hinner.plain_startCaptures
    · cases hw

theorem Enclosed.closing (hend : s.frames.depth = base.depth → g.NoEndFrom base.top.rule line s.point.pos)
    {region : Region} {u : ScanState} (hs : g.Enclosed base ids S s.frames.top s.frames.below)
    (hnext : g.nextMatch line s.frames.top s.point = .ok (some (.limit region, m)))
    (hu : emitMatch line again region.limitCaptures m (s.closing m) = .ok u) :
    g.Enclosed base ids S u.frames.top u.frames.below ∧
      (∃ outer rest, s.frames.below = outer :: rest ∧ g.Enclosed base ids S outer rest) ∧
      s.run.GrowsBy (Admits (fun _ => True) S) u.run := by
  rcases hs.next hg henc hend hnext with ⟨_, _, hw, _⟩ |
    ⟨_, _, outer, rest, hw, hbelow, houter, hmem, hlimit, hscoped, hinner⟩
  · cases hw
  · cases hw
    refine ⟨?_, ⟨outer, rest, hbelow, houter⟩, ?_⟩
    · rw [(emitMatch_eq_ok hu).1]
      change g.Enclosed base ids S { s.frames.top with contentScopes := _ } s.frames.below
      rw [hbelow]
      exact .inner houter hmem hlimit ⟨hscoped.1, hscoped.1⟩
    · have htable : region.limitCaptures.Sound Anywhere S again (s.closing m).frames :=
        hinner.sound (by simp [Rule.tables]) _
      have hcover : s.run.GrowsBy (Admits (Anywhere line) S) (s.cover m.start).run :=
        cover_grows (hs.scopes henc) trivial
      have hemit := emitMatch_grows true_places htable hscoped.1 (m.within_anywhere line) hu
      exact hcover.trans hemit

theorem Enclosed.starting (hend : s.frames.depth = base.depth → g.NoEndFrom base.top.rule line s.point.pos)
    {id : RuleId} {rule : Rule} {table : CaptureTable} {u : ScanState}
    (hs : g.Enclosed base ids S s.frames.top s.frames.below)
    (hnext : g.nextMatch line s.frames.top s.point = .ok (some (.rule id, m)))
    (hrule : g.rule? id = some rule) (htable : table ∈ rule.tables)
    (hu : emitMatch line again table m (starting line id rule m s) = .ok u) :
    id ∈ ids ∧ s.point.pos < m.stop ∧ g.IsInner S rule ∧
      s.run.GrowsBy (Admits (fun _ => True) S) u.run := by
  rcases hs.next hg henc hend hnext with ⟨_, hid, hw, hpos, _, hrule', hinner⟩ | ⟨_, _, _, _, hw, _⟩
  · cases hw
    cases hrule'.symm.trans hrule
    have hsound : table.Sound Anywhere S again (Grammar.starting line id rule m s).frames :=
      hinner.sound htable _
    have hcover : s.run.GrowsBy (Admits (Anywhere line) S) (s.cover m.start).run :=
      cover_grows (hs.scopes henc) trivial
    have hname := hinner.name line m.captures _ (hs.scopes henc)
    have hemit := emitMatch_grows true_places hsound hname (m.within_anywhere line) hu
    exact ⟨hid, hpos, hinner, hcover.trans hemit⟩
  · cases hw

/-- The region stays, whatever one match does. -/
theorem Enclosed.step (hend : s.frames.depth = base.depth → g.NoEndFrom base.top.rule line s.point.pos)
    {p : Progress} (hs : g.Enclosed base ids S s.frames.top s.frames.below) (h : g.step line again s = .ok p) :
    g.Enclosed base ids S p.state.frames.top p.state.frames.below ∧
      s.run.GrowsBy (Admits (fun _ => True) S) p.state.run := by
  have hdone {t : ScanState} (ht : g.Enclosed base ids S t.frames.top t.frames.below)
      (hgrow : s.run.GrowsBy (Admits (fun _ => True) S) t.run) :
      g.Enclosed base ids S t.frames.top t.frames.below ∧
        s.run.GrowsBy (Admits (fun _ => True) S) (t.cover line.size).run :=
    ⟨ht, hgrow.extend ⟨trivial, ht.scopes henc⟩⟩
  cases step_outcome h with
  | rest hnext => exact hdone hs .refl
  | kept hnext hu =>
    obtain ⟨hframes, -, hgrow⟩ := hs.closing hg henc hend hnext hu
    exact hdone hframes hgrow
  | left hnext hu hbelow _ =>
    obtain ⟨-, ⟨outer, rest, hbelow', houter⟩, hgrow⟩ := hs.closing hg henc hend hnext hu
    cases hbelow.symm.trans hbelow'
    exact ⟨houter, hgrow⟩
  | @entered id rule region m u hnext hrule hregion hu _ =>
    obtain ⟨hid, -, hinner, hgrow⟩ :=
      hs.starting hg henc hend hnext hrule (Rule.beginCaptures_mem hregion) hu
    have hname := hinner.name line m.captures _ (hs.scopes henc)
    have hcontent := hinner.contentName region hregion line m.captures _ hname
    have hlimit : (enteredFrame line region m (startedFrame line id rule m s)).limit = none := by
      simp [enteredFrame, hinner.fixedLimit region hregion, startedFrame]
    exact ⟨.inner hs hid hlimit ⟨hname, hcontent⟩, hgrow⟩
  -- what starts inside consumes text, so that it is neither left at once nor ends what is active
  | repeated hnext hrule hregion hu hle _ =>
    obtain ⟨-, hlt, -⟩ := hs.starting hg henc hend hnext hrule (Rule.beginCaptures_mem hregion) hu
    omega
  | single hnext hrule hu _ =>
    obtain ⟨-, -, -, hgrow⟩ :=
      hs.starting hg henc hend hnext hrule (List.mem_singleton_self _) hu
    exact ⟨hs, hgrow⟩
  | emptySingle hnext hrule hu hle =>
    obtain ⟨-, hlt, -⟩ := hs.starting hg henc hend hnext hrule (List.mem_singleton_self _) hu
    omega
  | @nothing id m hnext _ =>
    have hcover : s.run.GrowsBy (Admits (Anywhere line) S) (s.cover m.start).run :=
      cover_grows (hs.scopes henc) trivial
    exact hdone (t := s.cover m.start) hs hcover

omit hg henc in
theorem step_pos_le {t : ScanState} (h : g.step line again s = .ok (.more t)) : s.point.pos ≤ t.point.pos := by
  cases step_outcome h with
  | left | entered | single =>
    simp only [ScanPoint.advance_pos]
    exact Nat.le_max_left _ _

/-- Deeper inside the region, a match at the start of the line moves on. -/
theorem Enclosed.step_moves (hpast : g.EndPastStart ids line) (hdepth : s.frames.depth ≠ base.depth)
    {t : ScanState} (hpos : s.point.pos = 0) (hs : g.Enclosed base ids S s.frames.top s.frames.below)
    (h : g.step line again s = .ok (.more t)) : 0 < t.point.pos := by
  have hend : s.frames.depth = base.depth → g.NoEndFrom base.top.rule line s.point.pos :=
    fun h => absurd h hdepth
  cases step_outcome h with
  | @left region m _ _ _ hnext _ _ _ =>
    obtain ⟨endLast, hrule, hfinds⟩ : ∃ endLast,
        g.rule? s.frames.top.rule = some (.beginEnd region endLast) ∧
          g.Finds line s.point [region.limitSource] m := by
      rcases nextMatch_eq_ok hg hnext with ⟨_, _, hw, _⟩ | ⟨_, endLast, hw, hrule, hfinds⟩
      · cases hw
      · cases hw
        rw [Frame.limitSource, hs.limit henc] at hfinds
        exact ⟨endLast, hrule, hfinds⟩
    have hmem : s.frames.top.rule ∈ ids := by
      rcases hs.next hg henc hend hnext with ⟨_, _, hw, _⟩ | ⟨_, _, _, _, _, _, _, hmem, _⟩
      · cases hw
      · exact hmem
    have hstop := hpast _ hmem region endLast hrule s.point m hpos hfinds
    exact hstop.trans_le (by simp only [ScanPoint.advance_pos]; exact Nat.le_max_right _ _)
  | entered hnext hrule hregion hu _ =>
    obtain ⟨-, hlt, -⟩ := hs.starting hg henc hend hnext hrule (Rule.beginCaptures_mem hregion) hu
    simp only [ScanPoint.advance_pos]
    omega
  | single hnext hrule hu hlt =>
    simp only [ScanPoint.advance_pos]
    omega

theorem Enclosed.scans (hend : g.NoEndFrom base.top.rule line s.point.pos) {x : Except GrammarError ScanState}
    (hs : g.Enclosed base ids S s.frames.top s.frames.below) (h : g.Scans line again s x) :
    ∃ t, x = .ok t ∧ g.Enclosed base ids S t.frames.top t.frames.below ∧
      s.run.GrowsBy (Admits (fun _ => True) S) t.run := by
  induction h with
  | @done s t h =>
    obtain ⟨hframes, hgrow⟩ := hs.step hg henc (fun _ => hend) h
    exact ⟨t, rfl, hframes, hgrow⟩
  | @error s e h =>
    obtain ⟨p, hp⟩ : ∃ p, g.step line again s = .ok p := hs.step_ok hg henc (fun _ => hend)
    cases hp.symm.trans h
  | @more s t x h _ ih =>
    obtain ⟨hframes, hgrow⟩ := hs.step hg henc (fun _ => hend) h
    obtain ⟨u, hu, hframes', hgrow'⟩ := ih (hend.mono (step_pos_le h)) hframes
    exact ⟨u, hu, hframes', hgrow.trans hgrow'⟩

section Lines

open Relation (ReflTransGen)

variable (hends : g.scanner.EndsInLine) {n : Nat} {text : String}

include hends

omit henc in
theorem tokenizeNested_of_scans {stack : RuleStack} {u : ScanState}
    (hcheck : g.checkWhile (.ofText text) (g.retokenize n) (g.startFrames stack) stack.isInitial = .ok s)
    (h : g.Scans (.ofText text) (g.retokenize n) s (.ok u)) :
    g.tokenizeNested n text stack = .ok ⟨u.run.finish (.ofText text), .active u.frames⟩ := by
  simp only [tokenizeNested, hcheck, bind, Except.bind]
  rw [h.scanAll_eq hg hends]
  rfl

omit henc in
theorem tokenizeNested_unmatched {fs : Frames} (hwhile : ∀ f ∈ fs.toList, g.NotWhile f.rule)
    (hnone : ∀ p, g.nextMatch (.ofText text) fs.top.forNextLine p = .ok none) :
    ∃ tokens, g.tokenizeNested n text (.active fs) =
        .ok ⟨tokens, .active (fs.mapFrames Frame.forNextLine)⟩ ∧
      ∀ t ∈ tokens, t.scopes = fs.top.contentScopes := by
  have hwhile : ∀ f ∈ (fs.mapFrames Frame.forNextLine).toList, g.NotWhile f.rule := by
    intro f hf
    have hf : f ∈ fs.toList.map Frame.forNextLine := hf
    obtain ⟨f', hf', rfl⟩ := List.mem_map.mp hf
    exact hwhile f' hf'
  obtain ⟨s, hcheck, hframes, hrun⟩ : ∃ s : ScanState,
      g.checkWhile (.ofText text) (g.retokenize n) (g.startFrames (.active fs)) false = .ok s ∧
        s.frames = fs.mapFrames Frame.forNextLine ∧ s.run = .startingAt 0 :=
    ⟨_, checkWhile_eq hwhile false, rfl, rfl⟩
  have hnext : g.nextMatch (.ofText text) s.frames.top s.point = .ok none := hframes ▸ hnone s.point
  have hstep : g.step (.ofText text) (g.retokenize n) s = .ok (.done (s.cover (Line.ofText text).size)) := by
    rw [Grammar.step, hnext]
    rfl
  have hscopes : s.frames.top.contentScopes = fs.top.contentScopes := by rw [hframes]; rfl
  have hgrow : (TokenRun.startingAt 0).GrowsBy (Admits (fun _ => True) (· = fs.top.contentScopes))
      (s.cover (Line.ofText text).size).run := hrun ▸ .extend .refl ⟨trivial, hscopes⟩
  have hframes : (s.cover (Line.ofText text).size).frames = fs.mapFrames Frame.forNextLine := hframes
  exact ⟨_, hframes ▸ tokenizeNested_of_scans hg hends hcheck (.done hstep),
    TokenRun.scopes_of_mem_finish hgrow⟩

theorem Enclosed.ofFollows {stack : RuleStack} {t : ScanState}
    (hend : g.NoEndFrom base.top.rule (.ofText text) t.point.pos)
    (hcheck : g.checkWhile (.ofText text) (g.retokenize n) (g.startFrames stack) stack.isInitial =
      .ok s)
    (hfollows : ReflTransGen (g.Follows (.ofText text) (g.retokenize n)) s t)
    (ht : g.Enclosed base ids S t.frames.top t.frames.below) :
    ∃ u : ScanState, g.tokenizeNested n text stack =
        .ok ⟨u.run.finish (.ofText text), .active u.frames⟩ ∧
      g.Enclosed base ids S u.frames.top u.frames.below ∧
      t.run.GrowsBy (Admits (fun _ => True) S) u.run := by
  obtain ⟨x, hx⟩ : ∃ x, g.Scans (.ofText text) (g.retokenize n) t x := exists_scans hg hends t
  obtain ⟨u, rfl, hframes, hgrow⟩ := ht.scans hg henc hend hx
  exact ⟨u, tokenizeNested_of_scans hg hends hcheck (Scans.of_follows hfollows hx), hframes, hgrow⟩

theorem Enclosed.tokenizeNested_ok (hend : g.NoEnd base.top.rule (.ofText text)) {fs : Frames}
    (hfs : g.Enclosed base ids S fs.top fs.below) :
    ∃ tokens fs', g.tokenizeNested n text (.active fs) = .ok ⟨tokens, .active fs'⟩ ∧
      g.Enclosed base ids S fs'.top fs'.below ∧ ∀ t ∈ tokens, S t.scopes := by
  have hstart := hfs.forNextLine
  have hcheck : g.checkWhile (.ofText text) (g.retokenize n) (g.startFrames (.active fs)) false = _ :=
    checkWhile_eq (hstart.notWhile henc) false
  obtain ⟨u, hu, hframes, hgrow⟩ := Enclosed.ofFollows hg henc hends hend hcheck .refl hstart
  exact ⟨_, _, hu, hframes, TokenRun.scopes_of_mem_finish hgrow⟩

theorem Enclosed.tokenizeNested_deeper (hend : g.NoEndFrom base.top.rule (.ofText text) 1)
    (hpast : g.EndPastStart ids (.ofText text)) {fs : Frames}
    (hfs : g.Enclosed base ids S fs.top fs.below) (hdepth : fs.depth ≠ base.depth) :
    ∃ tokens fs', g.tokenizeNested n text (.active fs) = .ok ⟨tokens, .active fs'⟩ ∧
      g.Enclosed base ids S fs'.top fs'.below := by
  have hstart := hfs.forNextLine
  obtain ⟨s, hcheck, hframes, hpos⟩ : ∃ s : ScanState,
      g.checkWhile (.ofText text) (g.retokenize n) (g.startFrames (.active fs)) false = .ok s ∧
        s.frames = fs.mapFrames Frame.forNextLine ∧ s.point.pos = 0 :=
    ⟨_, checkWhile_eq (hstart.notWhile henc) false, rfl, rfl⟩
  have hs : g.Enclosed base ids S s.frames.top s.frames.below := hframes ▸ hstart
  have hdeep : s.frames.depth ≠ base.depth := by
    rwa [hframes, Frames.depth_mapFrames]
  obtain ⟨p, hp⟩ : ∃ p, g.step (.ofText text) (g.retokenize n) s = .ok p :=
    hs.step_ok hg henc fun h => absurd h hdeep
  cases p with
  | done t =>
    obtain ⟨hkept, -⟩ := hs.step hg henc (fun h => absurd h hdeep) hp
    exact ⟨_, _, tokenizeNested_of_scans hg hends hcheck (.done hp), hkept⟩
  | more t =>
    obtain ⟨hkept, -⟩ := hs.step hg henc (fun h => absurd h hdeep) hp
    have hmoved := hs.step_moves hg henc hpast hdeep hpos hp
    obtain ⟨u, hu, hkept, -⟩ :=
      Enclosed.ofFollows hg henc hends (hend.mono hmoved) hcheck (.single hp) hkept
    exact ⟨_, _, hu, hkept⟩

end Lines

end

end Grammar

end GrammarScopes
