import GrammarScopes.Proofs.Tokenizer.MatchReach

/-!
The scopes of the tokens of a match whose groups are nested: every byte has the names of the groups around it.  What
carries the proof is that the open groups lie around each other, so that they tell the scopes of all that follows.
-/

namespace GrammarScopes

def Span.contains (s : Span) (b : Nat) : Bool := s.start ≤ b && b < s.stop

def ByteToken.contains (t : ByteToken) (b : Nat) : Bool := t.start ≤ b && b < t.stop

@[simp] theorem Span.contains_iff {s : Span} {b : Nat} : s.contains b = true ↔ s.start ≤ b ∧ b < s.stop := by
  simp [contains]

@[simp] theorem ByteToken.contains_iff {t : ByteToken} {b : Nat} : t.contains b = true ↔ t.start ≤ b ∧ b < t.stop := by
  simp [contains]

theorem pushScopes_eq_append (base : List String) (name : Option String) :
    pushScopes base name = base ++ pushScopes [] name := by
  cases name <;> simp [pushScopes]

namespace TokenRun

variable {f f' : Nat → List String} {r r' : TokenRun}

theorem Spans.countP_contains {first stop : Nat} {ts : List ByteToken} (h : Spans first ts stop) (b : Nat) :
    ts.countP (·.contains b) = if first ≤ b ∧ b < stop then 1 else 0 := by
  induction h with
  | nil =>
    rw [List.countP_nil, if_neg]
    omega
  | cons hspans hlt ih =>
    have hle := hspans.le
    rw [List.countP_cons, ih]
    simp only [ByteToken.contains_iff]
    split <;> split <;> split <;> omega

/-- From the end of one run to the end of another there are tokens that give every byte the scopes that `f` tells. -/
def Paints (f : Nat → List String) (r r' : TokenRun) : Prop :=
  ∃ new, r'.latest = new ++ r.latest ∧ Spans r.stop new r'.stop ∧ ∀ t ∈ new, ∀ b, t.contains b = true → t.scopes = f b

theorem Paints.refl (f : Nat → List String) (r : TokenRun) : Paints f r r := ⟨[], rfl, .nil, nofun⟩

theorem Paints.extend (h : Paints f r r') {stop : Nat} {scopes : List String}
    (hscopes : ∀ b, r'.stop ≤ b → b < stop → f b = scopes) : Paints f r (r'.extend stop scopes) := by
  obtain ⟨new, hnew, hspans, hpaint⟩ := h
  unfold TokenRun.extend
  split
  next hlt =>
    refine ⟨⟨r'.stop, stop, scopes⟩ :: new, by rw [hnew]; rfl, .cons hspans hlt, List.forall_mem_cons.mpr ⟨?_, hpaint⟩⟩
    intro b hb
    obtain ⟨hfirst, hlast⟩ := ByteToken.contains_iff.mp hb
    exact (hscopes b hfirst hlast).symm
  next => exact ⟨new, hnew, hspans, hpaint⟩

theorem Paints.congr (h : Paints f r r') (hf : ∀ b < r'.stop, f b = f' b) : Paints f' r r' := by
  obtain ⟨new, hnew, hspans, hpaint⟩ := h
  refine ⟨new, hnew, hspans, fun t ht b hb => ?_⟩
  have hstop := hspans.stop_le t ht
  rw [hpaint t ht b hb]
  exact hf b (Nat.lt_of_lt_of_le (ByteToken.contains_iff.mp hb).2 hstop)

theorem Paints.exists_token (h : Paints f r r') : ∃ new, r'.latest = new ++ r.latest ∧ Spans r.stop new r'.stop ∧
    ∀ b, r.stop ≤ b → b < r'.stop → ∃ t, new.filter (·.contains b) = [t] ∧ t.scopes = f b := by
  obtain ⟨new, hnew, hspans, hpaint⟩ := h
  refine ⟨new, hnew, hspans, fun b hfirst hlast => ?_⟩
  have hcount := hspans.countP_contains b
  rw [if_pos ⟨hfirst, hlast⟩, List.countP_eq_length_filter] at hcount
  obtain ⟨t, ht⟩ := List.length_eq_one_iff.mp hcount
  obtain ⟨hmem, hb⟩ := List.mem_filter.mp (ht ▸ List.mem_singleton_self t)
  exact ⟨t, ht, hpaint t hmem b hb⟩

end TokenRun

namespace CaptureState

variable {f f' : Nat → List String} {outer : List String} {pos pos' : Nat} {groups : List OpenGroup} {r run : TokenRun}

/-- From a position on, open groups tell the scopes: the innermost one up to its end, then the next. -/
def Layered (f : Nat → List String) (outer : List String) : Nat → List OpenGroup → Prop
  | pos, [] => ∀ b, pos ≤ b → f b = outer
  | pos, g :: rest => (∀ b, pos ≤ b → b < g.stop → f b = g.scopes) ∧ Layered f outer (max pos g.stop) rest

theorem Layered.mono (h : Layered f outer pos groups) (hle : pos ≤ pos') : Layered f outer pos' groups := by
  induction groups generalizing pos pos' with
  | nil => exact fun b hb => h b (Nat.le_trans hle hb)
  | cons g rest ih =>
    constructor
    · exact fun b hb => h.1 b (Nat.le_trans hle hb)
    · apply ih h.2
      omega

theorem Layered.congr (h : Layered f outer pos groups) (hf : ∀ b, pos ≤ b → f b = f' b) :
    Layered f' outer pos groups := by
  induction groups generalizing pos with
  | nil => exact fun b hb => hf b hb ▸ h b hb
  | cons g rest ih =>
    constructor
    · exact fun b hb hlt => hf b hb ▸ h.1 b hb hlt
    · apply ih h.2
      intro b hb
      apply hf
      omega

theorem Layered.scopes {s : CaptureState} (h : Layered f outer pos s.groups) {stop : Nat}
    (hstop : ∀ g ∈ s.groups.head?, stop ≤ g.stop) {b : Nat} (hpos : pos ≤ b) (hb : b < stop) :
    f b = s.scopes outer := by
  obtain ⟨run, groups⟩ := s
  cases groups with
  | nil => exact h b hpos
  | cons g rest => exact h.1 b hpos (Nat.lt_of_lt_of_le hb (hstop g rfl))

theorem closeUpTo_paints (hlayered : Layered f outer run.stop groups) (hpaints : r.Paints f run) (pos : Nat) :
    r.Paints f (closeUpTo pos groups run).run ∧
      Layered f outer (closeUpTo pos groups run).run.stop (closeUpTo pos groups run).groups := by
  induction groups generalizing run with
  | nil => exact ⟨hpaints, hlayered⟩
  | cons g rest ih =>
    obtain ⟨hg, hrest⟩ := hlayered
    unfold closeUpTo
    split
    · apply ih
      · rw [TokenRun.stop_extend]
        exact hrest
      · exact hpaints.extend hg
    · exact ⟨hpaints, hg, hrest⟩

theorem closeUpTo_open (pos : Nat) (groups : List OpenGroup) (run : TokenRun) :
    (closeUpTo pos groups run).groups <:+ groups ∧ (∀ g ∈ (closeUpTo pos groups run).groups.head?, pos < g.stop) ∧
      (closeUpTo pos groups run).run.stop ≤ max run.stop pos := by
  induction groups generalizing run with
  | nil => exact ⟨List.suffix_rfl, nofun, Nat.le_max_left _ _⟩
  | cons g rest ih =>
    unfold closeUpTo
    split
    next hle =>
      obtain ⟨hsuffix, hopen, hstop⟩ := ih (run.extend g.stop g.scopes)
      rw [TokenRun.stop_extend] at hstop
      refine ⟨hsuffix.trans (List.suffix_cons _ _), hopen, ?_⟩
      omega
    next hlt =>
      refine ⟨List.suffix_rfl, ?_, Nat.le_max_left _ _⟩
      simpa using hlt

theorem closeAll_paints {s : CaptureState} (hlayered : Layered f outer s.run.stop s.groups)
    (hpaints : r.Paints f s.run) : r.Paints f s.closeAll ∧ ∀ b, s.closeAll.stop ≤ b → f b = outer := by
  obtain ⟨run, groups⟩ := s
  unfold closeAll
  dsimp only at hlayered hpaints ⊢
  induction groups generalizing run with
  | nil => exact ⟨hpaints, hlayered⟩
  | cons g rest ih =>
    obtain ⟨hg, hrest⟩ := hlayered
    rw [List.foldl_cons]
    apply ih
    · rw [TokenRun.stop_extend]
      exact hrest
    · exact hpaints.extend hg

end CaptureState

/-- The starts do not decrease, and each span lies inside or behind every earlier one. -/
def Span.Nested (spans : List Span) : Prop :=
  spans.Pairwise fun s s' => s.start ≤ s'.start ∧ (s'.stop ≤ s.stop ∨ s.stop ≤ s'.start)

instance (spans : List Span) : Decidable (Span.Nested spans) := inferInstanceAs (Decidable (spans.Pairwise _))

namespace CaptureContext

open TokenRun CaptureState

variable {c : CaptureContext} {again : Retokenize} {groups done : List (CaptureRule × Span)} {g : CaptureRule × Span}
  {run : TokenRun} {s : CaptureState}

/-- The scopes around the match, and inside them the names of the groups that hold a byte, in order. -/
def scopesAt (c : CaptureContext) (groups : List (CaptureRule × Span)) (b : Nat) : List String :=
  c.frames.top.contentScopes ++ (groups.filter (·.2.contains b)).flatMap fun g => pushScopes [] (c.name g.1.name)

theorem scopesAt_concat (b : Nat) : c.scopesAt (groups ++ [g]) b =
    if g.2.contains b then pushScopes (c.scopesAt groups b) (c.name g.1.name) else c.scopesAt groups b := by
  unfold scopesAt
  rw [List.filter_append, List.flatMap_append, ← List.append_assoc]
  by_cases hb : g.2.contains b
  · rw [if_pos hb, pushScopes_eq_append _ (c.name g.1.name)]
    simp [hb]
  · simp [hb]

/-- What holds after some of the groups: the run is painted with their names up to where it ends, and the open ones
tell the scopes of what follows. -/
structure Painted (c : CaptureContext) (run : TokenRun) (done : List (CaptureRule × Span)) (s : CaptureState) :
    Prop where
  paints : run.Paints (c.scopesAt done) s.run
  layered : Layered (c.scopesAt done) c.frames.top.contentScopes s.run.stop s.groups
  isGroup : ∀ o ∈ s.groups, ∃ g ∈ done, g.2.stop = o.stop
  stop_le : ∀ p, run.stop ≤ p → (∀ g ∈ done, g.2.start ≤ p) → s.run.stop ≤ p

theorem Painted.start (c : CaptureContext) (run : TokenRun) : c.Painted run [] ⟨run, []⟩ where
  paints := .refl _ _
  layered _ _ := List.append_nil _
  isGroup := nofun
  stop_le _ hp _ := hp

theorem Painted.closeUpTo (hs : c.Painted run done s) {start stop : Nat} (hfirst : run.stop ≤ start)
    (hstarts : ∀ e ∈ done, e.2.start ≤ start) (hstops : ∀ e ∈ done, stop ≤ e.2.stop ∨ e.2.stop ≤ start)
    {s₁ : CaptureState} (h : CaptureState.closeUpTo start s.groups s.run = s₁) {base : List String}
    (hbase : s₁.scopes c.frames.top.contentScopes = base) :
    (s₁.run.extend start base).stop = start ∧ run.Paints (c.scopesAt done) (s₁.run.extend start base) ∧
      Layered (c.scopesAt done) c.frames.top.contentScopes start s₁.groups ∧ s₁.groups <:+ s.groups ∧
      ∀ b, start ≤ b → b < stop → c.scopesAt done b = base := by
  obtain ⟨hpaints, hlayered⟩ := closeUpTo_paints hs.layered hs.paints start
  obtain ⟨hsuffix, hopen, hstop⟩ := closeUpTo_open start s.groups s.run
  have hreach := hs.stop_le start hfirst hstarts
  rw [h] at hpaints hlayered hsuffix hopen hstop
  have hle : s₁.run.stop ≤ start := by omega
  -- the innermost open group does not end before the next one does
  have hinner : ∀ o ∈ s₁.groups.head?, max start stop ≤ o.stop := by
    intro o ho
    have hlt := hopen o ho
    obtain ⟨e, he, hstop⟩ := hs.isGroup o (hsuffix.mem (List.mem_of_mem_head? ho))
    have := hstops e he
    omega
  have hscopes {b : Nat} (hb : s₁.run.stop ≤ b) (hlt : b < max start stop) : c.scopesAt done b = base :=
    hbase ▸ hlayered.scopes hinner hb hlt
  refine ⟨?_, ?_, hlayered.mono hle, hsuffix, ?_⟩
  · rw [stop_extend]
    omega
  · apply hpaints.extend
    intro b hb hlt
    apply hscopes hb
    omega
  · intro b hb hlt
    apply hscopes <;> omega

theorem Painted.step (hs : c.Painted run done s) (again : Retokenize) (hplain : g.1.retokenize = none)
    (hfirst : run.stop ≤ g.2.start)
    (hnested : ∀ e ∈ done, e.2.start ≤ g.2.start ∧ (g.2.stop ≤ e.2.stop ∨ e.2.stop ≤ g.2.start)) :
    ∃ s', c.step again s g.1 g.2 = .ok s' ∧ c.Painted run (done ++ [g]) s' := by
  obtain ⟨rule, span⟩ := g
  unfold CaptureContext.step
  dsimp only at hplain hfirst hnested ⊢
  generalize hs₁ : CaptureState.closeUpTo span.start s.groups s.run = s₁
  generalize hbase : s₁.scopes c.frames.top.contentScopes = base
  obtain ⟨hstart, hrun, hlayered, hsuffix, hscopes⟩ :=
    hs.closeUpTo hfirst (fun e he => (hnested e he).1) (fun e he => (hnested e he).2) hs₁ hbase
  -- outside its span the new group changes nothing
  have hbefore {b : Nat} (hb : b < span.start ∨ span.stop ≤ b) :
      c.scopesAt done b = c.scopesAt (done ++ [(rule, span)]) b := by
    rw [scopesAt_concat, if_neg]
    simp only [Span.contains_iff]
    omega
  have hgroup : ∀ o ∈ s₁.groups, ∃ e ∈ done ++ [(rule, span)], e.2.stop = o.stop := by
    intro o ho
    obtain ⟨e, he, hstop⟩ := hs.isGroup o (hsuffix.mem ho)
    exact ⟨e, List.mem_append_left _ he, hstop⟩
  have hpainted {open' : List OpenGroup}
      (hlayered : Layered (c.scopesAt (done ++ [(rule, span)])) c.frames.top.contentScopes span.start open')
      (hgroup : ∀ o ∈ open', ∃ e ∈ done ++ [(rule, span)], e.2.stop = o.stop) :
      c.Painted run (done ++ [(rule, span)]) ⟨s₁.run.extend span.start base, open'⟩ := by
    refine ⟨hrun.congr fun b hb => hbefore (.inl (hstart ▸ hb)), by rwa [hstart], hgroup, fun p _ hp => ?_⟩
    rw [hstart]
    exact hp (rule, span) (by simp)
  rw [hplain]
  cases hname : c.name rule.name with
  | some name =>
    refine ⟨_, rfl, hpainted ⟨fun b hb hlt => ?_, ?_⟩ (List.forall_mem_cons.mpr ⟨⟨(rule, span), by simp, rfl⟩, hgroup⟩)⟩
    · rw [scopesAt_concat, if_pos (Span.contains_iff.mpr ⟨hb, hlt⟩), hname, hscopes b hb hlt]
    · apply (hlayered.mono (Nat.le_max_left _ _)).congr
      intro b hb
      exact hbefore (.inr (Nat.le_trans (Nat.le_max_right _ _) hb))
  | none =>
    refine ⟨_, rfl, hpainted (hlayered.congr fun b _ => ?_) hgroup⟩
    rw [scopesAt_concat, hname]
    split <;> rfl

theorem Painted.foldlM (hs : c.Painted run done s) (again : Retokenize)
    (hplain : ∀ g ∈ groups, g.1.retokenize = none) (hfirst : ∀ g ∈ groups, run.stop ≤ g.2.start)
    (hnested : Span.Nested ((done ++ groups).map (·.2))) :
    ∃ s', groups.foldlM (fun s g => c.step again s g.1 g.2) s = .ok s' ∧ c.Painted run (done ++ groups) s' := by
  induction groups generalizing done s with
  | nil => exact ⟨s, rfl, by rwa [List.append_nil]⟩
  | cons g groups ih =>
    obtain ⟨hg, hgroups⟩ := List.forall_mem_cons.mp hplain
    obtain ⟨hgfirst, hfirst⟩ := List.forall_mem_cons.mp hfirst
    have hearlier : ∀ e ∈ done, e.2.start ≤ g.2.start ∧ (g.2.stop ≤ e.2.stop ∨ e.2.stop ≤ g.2.start) := by
      intro e he
      rw [Span.Nested, List.map_append, List.pairwise_append] at hnested
      exact hnested.2.2 e.2 (List.mem_map_of_mem he) g.2 (by simp)
    obtain ⟨u, hu, hpainted⟩ := hs.step again hg hgfirst hearlier
    rw [List.append_cons] at hnested ⊢
    obtain ⟨s', hs', hpainted⟩ := ih hpainted hgroups hfirst hnested
    refine ⟨s', ?_, hpainted⟩
    rw [List.foldlM_cons, hu]
    exact hs'

/-- Every byte of a match with nested groups is in one token, which has the names of the groups around the byte. -/
theorem emit_nested (c : CaptureContext) (again : Retokenize) (table : CaptureTable) (run : TokenRun) (last : Nat)
    (hplain : ∀ e ∈ table, e.2.retokenize = none) (hnested : Span.Nested ((c.groups table).map (·.2)))
    (hwithin : ∀ g ∈ c.groups table, run.stop ≤ g.2.start ∧ g.2.start ≤ last ∧ g.2.stop ≤ last) :
    ∃ run' new, c.emit again table run = .ok run' ∧
      (run'.extend last c.frames.top.contentScopes).latest = new ++ run.latest ∧
      Spans run.stop new (max run.stop last) ∧
      ∀ b, run.stop ≤ b → b < last →
        ∃ t, new.filter (·.contains b) = [t] ∧ t.scopes = c.scopesAt (c.groups table) b := by
  have hgroups : ∀ g ∈ c.groups table, g.1.retokenize = none := by
    intro g hg
    obtain ⟨group, hrule, -⟩ := mem_groups hg
    exact hplain _ (CaptureTable.mem_of_rule? hrule)
  obtain ⟨s, hs, hpainted⟩ := (Painted.start c run).foldlM again hgroups (fun g hg => (hwithin g hg).1) hnested
  rw [List.nil_append] at hpainted
  obtain ⟨hpaints, houter⟩ := closeAll_paints hpainted.layered hpainted.paints
  have hle : s.closeAll.stop ≤ max run.stop last := by
    rw [stop_closeAll, foldl_max_le]
    constructor
    · apply hpainted.stop_le _ (Nat.le_max_left _ _)
      intro g hg
      exact Nat.le_trans (hwithin g hg).2.1 (Nat.le_max_right _ _)
    · intro stop hstop
      obtain ⟨o, ho, rfl⟩ := List.mem_map.mp hstop
      obtain ⟨g, hg, hstop⟩ := hpainted.isGroup o ho
      exact hstop ▸ Nat.le_trans (hwithin g hg).2.2 (Nat.le_max_right _ _)
  have hend : run.Paints (c.scopesAt (c.groups table)) (s.closeAll.extend last c.frames.top.contentScopes) :=
    hpaints.extend fun b hb _ => houter b hb
  obtain ⟨new, hnew, hspans, htoken⟩ := hend.exists_token
  have hstop : (s.closeAll.extend last c.frames.top.contentScopes).stop = max run.stop last := by
    have hge : run.stop ≤ s.closeAll.stop := by
      obtain ⟨_, -, hspans, -⟩ := hpaints
      exact hspans.le
    rw [stop_extend]
    omega
  rw [hstop] at hspans htoken
  refine ⟨s.closeAll, new, ?_, hnew, hspans, fun b hfirst hlast => ?_⟩
  · rw [emit, hs]
    rfl
  · apply htoken b hfirst
    omega

/-- A group without a name, two with the same span inside it, and one behind it. -/
theorem emit_nested_pair :
    let c : CaptureContext := ⟨.ofText "abcd", ⟨.root 0 "s", []⟩, true,
      [some ⟨0, 4⟩, some ⟨0, 3⟩, some ⟨1, 2⟩, none, some ⟨1, 2⟩, some ⟨3, 4⟩]⟩
    let table : CaptureTable := [(0, ⟨some (.ofText "all"), none, none⟩), (1, ⟨none, none, none⟩),
      (2, ⟨some (.ofText "x"), none, none⟩), (4, ⟨some (.ofText "y z$4"), none, none⟩),
      (5, ⟨some (.ofText "end"), none, none⟩)]
    Span.Nested ((c.groups table).map (·.2)) ∧
      ∃ run' new, c.emit (fun _ _ _ _ => .error .endless) table (.startingAt 0) = .ok run' ∧
      (run'.extend 4 ["s"]).latest = new ∧ Spans 0 new 4 ∧
      (∃ t, new.filter (·.contains 1) = [t] ∧ t.scopes = ["s", "all", "x", "y", "zb"]) ∧
      ∃ t, new.filter (·.contains 2) = [t] ∧ t.scopes = ["s", "all"] := by
  intro c table
  have hnested : Span.Nested ((c.groups table).map (·.2)) := by decide +kernel
  obtain ⟨run', new, hrun, hnew, hspans, htoken⟩ :=
    emit_nested c (fun _ _ _ _ => .error .endless) table (.startingAt 0) 4 (by decide) hnested (by decide +kernel)
  obtain ⟨t, ht, hscopes⟩ := htoken 1 (by decide) (by decide)
  obtain ⟨u, hu, hscopes'⟩ := htoken 2 (by decide) (by decide)
  have hone : c.scopesAt (c.groups table) 1 = ["s", "all", "x", "y", "zb"] := by decide +kernel
  have htwo : c.scopesAt (c.groups table) 2 = ["s", "all"] := by decide +kernel
  refine ⟨hnested, run', new, hrun, ?_, hspans, ⟨t, ht, hscopes.trans hone⟩, u, hu, hscopes'.trans htwo⟩
  rw [← List.append_nil new]
  exact hnew

end CaptureContext

end GrammarScopes
