import GrammarScopes.Proofs.Except
import GrammarScopes.Proofs.Grammar.Scanning
import GrammarScopes.Tokenizer.Captures

/-!
How a run of tokens grows while the groups of a match are gone through.  Whatever is added ends at a
given place of the line, and its scopes are among those reached from the active rules by adding names.
-/

namespace GrammarScopes

namespace TokenRun

/-- Steps that extend a run to ends and with scopes that `A` allows. -/
inductive GrowsBy (A : Nat → List String → Prop) (r : TokenRun) : TokenRun → Prop
  | refl : GrowsBy A r r
  | extend {r' : TokenRun} {stop : Nat} {scopes : List String} :
      GrowsBy A r r' → A stop scopes → GrowsBy A r (r'.extend stop scopes)

variable {A : Nat → List String → Prop} {r r' : TokenRun}

theorem GrowsBy.trans {r'' : TokenRun} (h : GrowsBy A r r') (h' : GrowsBy A r' r'') :
    GrowsBy A r r'' := by
  induction h' with
  | refl => exact h
  | extend _ ha ih => exact ih.extend ha

theorem growsBy_foldl {ts : List ByteToken} (h : ∀ t ∈ ts, A t.stop t.scopes) (r : TokenRun) :
    GrowsBy A r (ts.foldl (fun run t => run.extend t.stop t.scopes) r) := by
  induction ts generalizing r with
  | nil => exact .refl
  | cons t ts ih =>
    have hstep : GrowsBy A r (r.extend t.stop t.scopes) :=
      GrowsBy.extend .refl (h t List.mem_cons_self)
    exact hstep.trans (ih (fun t ht => h t (List.mem_cons_of_mem _ ht)) _)

theorem stop_extend (r : TokenRun) (stop : Nat) (scopes : List String) :
    (r.extend stop scopes).stop = max r.stop stop := by
  unfold TokenRun.extend
  split
  · dsimp only
    omega
  · omega

theorem le_stop_extend (r : TokenRun) (stop : Nat) (scopes : List String) :
    r.stop ≤ (r.extend stop scopes).stop ∧ stop ≤ (r.extend stop scopes).stop := by
  rw [stop_extend]
  omega

/-- Tokens that follow each other from `first` on, the latest first, and where they end. -/
inductive Spans (first : Nat) : List ByteToken → Nat → Prop
  | nil : Spans first [] first
  | cons {t : ByteToken} {rest : List ByteToken} :
      Spans first rest t.start → t.start < t.stop → Spans first (t :: rest) t.stop

theorem Spans.le {first stop : Nat} {ts : List ByteToken} (h : Spans first ts stop) : first ≤ stop := by
  induction h with
  | nil => exact Nat.le_refl first
  | cons _ hlt ih => exact Nat.le_trans ih (Nat.le_of_lt hlt)

theorem GrowsBy.spans {first : Nat} (h : GrowsBy A r r') (hr : Spans first r.latest r.stop) :
    Spans first r'.latest r'.stop := by
  induction h with
  | refl => exact hr
  | extend _ _ ih =>
    unfold TokenRun.extend
    split
    next hlt => exact .cons ih hlt
    next => exact ih

theorem GrowsBy.exists_new (h : GrowsBy A r r') :
    ∃ new, r'.latest = new ++ r.latest ∧ Spans r.stop new r'.stop := by
  induction h with
  | refl => exact ⟨[], rfl, .nil⟩
  | extend _ _ ih =>
    obtain ⟨new, hnew, hspans⟩ := ih
    unfold TokenRun.extend
    split
    next hlt => exact ⟨_ :: new, by rw [hnew]; rfl, .cons hspans hlt⟩
    next => exact ⟨new, hnew, hspans⟩

theorem GrowsBy.forall_latest (h : GrowsBy A r r') (hr : ∀ t ∈ r.latest, A t.stop t.scopes) :
    ∀ t ∈ r'.latest, A t.stop t.scopes := by
  induction h with
  | refl => exact hr
  | extend _ ha ih =>
    unfold TokenRun.extend
    split
    next =>
      intro t ht
      rcases List.mem_cons.mp ht with rfl | ht
      · exact ha
      · exact ih t ht
    next => exact ih

theorem mem_trimLast_dropBreak {line : Line} {latest : List ByteToken} {t : ByteToken}
    (h : t ∈ trimLast line (dropBreak line latest)) :
    ∃ u ∈ latest, t.scopes = u.scopes ∧ (t.stop = line.contentSize ∨ t.stop = u.stop) := by
  have hdrop : ∀ u ∈ dropBreak line latest,
      ∃ v ∈ latest, u.scopes = v.scopes ∧ (u.stop = line.contentSize ∨ u.stop = v.stop) := by
    intro u hu
    unfold dropBreak at hu
    split at hu
    next => cases hu
    next last rest =>
      split at hu
      next =>
        split at hu
        · rw [List.mem_singleton.mp hu]
          exact ⟨last, List.mem_cons_self, rfl, .inl rfl⟩
        · exact ⟨u, List.mem_cons_of_mem _ hu, rfl, .inr rfl⟩
      next => exact ⟨u, hu, rfl, .inr rfl⟩
  unfold trimLast at h
  split at h
  next => cases h
  next last rest hlatest =>
    rw [hlatest] at hdrop
    split at h
    next =>
      rcases List.mem_cons.mp h with rfl | h
      · obtain ⟨u, hu, hscopes, -⟩ := hdrop last List.mem_cons_self
        exact ⟨u, hu, hscopes, .inl rfl⟩
      · exact hdrop t (List.mem_cons_of_mem _ h)
    next => exact hdrop t h

end TokenRun

def Admits (P : Nat → Prop) (S : List String → Prop) (stop : Nat) (scopes : List String) : Prop :=
  P stop ∧ S scopes

def ScopeClosed (S : List String → Prop) : Prop := ∀ base name, S base → S (pushScopes base name)

def KeepsScopes (S : List String → Prop) (t : Option ScopeTemplate) : Prop :=
  ∀ line captures base, S base → S (pushScopes base (t.map fun t => t.resolve line captures))

def Frame.Scoped (S : List String → Prop) (f : Frame) : Prop := S f.nameScopes ∧ S f.contentScopes

def Frames.Scoped (S : List String → Prop) (fs : Frames) : Prop := ∀ f ∈ fs.toList, f.Scoped S

def Retokenize.Sound (P : Line → Nat → Prop) (S : List String → Prop) (again : Retokenize) : Prop :=
  ∀ line frames start isTextStart tokens, frames.Scoped S →
    again line frames start isTextStart = .ok tokens → ∀ t ∈ tokens, Admits (P line) S t.stop t.scopes

structure CaptureTable.Sound (P : Line → Nat → Prop) (S : List String → Prop) (again : Retokenize)
    (fs : Frames) (table : CaptureTable) : Prop where
  names : ∀ e ∈ table, KeepsScopes S e.2.name ∧ KeepsScopes S e.2.contentName
  again : ∀ e ∈ table, e.2.retokenize ≠ none → again.Sound P S ∧ fs.Scoped S

variable {P : Line → Nat → Prop} {S : List String → Prop}

theorem ScopeClosed.keeps (hS : ScopeClosed S) (t : Option ScopeTemplate) : KeepsScopes S t :=
  fun _ _ base h => hS base _ h

theorem ScopeClosed.sound (hS : ScopeClosed S) {again : Retokenize} (hagain : again.Sound P S)
    {fs : Frames} (hfs : fs.Scoped S) (table : CaptureTable) : table.Sound P S again fs :=
  ⟨fun _ _ => ⟨hS.keeps _, hS.keeps _⟩, fun _ _ _ => ⟨hagain, hfs⟩⟩

theorem scopeClosed_true : ScopeClosed fun _ => True := fun _ _ _ => trivial

theorem Frames.scoped_true (fs : Frames) : fs.Scoped fun _ => True := fun _ _ => ⟨trivial, trivial⟩

theorem CaptureTable.mem_of_rule? {table : CaptureTable} {group : Nat} {rule : CaptureRule}
    (h : table.rule? group = some rule) : (group, rule) ∈ table := by
  obtain ⟨⟨n, r⟩, he, rfl⟩ := Option.map_eq_some_iff.mp h
  have hn : n = group := by simpa using List.find?_some he
  exact hn ▸ List.mem_reverse.mp (List.mem_of_find?_eq_some he)

theorem Frames.Scoped.top {fs : Frames} (h : fs.Scoped S) : fs.top.Scoped S :=
  h fs.top List.mem_cons_self

theorem Frames.Scoped.push {fs : Frames} {f : Frame} (h : fs.Scoped S) (hf : f.Scoped S) :
    (fs.push f).Scoped S :=
  List.forall_mem_cons.mpr ⟨hf, h⟩

theorem Frames.Scoped.pop {fs : Frames} (h : fs.Scoped S) : fs.pop.Scoped S := by
  obtain ⟨top, below⟩ := fs
  cases below with
  | nil => exact h
  | cons f rest => exact (List.forall_mem_cons.mp h).2

namespace CaptureState

theorem closeUpTo_grows {A : Nat → List String → Prop} (pos : Nat) {groups : List OpenGroup}
    (h : ∀ g ∈ groups, A g.stop g.scopes) (run : TokenRun) :
    run.GrowsBy A (closeUpTo pos groups run).run ∧
      ∀ g ∈ (closeUpTo pos groups run).groups, A g.stop g.scopes := by
  induction groups generalizing run with
  | nil => exact ⟨.refl, h⟩
  | cons g rest ih =>
    unfold closeUpTo
    split
    next =>
      obtain ⟨hg, hrest⟩ := List.forall_mem_cons.mp h
      obtain ⟨hgrow, hopen⟩ := ih hrest (run.extend g.stop g.scopes)
      exact ⟨(TokenRun.GrowsBy.extend .refl hg).trans hgrow, hopen⟩
    next => exact ⟨.refl, h⟩

theorem closeAll_grows {A : Nat → List String → Prop} {s : CaptureState}
    (h : ∀ g ∈ s.groups, A g.stop g.scopes) : s.run.GrowsBy A s.closeAll := by
  obtain ⟨run, groups⟩ := s
  unfold closeAll
  dsimp only at h ⊢
  induction groups generalizing run with
  | nil => exact .refl
  | cons g rest ih =>
    obtain ⟨hg, hrest⟩ := List.forall_mem_cons.mp h
    exact (TokenRun.GrowsBy.extend .refl hg).trans (ih _ hrest)

theorem scopes_mem {s : CaptureState} {outer : List String} (houter : S outer)
    (h : ∀ g ∈ s.groups, S g.scopes) : S (s.scopes outer) := by
  unfold scopes
  split
  next g rest hg => exact h g (by simp [hg])
  next => exact houter

end CaptureState

namespace CaptureContext

/-- What holds between the groups of a match: the run has grown, and the groups that are open can be
closed where they end. -/
def Reached (c : CaptureContext) (P : Line → Nat → Prop) (S : List String → Prop) (run : TokenRun)
    (s : CaptureState) : Prop :=
  run.GrowsBy (Admits (P c.line) S) s.run ∧ ∀ g ∈ s.groups, Admits (P c.line) S g.stop g.scopes

variable {c : CaptureContext} {again : Retokenize}

theorem mem_groups {table : CaptureTable} {g : CaptureRule × Span} (h : g ∈ c.groups table) :
    ∃ group, table.rule? group = some g.1 ∧ c.captures[group]? = some (some g.2) ∧
      g.2.start ≠ g.2.stop := by
  obtain ⟨⟨span, group⟩, hmem, hg⟩ := List.mem_filterMap.mp h
  simp only [Option.bind_eq_bind, Option.bind_eq_some_iff] at hg
  obtain ⟨rule, hrule, s, hs, hg⟩ := hg
  split at hg
  · cases hg
  next hne =>
    cases hg
    subst hs
    exact ⟨group, hrule, List.mem_zipIdx_iff_getElem?.mp hmem, hne⟩

section

variable (hP : Places P)

include hP

theorem retokenize_admits (hc : c.frames.Scoped S) (hagain : again.Sound P S) {rule : CaptureRule}
    {id : RuleId} {span : Span} {base : List String} (hname : KeepsScopes S rule.name)
    (hcontent : KeepsScopes S rule.contentName) (hbase : S base) {tokens : List ByteToken}
    (h : c.retokenize again rule id span base = .ok tokens) :
    ∀ t ∈ tokens, Admits (P c.line) S t.stop t.scopes := by
  intro t ht
  have hnames := hname c.line c.captures base hbase
  have hcontents := hcontent c.line c.captures _ hnames
  obtain ⟨hb, hs⟩ := hagain _ _ _ _ _ (hc.push ⟨hnames, hcontents⟩) h t ht
  refine ⟨?_, hs⟩
  cases hp : c.line.upTo? span.stop with
  | none => rwa [hp] at hb
  | some p => rw [hp] at hb; exact hP.of_upTo? hp hb

theorem step_reached (hc : S c.frames.top.contentScopes) {table : CaptureTable}
    (htable : table.Sound P S again c.frames) {run : TokenRun}
    {s s' : CaptureState} (hs : c.Reached P S run s) {e : Nat × CaptureRule} (he : e ∈ table)
    {span : Span} (hspan : P c.line span.start ∧ P c.line span.stop)
    (h : c.step again s e.2 span = .ok s') : c.Reached P S run s' := by
  obtain ⟨hname, hcontent⟩ := htable.names e he
  obtain ⟨hclose, hopen⟩ := CaptureState.closeUpTo_grows span.start hs.2 s.run
  unfold step at h
  dsimp only at h
  generalize CaptureState.closeUpTo span.start s.groups s.run = s₁ at h hclose hopen
  have hbase : S (s₁.scopes c.frames.top.contentScopes) :=
    CaptureState.scopes_mem hc fun g hg => (hopen g hg).2
  have hrun := (hs.1.trans hclose).extend ⟨hspan.1, hbase⟩
  split at h
  next id hid =>
    obtain ⟨tokens, htokens, h⟩ := bind_eq_ok.mp h
    cases h
    refine ⟨hrun.trans (TokenRun.growsBy_foldl ?_ _), hopen⟩
    obtain ⟨hagain, hframes⟩ := htable.again e he (by simp [hid])
    exact retokenize_admits hP hframes hagain hname hcontent hbase htokens
  next =>
    split at h
    next name hresolved =>
      cases h
      have hnamed : S (pushScopes (s₁.scopes c.frames.top.contentScopes) (some name)) :=
        hresolved ▸ hname c.line c.captures _ hbase
      exact ⟨hrun, List.forall_mem_cons.mpr ⟨⟨hspan.2, hnamed⟩, hopen⟩⟩
    next =>
      cases h
      exact ⟨hrun, hopen⟩

theorem emit_grows (hc : S c.frames.top.contentScopes) {table : CaptureTable}
    (htable : table.Sound P S again c.frames)
    (hcaptures : ∀ span, some span ∈ c.captures → P c.line span.start ∧ P c.line span.stop)
    {run run' : TokenRun} (h : c.emit again table run = .ok run') :
    run.GrowsBy (Admits (P c.line) S) run' := by
  obtain ⟨s, hs, h⟩ := bind_eq_ok.mp h
  cases h
  have hreached : c.Reached P S run s := by
    refine foldlM_invariant (fun b hb g hg b' hstep => ?_) ⟨.refl, by simp⟩ hs
    obtain ⟨group, hrule, hspan, -⟩ := mem_groups hg
    exact step_reached hP hc htable hb (CaptureTable.mem_of_rule? hrule)
      (hcaptures _ (List.mem_of_getElem? hspan)) hstep
  exact hreached.1.trans (CaptureState.closeAll_grows hreached.2)

end

end CaptureContext

end GrammarScopes
