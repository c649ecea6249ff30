import GrammarScopes.Proofs.Scanner
import GrammarScopes.Proofs.Tokenizer.Partition
import GrammarScopes.Proofs.Tokenizer.Termination

/-!
How far the tokens of a match reach: to the end of the match, or to the end of a group that lies behind it, as one in a
look-ahead does.  As long as no group does, the tokens found so far end where the line has been scanned to.
-/

namespace GrammarScopes

theorem foldl_max (xs : List Nat) (a b : Nat) : xs.foldl max (max a b) = max (xs.foldl max a) b := by
  rw [Nat.max_comm, List.foldl_assoc, Nat.max_comm]

theorem foldl_max_le {xs : List Nat} {a b : Nat} : xs.foldl max a ≤ b ↔ a ≤ b ∧ ∀ x ∈ xs, x ≤ b := by
  induction xs generalizing a with
  | nil => simp
  | cons x xs ih => simp [ih, and_assoc]

theorem foldl_max_eq {xs : List Nat} {a : Nat} : xs.foldl max a = a ↔ ∀ x ∈ xs, x ≤ a := by
  have hle : a ≤ xs.foldl max a := (foldl_max_le.mp (Nat.le_refl _)).1
  constructor
  · intro h
    exact (foldl_max_le.mp (Nat.le_of_eq h)).2
  · intro h
    exact Nat.le_antisymm (foldl_max_le.mpr ⟨Nat.le_refl a, h⟩) hle

namespace TokenRun

variable {r : TokenRun}

theorem Spans.stop_foldl {first stop : Nat} {ts : List ByteToken} (h : Spans first ts stop) (hr : first ≤ r.stop) :
    (ts.reverse.foldl (fun run t => run.extend t.stop t.scopes) r).stop = max r.stop stop := by
  induction h with
  | nil => exact (Nat.max_eq_left hr).symm
  | cons _ hlt ih =>
    rw [List.reverse_cons, List.foldl_append, List.foldl_cons, List.foldl_nil, stop_extend, ih]
    omega

end TokenRun

/-- Captured text is cut into tokens that follow each other up to its end. -/
def Retokenize.Covers (again : Retokenize) : Prop :=
  ∀ line frames start isTextStart tokens, again line frames start isTextStart = .ok tokens →
    TokenRun.Spans start tokens.reverse (max start line.size)

namespace CaptureState

theorem closeAll_closeUpTo (pos : Nat) (groups : List OpenGroup) (run : TokenRun) :
    (closeUpTo pos groups run).closeAll = closeAll ⟨run, groups⟩ := by
  induction groups generalizing run with
  | nil => rfl
  | cons g rest ih =>
    unfold closeUpTo
    split
    · rw [ih]
      rfl
    · rfl

theorem stop_closeAll (s : CaptureState) : s.closeAll.stop = (s.groups.map (·.stop)).foldl max s.run.stop := by
  obtain ⟨run, groups⟩ := s
  unfold closeAll
  dsimp only
  induction groups generalizing run with
  | nil => rfl
  | cons g rest ih => rw [List.foldl_cons, ih, TokenRun.stop_extend, List.map_cons, List.foldl_cons]

end CaptureState

namespace CaptureContext

/-- How far the tokens of a group reach.  Only one with a name, or one that is tokenized again, has some of its own. -/
def reach (g : CaptureRule × Span) : Nat :=
  if g.1.retokenize.isSome || g.1.name.isSome then max g.2.start g.2.stop else g.2.start

variable {c : CaptureContext} {again : Retokenize}

theorem stop_step (hagain : again.Covers) {s s' : CaptureState} {rule : CaptureRule} {span : Span}
    (hspan : c.line.IsBoundary span.stop) (h : c.step again s rule span = .ok s') :
    s'.closeAll.stop = max s.closeAll.stop (reach (rule, span)) := by
  have hclosed := CaptureState.closeAll_closeUpTo span.start s.groups s.run
  unfold step at h
  dsimp only at h
  generalize CaptureState.closeUpTo span.start s.groups s.run = s₁ at h hclosed
  have hstart (scopes : List String) : (s₁.groups.map (·.stop)).foldl max (s₁.run.extend span.start scopes).stop =
      max s.closeAll.stop span.start := by
    rw [TokenRun.stop_extend, foldl_max, ← CaptureState.stop_closeAll, hclosed]
  split at h
  next id hid =>
    obtain ⟨tokens, htokens, h⟩ := bind_eq_ok.mp h
    cases h
    have hspans := hagain _ _ _ _ _ htokens
    rw [hspan.size_upTo] at hspans
    have hle : span.start ≤ (s₁.run.extend span.start (s₁.scopes c.frames.top.contentScopes)).stop := by
      rw [TokenRun.stop_extend]
      omega
    have hfold := hspans.stop_foldl hle
    rw [List.reverse_reverse] at hfold
    rw [CaptureState.stop_closeAll, hfold, foldl_max, hstart]
    simp only [reach, hid, Option.isSome_some, Bool.true_or, ↓reduceIte]
    omega
  next hid =>
    split at h
    next name hname =>
      cases h
      obtain ⟨template, htemplate, -⟩ := Option.map_eq_some_iff.mp hname
      rw [CaptureState.stop_closeAll, List.map_cons, List.foldl_cons, foldl_max, hstart]
      simp only [reach, htemplate, Option.isSome_some, Bool.or_true, ↓reduceIte]
      omega
    next hname =>
      cases h
      have htemplate : rule.name = none := Option.map_eq_none_iff.mp hname
      rw [CaptureState.stop_closeAll, hstart]
      simp [reach, hid, htemplate]

theorem stop_foldlM (hagain : again.Covers) {gs : List (CaptureRule × Span)}
    (hgs : ∀ g ∈ gs, c.line.IsBoundary g.2.stop) {s s' : CaptureState}
    (h : gs.foldlM (fun s g => c.step again s g.1 g.2) s = .ok s') :
    s'.closeAll.stop = (gs.map reach).foldl max s.closeAll.stop := by
  induction gs generalizing s with
  | nil =>
    cases h
    rfl
  | cons g gs ih =>
    obtain ⟨hg, hgs⟩ := List.forall_mem_cons.mp hgs
    rw [List.foldlM_cons] at h
    obtain ⟨u, hu, h⟩ := bind_eq_ok.mp h
    rw [ih hgs h, stop_step hagain hg hu, List.map_cons, List.foldl_cons]

theorem stop_emit (hagain : again.Covers) {table : CaptureTable}
    (hcaptures : ∀ span, some span ∈ c.captures → c.line.IsBoundary span.stop) {run run' : TokenRun}
    (h : c.emit again table run = .ok run') : run'.stop = ((c.groups table).map reach).foldl max run.stop := by
  obtain ⟨s, hs, h⟩ := bind_eq_ok.mp h
  cases h
  refine stop_foldlM hagain (fun g hg => ?_) hs
  obtain ⟨group, -, hspan, -⟩ := mem_groups hg
  exact hcaptures _ (List.mem_of_getElem? hspan)

end CaptureContext

def Winner.captures (g : Grammar) : Winner → CaptureTable
  | limit region => region.limitCaptures
  | rule id => ((g.rule? id).map Rule.startCaptures).getD []

/-- No group with a rule reaches behind the end of the match. -/
def ScanMatch.EnclosesGroups (m : ScanMatch) (table : CaptureTable) : Prop :=
  ∀ e ∈ table, ∀ span ∈ m.captures[e.1]?.join, span.start ≤ m.stop ∧ span.stop ≤ m.stop

instance (m : ScanMatch) (table : CaptureTable) : Decidable (m.EnclosesGroups table) :=
  inferInstanceAs (Decidable (∀ e ∈ table, ∀ span ∈ m.captures[e.1]?.join, span.start ≤ m.stop ∧ span.stop ≤ m.stop))

namespace Grammar

open Relation (ReflTransGen)

variable {g : Grammar} {line : Line} {again : Retokenize} {m : ScanMatch} {s t : ScanState} {table : CaptureTable}

def matchGroups (line : Line) (m : ScanMatch) (s : ScanState) (table : CaptureTable) : List (CaptureRule × Span) :=
  (CaptureContext.mk line s.frames s.point.isTextStart m.captures).groups table

theorem reach_le (hm : m.EnclosesGroups table) :
    ∀ r ∈ (matchGroups line m s table).map CaptureContext.reach, r ≤ m.stop := by
  intro r hr
  obtain ⟨⟨rule, span⟩, he, rfl⟩ := List.mem_map.mp hr
  obtain ⟨group, hrule, hspan, -⟩ := CaptureContext.mem_groups he
  obtain ⟨hstart, hstop⟩ := hm (group, rule) (CaptureTable.mem_of_rule? hrule) span (by rw [hspan]; rfl)
  unfold CaptureContext.reach
  split
  · exact Nat.max_le.mpr ⟨hstart, hstop⟩
  · exact hstart

theorem stop_emitMatch (hagain : again.Covers) (hm : m.Within line.IsBoundary)
    (h : emitMatch line again table m s = .ok t) :
    t.run.stop = ((matchGroups line m s table).map CaptureContext.reach).foldl max (max s.run.stop m.stop) := by
  obtain ⟨run, hrun, h⟩ := bind_eq_ok.mp h
  cases h
  rw [foldl_max]
  change (run.extend m.stop s.frames.top.contentScopes).stop = _
  rw [TokenRun.stop_extend, CaptureContext.stop_emit hagain (fun span hspan => (hm span hspan).2) hrun]
  rfl

theorem stop_of_enclosesGroups (hagain : again.Covers) (hwithin : m.Within line.IsBoundary)
    (hm : m.EnclosesGroups table) (h : emitMatch line again table m s = .ok t) :
    t.run.stop = max s.run.stop m.stop := by
  rw [stop_emitMatch hagain hwithin h, foldl_max_eq]
  intro r hr
  exact Nat.le_trans (reach_le hm r hr) (Nat.le_max_right _ _)

theorem Finds.isOrdered (horderly : g.scanner.Orderly) {p : ScanPoint} {patterns : List String}
    (h : g.Finds line p patterns m) : m.start ≤ m.stop := by
  obtain ⟨matcher, hcompile, hfind⟩ := h
  exact horderly _ _ hcompile _ _ _ hfind

section

variable (hg : g.WellFormed) (hscanner : g.scanner.Sound)

include hg hscanner

theorem retokenize_inLine (n : Nat) : (g.retokenize n).Sound Line.IsBoundary fun _ => True :=
  retokenize_sound hg hscanner isBoundary_places scopeClosed_true n

theorem retokenize_covers (n : Nat) : (g.retokenize n).Covers := by
  intro line frames start isTextStart tokens h
  cases n with
  | zero => cases h
  | succ n =>
    obtain ⟨s, hscan, h⟩ := bind_eq_ok.mp h
    cases h
    obtain ⟨hgrow, -, hsize⟩ := scan_spec hg hscanner isBoundary_places scopeClosed_true
      (retokenize_inLine hg hscanner n) frames.scoped_true hscan
    have hspans : TokenRun.Spans start s.run.latest s.run.stop := hgrow.spans .nil
    have hends : ∀ t ∈ s.run.latest, Admits line.IsBoundary (fun _ => True) t.stop t.scopes :=
      hgrow.forall_latest nofun
    rw [TokenRun.tokens, List.reverse_reverse]
    suffices h : s.run.stop = max start line.size from h ▸ hspans
    have hle := hspans.le
    generalize s.run.latest = latest at hspans hends
    generalize s.run.stop = stop at hspans hsize hle
    cases hspans with
    | nil => exact (Nat.max_eq_left hsize).symm
    | @cons t rest _ _ =>
      have := (hends t List.mem_cons_self).1.le_size
      omega

variable (horderly : g.scanner.Orderly)

include horderly

theorem step_stop {n : Nat} (hs : s.run.stop = s.point.pos)
    (hm : ∀ w m, g.nextMatch line s.frames.top s.point = .ok (some (w, m)) → m.EnclosesGroups (w.captures g))
    (h : g.Follows line (g.retokenize n) s t) :
    t.run.stop = t.point.pos ∧
      ∃ new, t.run.latest = new ++ s.run.latest ∧ TokenRun.Spans s.point.pos new t.point.pos := by
  have hstep := step_spec hg hscanner isBoundary_places scopeClosed_true (retokenize_inLine hg hscanner n)
    s.frames.scoped_true h
  have hemit {w : Winner} {m : ScanMatch} {s' u : ScanState} {table : CaptureTable}
      (hu : emitMatch line (g.retokenize n) table m s' = .ok u) (hs' : s'.run = (s.cover m.start).run)
      (hnext : g.nextMatch line s.frames.top s.point = .ok (some (w, m))) (htable : w.captures g = table) :
      u.run.stop = max s.point.pos m.stop := by
    obtain ⟨patterns, hfinds⟩ := nextMatch_finds hg hnext
    have hordered := hfinds.isOrdered horderly
    have henclosed : m.EnclosesGroups table := htable ▸ hm w m hnext
    rw [stop_of_enclosesGroups (retokenize_covers hg hscanner n) (hfinds.within hscanner) henclosed hu, hs',
      ScanState.cover, TokenRun.stop_extend, hs]
    omega
  have hstop : t.run.stop = t.point.pos := by
    cases step_outcome h with
    | left hnext hu _ _ =>
      rw [ScanPoint.advance_pos]
      apply hemit hu rfl hnext
      rfl
    | @entered id rule region m u hnext hrule hregion hu _ =>
      rw [ScanPoint.advance_pos]
      apply hemit hu rfl hnext
      rw [Winner.captures, hrule]
      cases rule with
      | beginEnd region' _ | beginWhile region' => exact congrArg Region.beginCaptures (Option.some.inj hregion)
      | single _ _ _ | container _ => cases hregion
    | single hnext hrule hu _ =>
      rw [ScanPoint.advance_pos]
      apply hemit hu rfl hnext
      rw [Winner.captures, hrule]
      rfl
  obtain ⟨new, hnew, hspans⟩ := hstep.grows.exists_new
  exact ⟨hstop, new, hnew, hs ▸ hstop ▸ hspans⟩

theorem follows_stop {n : Nat} (hs : s.run.stop = s.point.pos)
    (hm : ∀ u w m, ReflTransGen (g.Follows line (g.retokenize n)) s u →
      g.nextMatch line u.frames.top u.point = .ok (some (w, m)) → m.EnclosesGroups (w.captures g))
    (h : ReflTransGen (g.Follows line (g.retokenize n)) s t) : t.run.stop = t.point.pos := by
  induction h with
  | refl => exact hs
  | tail hsu hut ih => exact (step_stop hg hscanner horderly ih (fun w m => hm _ w m hsu) hut).1

end

/-- A match whose groups lie before its end has tokens up to there, and the next match is tokenized from there on.
A group behind the end makes the tokens reach further. -/
theorem tokens_reach_match {scope : String} {grammars : GrammarSet} {scanner : Scanner} (hscanner : scanner.Sound)
    (horderly : scanner.Orderly) (hcompile : compile scope grammars scanner = .ok g) (n : Nat) (line : Line) :
    (∀ {p patterns m table s t}, g.Finds line p patterns m → emitMatch line (g.retokenize n) table m s = .ok t →
      (∃ new, t.run.latest = new ++ s.run.latest ∧ TokenRun.Spans s.run.stop new t.run.stop) ∧
      t.run.stop = ((matchGroups line m s table).map CaptureContext.reach).foldl max (max s.run.stop m.stop) ∧
      (t.run.stop = max s.run.stop m.stop ↔
        ∀ e ∈ matchGroups line m s table, CaptureContext.reach e ≤ max s.run.stop m.stop)) ∧
    ∀ {s t}, s.run.stop = s.point.pos → ReflTransGen (g.Follows line (g.retokenize n)) s t →
      (∀ u w m, ReflTransGen (g.Follows line (g.retokenize n)) s u →
        g.nextMatch line u.frames.top u.point = .ok (some (w, m)) → m.EnclosesGroups (w.captures g)) →
      t.run.stop = t.point.pos ∧ ∀ u, g.Follows line (g.retokenize n) t u →
        ∃ new, u.run.latest = new ++ t.run.latest ∧ TokenRun.Spans t.point.pos new u.point.pos := by
  have hg := compile_wellFormed hcompile
  have hscanner : g.scanner.Sound := compile_scanner hcompile ▸ hscanner
  have horderly : g.scanner.Orderly := compile_scanner hcompile ▸ horderly
  constructor
  · intro p patterns m table s t hfinds h
    have hwithin := hfinds.within hscanner
    have htable := scopeClosed_true.sound (retokenize_inLine hg hscanner n) s.frames.scoped_true table
    have hgrow := emitMatch_grows isBoundary_places htable trivial hwithin h
    have hstop := stop_emitMatch (retokenize_covers hg hscanner n) hwithin h
    refine ⟨hgrow.exists_new, hstop, ?_⟩
    rw [hstop, foldl_max_eq]
    exact List.forall_mem_map
  · intro s t hs hst hm
    have ht := follows_stop hg hscanner horderly hs hm hst
    refine ⟨ht, fun u htu => ?_⟩
    exact (step_stop hg hscanner horderly ht (fun w m => hm t w m hst) htu).2

def lettersGrammar (pattern : String) : GrammarDescription where
  scopeName := "s"
  patterns := [
    { pattern := some pattern, name := some "m", captures := some [("1", { name := some "letter" })] },
    { pattern := some "b", name := some "b" }]

theorem tokens_reach_match_letters :
    let line := Line.ofText "ab"
    let s : ScanState := ⟨⟨.root root "s", []⟩, ⟨0, true, none⟩, .startingAt 0⟩
    let run : TokenRun := ⟨[⟨1, 2, ["s", "m", "letter"]⟩, ⟨0, 1, ["s", "m"]⟩], 2⟩
    let t : ScanState := ⟨⟨.root root "s", []⟩, ⟨2, false, none⟩, run⟩
    ∃ g, compile "s" [("s", lettersGrammar "a(b)")] .standard = .ok g ∧ g.Follows line (g.retokenize 0) s t ∧
      s.run.stop = s.point.pos ∧ t.run.stop = t.point.pos ∧
      ∃ new, t.run.latest = new ++ s.run.latest ∧ TokenRun.Spans s.point.pos new t.point.pos := by
  intro line s run t
  obtain ⟨g, hg, hst, ht, hms, hmt⟩ : ∃ g, compile "s" [("s", lettersGrammar "a(b)")] .standard = .ok g ∧
      (g.step line (g.retokenize 0) s).toOption = some (.more t) ∧
      (g.step line (g.retokenize 0) t).toOption = some (.done (t.cover 3)) ∧
      ((g.nextMatch line s.frames.top s.point).toOption.all fun r =>
        r.all fun (w, m) => m.EnclosesGroups (w.captures g)) = true ∧
      ((g.nextMatch line t.frames.top t.point).toOption.all fun r => r.isNone) = true :=
    ⟨_, rfl, by decide +kernel, by decide +kernel, by decide +kernel, by decide +kernel⟩
  have hst : g.Follows line (g.retokenize 0) s t := ok_of_toOption hst
  have ht := ok_of_toOption ht
  have hreached : ∀ u, ReflTransGen (g.Follows line (g.retokenize 0)) s u → u = s ∨ u = t := by
    intro u hu
    induction hu with
    | refl => exact .inl rfl
    | tail _ huv ih =>
      rcases ih with rfl | rfl
      · cases hst.symm.trans huv
        exact .inr rfl
      · cases ht.symm.trans huv
  obtain ⟨-, hmatches⟩ := tokens_reach_match Scanner.standard_sound Scanner.standard_orderly hg 0 line
  have hencloses : ∀ u w m, ReflTransGen (g.Follows line (g.retokenize 0)) s u →
      g.nextMatch line u.frames.top u.point = .ok (some (w, m)) → m.EnclosesGroups (w.captures g) := by
    intro u w m hu hnext
    rcases hreached u hu with rfl | rfl
    · rw [hnext] at hms
      exact of_decide_eq_true hms
    · rw [hnext] at hmt
      cases hmt
  exact ⟨g, hg, hst, rfl, (hmatches rfl (.single hst) hencloses).1, (hmatches rfl .refl hencloses).2 t hst⟩

/-- A group in a look-ahead makes the tokens reach further, and what matches there next has none. -/
theorem tokens_pass_lookahead :
    let line := Line.ofText "abc"
    let top : Frame := ⟨1, some 0, none, false, none, ["s", "m"], ["s", "m"]⟩
    let s : ScanState := ⟨⟨top, [.root root "s"]⟩, ⟨0, true, none⟩, .startingAt 0⟩
    ∃ g m table t r, compile "s" [("s", lettersGrammar "a(?=b(c))")] .standard = .ok g ∧
      g.Finds line s.point (g.startPatterns root) m ∧ m.stop = 1 ∧
      emitMatch line (g.retokenize 0) table m s = .ok t ∧ s.run.stop = 0 ∧ t.run.stop = 3 ∧
      g.tokenizeLine "abc" .initial = .ok r ∧
      r.tokens = [⟨0, 2, ["s", "m"]⟩, ⟨2, 3, ["s", "m", "letter"]⟩] := by
  intro line top s
  let m : ScanMatch := ⟨0, ⟨0, 1⟩, [some ⟨2, 3⟩]⟩
  let table : CaptureTable := [(1, ⟨some (.ofText "letter"), none, none⟩)]
  let run : TokenRun := ⟨[⟨2, 3, ["s", "m", "letter"]⟩, ⟨0, 2, ["s", "m"]⟩], 3⟩
  obtain ⟨g, hg, hfinds, ht, hr⟩ : ∃ g, compile "s" [("s", lettersGrammar "a(?=b(c))")] .standard = .ok g ∧
      ((g.scanner.compile ((g.startPatterns root).map s.point.anchoring.patternText)).toOption.bind
        fun matcher => matcher.find line s.point.pos) = some m ∧
      (emitMatch line (g.retokenize 0) table m s).toOption = some { s with run := run } ∧
      (g.tokenizeLine "abc" .initial).toOption.map (·.tokens) =
        some [⟨0, 2, ["s", "m"]⟩, ⟨2, 3, ["s", "m", "letter"]⟩] :=
    ⟨_, rfl, by decide +kernel, by decide +kernel, by decide +kernel⟩
  obtain ⟨matcher, hmatcher, hfind⟩ := Option.bind_eq_some_iff.mp hfinds
  obtain ⟨r, hr, htokens⟩ := Option.map_eq_some_iff.mp hr
  exact ⟨g, m, table, _, r, hg, ⟨matcher, ok_of_toOption hmatcher, hfind⟩, rfl, ok_of_toOption ht, rfl, rfl,
    ok_of_toOption hr, htokens⟩

end Grammar

end GrammarScopes
