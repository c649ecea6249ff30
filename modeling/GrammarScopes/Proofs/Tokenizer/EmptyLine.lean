import GrammarScopes.Proofs.Tokenizer.Partition

/-!
The one token of an empty line.  It has the scopes in which the line feed was found, which are those of
what follows the line as long as no match reaches past the text.
-/

namespace GrammarScopes

def Rule.isBeginWhile : Rule → Bool
  | beginWhile _ => true
  | _ => false

namespace Grammar

open Relation (ReflTransGen)

/-- The states in which the active rules are asked whether they go on. -/
inductive Checks (g : Grammar) (line : Line) (again : Retokenize) (point : ScanPoint) (run : TokenRun) :
    Frame → List Frame → ScanState → Prop
  | bottom {f : Frame} : Checks g line again point run f [] ⟨⟨f, []⟩, point, run⟩
  | onTop {f outer : Frame} {below : List Frame} {w : WhileState} :
      g.checkFrames line again point run outer below = .ok w → w.hasEnded = false →
      Checks g line again point run f (outer :: below) (w.scan.withFrames (w.scan.frames.push f))
  | lower {f outer : Frame} {below : List Frame} {s : ScanState} :
      Checks g line again point run outer below s → Checks g line again point run f (outer :: below) s

/-- The matches that are made on a line: of patterns that let a region go on, and then one after the
other while the line is scanned. -/
inductive MatchedOn (g : Grammar) (line : Line) (again : Retokenize) (fs : Frames)
    (isTextStart : Bool) : ScanMatch → Prop
  | goesOn {s : ScanState} {region : Region} {m : ScanMatch} :
      g.Checks line again ⟨0, isTextStart, if fs.top.beganAtEnd then some 0 else none⟩
        (.startingAt 0) fs.top fs.below s →
      g.rule? s.frames.top.rule = some (.beginWhile region) →
      g.Finds line s.point [s.frames.top.limitSource region] m →
      MatchedOn g line again fs isTextStart m
  | next {s t : ScanState} {w : Winner} {m : ScanMatch} :
      g.checkWhile line again fs isTextStart = .ok s → ReflTransGen (g.Follows line again) s t →
      g.nextMatch line t.frames.top t.point = .ok (some (w, m)) →
      MatchedOn g line again fs isTextStart m

variable {g : Grammar} {line : Line} {again : Retokenize} {s t u : ScanState} {m : ScanMatch}

theorem emitMatch_run {table : CaptureTable} (hm : m.Within (· = 0))
    (h : emitMatch line again table m s = .ok u) : u.run = s.run := by
  obtain ⟨run, hrun, h⟩ := bind_eq_ok.mp h
  cases h
  let c : CaptureContext := ⟨line, s.frames, s.point.isTextStart, m.captures⟩
  have hgroups : c.groups table = [] := by
    refine List.eq_nil_iff_forall_not_mem.mpr fun e he => ?_
    obtain ⟨group, -, hspan, hne⟩ := CaptureContext.mem_groups he
    obtain ⟨hstart, hstop⟩ := hm e.2 (List.mem_of_getElem? hspan)
    exact hne (hstart.trans hstop.symm)
  have hemit : c.emit again table s.run = .ok s.run := by
    rw [CaptureContext.emit, hgroups]
    rfl
  cases hemit.symm.trans hrun
  rw [ScanState.cover, hm.stop]
  rfl

def Progress.Still (line : Line) (run : TokenRun) : Progress → Prop
  | .more t => t.run = run
  | .done t => t.run = run.extend line.size t.frames.top.contentScopes

theorem still_done {run : TokenRun} (h : t.run = run) :
    Progress.Still line run (.done (t.cover line.size)) :=
  congrArg (TokenRun.extend · line.size t.frames.top.contentScopes) h

theorem step_still {p : Progress}
    (hm : ∀ w m, g.nextMatch line s.frames.top s.point = .ok (some (w, m)) → m.Within (· = 0))
    (h : g.step line again s = .ok p) : Progress.Still line s.run p := by
  have hcover {w : Winner} {m : ScanMatch}
      (hnext : g.nextMatch line s.frames.top s.point = .ok (some (w, m))) :
      (s.cover m.start).run = s.run := by
    rw [ScanState.cover, (hm w m hnext).start]
    rfl
  have hended {region : Region} {m : ScanMatch} {u : ScanState}
      (hnext : g.nextMatch line s.frames.top s.point = .ok (some (.limit region, m)))
      (hu : emitMatch line again region.limitCaptures m (s.closing m) = .ok u) : u.run = s.run :=
    (emitMatch_run (hm _ m hnext) hu).trans (hcover hnext)
  have hstarted {id : RuleId} {rule : Rule} {table : CaptureTable} {m : ScanMatch} {u : ScanState}
      (hnext : g.nextMatch line s.frames.top s.point = .ok (some (.rule id, m)))
      (hu : emitMatch line again table m (starting line id rule m s) = .ok u) : u.run = s.run :=
    (emitMatch_run (hm _ m hnext) hu).trans (hcover hnext)
  cases step_outcome h with
  | rest hnext => exact still_done rfl
  | kept hnext hu => exact still_done (hended hnext hu)
  | left hnext hu _ _ =>
    have hrun := hended hnext hu
    exact hrun
  | entered hnext _ _ hu _ =>
    have hrun := hstarted hnext hu
    exact hrun
  | repeated hnext _ _ hu _ _ =>
    have hrun := hstarted hnext hu
    exact still_done hrun
  | single hnext _ hu _ =>
    have hrun := hstarted hnext hu
    exact hrun
  | emptySingle hnext _ hu _ =>
    have hrun := hstarted hnext hu
    exact still_done hrun
  | nothing hnext _ => exact still_done (hcover hnext)

theorem scan_still {n : Nat}
    (hm : ∀ t, ReflTransGen (g.Follows line again) s t → ∀ w m,
      g.nextMatch line t.frames.top t.point = .ok (some (w, m)) → m.Within (· = 0))
    (h : g.scan line again n s = .ok u) :
    u.run = s.run.extend line.size u.frames.top.contentScopes := by
  induction n generalizing s with
  | zero => cases h
  | succ n ih =>
    obtain ⟨p, hp, h⟩ := bind_eq_ok.mp h
    have hstep := step_still (hm s .refl) hp
    cases p with
    | more t =>
      have hrest := ih (fun u hu => hm u (.head hp hu)) h
      rwa [show t.run = s.run from hstep] at hrest
    | done t =>
      cases h
      exact hstep

theorem checkTop_still (hg : g.WellFormed) {w : WhileState}
    (hm : ∀ region m, g.rule? s.frames.top.rule = some (.beginWhile region) →
      g.Finds line s.point [s.frames.top.limitSource region] m → m.Within (· = 0))
    (h : g.checkTop line again s = .ok w) : w.scan.run = s.run := by
  unfold checkTop at h
  split at h
  next region hrule =>
    rw [limitMatcher_eq hg hrule rfl] at h
    obtain ⟨matcher, hmatcher, h⟩ := bind_eq_ok.mp h
    split at h
    next m hfind =>
      have hwithin := hm region m hrule ⟨matcher, orPatternError_eq_ok.mp hmatcher, hfind⟩
      obtain ⟨t, ht, h⟩ := bind_eq_ok.mp h
      cases h
      obtain ⟨u, hu, ht⟩ := bind_eq_ok.mp ht
      cases ht
      have hrun : u.run = (s.cover m.start).run := emitMatch_run hwithin hu
      refine hrun.trans ?_
      rw [ScanState.cover, hwithin.start]
      rfl
    next =>
      cases h
      rfl
  next =>
    cases h
    rfl

theorem checkFrames_still (hg : g.WellFormed) {point : ScanPoint} {run : TokenRun} {f : Frame}
    {below : List Frame} {w : WhileState}
    (hm : ∀ s, g.Checks line again point run f below s → ∀ region m,
      g.rule? s.frames.top.rule = some (.beginWhile region) →
      g.Finds line s.point [s.frames.top.limitSource region] m → m.Within (· = 0))
    (h : g.checkFrames line again point run f below = .ok w) : w.scan.run = run := by
  induction below generalizing f w with
  | nil => exact checkTop_still hg (hm _ .bottom) h
  | cons outer below ih =>
    obtain ⟨v, hv, h⟩ := bind_eq_ok.mp h
    have hrun := ih (fun s hs => hm s (.lower hs)) hv
    split at h
    next =>
      cases h
      exact hrun
    next hended =>
      have htop := hm _ (.onTop hv (by simpa using hended))
      exact (checkTop_still hg htop h).trans hrun

theorem finish_extend (scopes : List String) :
    ((TokenRun.startingAt 0).extend (Line.ofText "").size scopes).finish (.ofText "") =
      [⟨0, 0, scopes⟩] := rfl

/-- An empty line has one token, without width.  Its scopes are those of what follows the line, unless
a match or a group of one reaches past the text and over the line feed. -/
theorem tokenizeLine_empty {scope : String} {grammars : GrammarSet} {scanner : Scanner}
    (hcompile : compile scope grammars scanner = .ok g) (hscanner : scanner.Sound) {stack : RuleStack}
    {r : LineTokens} (h : g.tokenizeLine "" stack = .ok r) :
    (∃ scopes, r.tokens = [⟨0, 0, scopes⟩]) ∧
      ((∀ m, g.MatchedOn (.ofText "") (g.retokenize nestingLimit) (g.startFrames stack)
        stack.isInitial m → m.Within (· = 0)) → r.tokens = [⟨0, 0, r.stack.scopes⟩]) := by
  have hg := compile_wellFormed hcompile
  have hscanner : g.scanner.Sound := compile_scanner hcompile ▸ hscanner
  constructor
  · rcases (tokenizeNested_tokens hg hscanner h).1 with ⟨-, htokens⟩ | ⟨hpos, -⟩
    · exact htokens
    · exact absurd hpos (Nat.lt_irrefl 0)
  · intro hm
    obtain ⟨s, hs, h⟩ := bind_eq_ok.mp h
    obtain ⟨t, ht, h⟩ := bind_eq_ok.mp h
    cases h
    have hscan := scan_still (fun t hst w m hnext => hm m (.next hs hst hnext)) ht
    obtain ⟨w, hw, hs'⟩ := bind_eq_ok.mp hs
    cases hs'
    have hcheck := checkFrames_still hg
      (fun s hs region m hrule hfinds => hm m (.goesOn hs hrule hfinds)) hw
    rw [hcheck] at hscan
    change t.run.finish _ = [⟨0, 0, t.frames.top.contentScopes⟩]
    rw [hscan, finish_extend]

def paragraphGrammar : GrammarDescription where
  scopeName := "s"
  patterns := [{
    name := some "paragraph"
    beginPattern := some "a"
    endPattern := some "^$" }]

theorem tokenizeLine_empty_paragraph :
    ∃ g r r', compile "s" [("s", paragraphGrammar)] .standard = .ok g ∧
      g.tokenizeLine "a" .initial = .ok r ∧ r.stack.scopes = ["s", "paragraph"] ∧
      g.tokenizeLine "" r.stack = .ok r' ∧ r'.tokens = [⟨0, 0, r'.stack.scopes⟩] ∧
      r'.stack.scopes = ["s"] := by
  let inside : Frame := ⟨1, some 0, none, false, none, ["s", "paragraph"], ["s", "paragraph"]⟩
  let r : LineTokens := ⟨[⟨0, 1, ["s", "paragraph"]⟩], .active ⟨inside, [.root 0 "s"]⟩⟩
  let r' : LineTokens := ⟨[⟨0, 0, ["s"]⟩], .active ⟨.root 0 "s", []⟩⟩
  let s : ScanState :=
    ⟨⟨inside.forNextLine, [.root 0 "s"]⟩, ⟨0, false, none⟩, .startingAt 0⟩
  let t : ScanState := ⟨⟨.root 0 "s", []⟩, ⟨0, false, none⟩, .startingAt 0⟩
  let line := Line.ofText ""
  have hrun : ∃ g, compile "s" [("s", paragraphGrammar)] .standard = .ok g ∧
      (g.tokenizeLine "a" .initial).toOption = some r ∧
      (g.tokenizeLine "" r.stack).toOption = some r' ∧
      (g.checkWhile line (g.retokenize nestingLimit) s.frames false).toOption = some s ∧
      (g.step line (g.retokenize nestingLimit) s).toOption = some (.more t) ∧
      (g.step line (g.retokenize nestingLimit) t).toOption = some (.done (t.cover line.size)) ∧
      (g.nextMatch line s.frames.top s.point).toOption.join.map (·.2) = some ⟨0, ⟨0, 0⟩, []⟩ ∧
      (g.nextMatch line t.frames.top t.point).toOption.join.map (·.2) = none ∧
      g.rules.all (fun rule => !rule.isBeginWhile) = true := by
    refine ⟨_, rfl, ?_, ?_, ?_, ?_, ?_, ?_, ?_, ?_⟩ <;> decide +kernel
  obtain ⟨g, hg, hr, hr', hcheck, hstep, hlast, hends, hrest, hrules⟩ := hrun
  have hempty := tokenizeLine_empty hg Scanner.standard_sound (ok_of_toOption hr')
  refine ⟨g, r, r', hg, ok_of_toOption hr, rfl, ok_of_toOption hr', hempty.2 fun m hm => ?_, rfl⟩
  cases hm with
  | goesOn _ hrule _ =>
    have hmem := Array.mem_of_getElem? hrule
    cases Array.all_eq_true'.mp hrules _ hmem
  | @next s' u w m hs hsteps hnext =>
    cases (ok_of_toOption hcheck).symm.trans hs
    rcases hsteps.cases_head with rfl | ⟨t', ht, hsteps⟩
    · rw [hnext] at hends
      obtain rfl : m = ⟨0, ⟨0, 0⟩, []⟩ := Option.some.inj hends
      simp [ScanMatch.Within, ScanMatch.captures]
    · cases (ok_of_toOption hstep).symm.trans ht
      rcases hsteps.cases_head with rfl | ⟨u, hu, -⟩
      · rw [hnext] at hrest
        cases hrest
      · cases (ok_of_toOption hlast).symm.trans hu

def breakGrammar : GrammarDescription where
  scopeName := "s"
  patterns := [{ name := some "break", pattern := some "\\n" }]

/-- The token of an empty line can have a scope that is not open any more after the line. -/
theorem tokenizeLine_empty_break :
    ∃ g r, compile "s" [("s", breakGrammar)] .standard = .ok g ∧
      g.tokenizeLine "" .initial = .ok r ∧ r.tokens = [⟨0, 0, ["s", "break"]⟩] ∧
      r.stack.scopes = ["s"] := by
  let r : LineTokens := ⟨[⟨0, 0, ["s", "break"]⟩], .active ⟨.root 0 "s", []⟩⟩
  have hrun : ∃ g, compile "s" [("s", breakGrammar)] .standard = .ok g ∧
      (g.tokenizeLine "" .initial).toOption = some r := ⟨_, rfl, by decide +kernel⟩
  obtain ⟨g, hg, hr⟩ := hrun
  exact ⟨g, r, hg, ok_of_toOption hr, rfl, rfl⟩

end Grammar

end GrammarScopes
