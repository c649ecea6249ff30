import GrammarScopes.Proofs.Tokenizer.Run

/-!
The rules that stay active from line to line.  At the bottom is the root of the grammar, and above it
regions, each with all scopes of what is inside the one below.  Every token has the scope of the grammar
first and otherwise names without white space.
-/

namespace GrammarScopes

namespace Text

theorem mem_words {cs w : List Char} (h : w ∈ words cs) : w ≠ [] ∧ ∀ c ∈ w, isBlank c = false := by
  fun_induction words cs generalizing w with
  | case1 => cases h
  | case2 c cs hc ih => exact ih h
  | case3 c hc =>
    obtain rfl := List.mem_singleton.mp h
    simpa using hc
  | case4 c hc d cs hd ih =>
    rcases List.mem_cons.mp h with rfl | h
    · simpa using hc
    · exact ih h
  | case5 c hc d cs hd hnil ih =>
    rw [hnil] at h
    obtain rfl := List.mem_singleton.mp h
    simpa using hc
  | case6 c hc d cs hd v vs hvs ih =>
    rw [hvs] at h
    rcases List.mem_cons.mp h with rfl | h
    · have hv := ih (hvs ▸ List.mem_cons_self)
      exact ⟨by simp, List.forall_mem_cons.mpr ⟨by simpa using hc, hv.2⟩⟩
    · exact ih (hvs ▸ List.mem_cons_of_mem _ h)

end Text

/-- The scope of a grammar, and inside it names that are not empty and have no white space. -/
def ScopesOf (scopeName : String) (scopes : List String) : Prop :=
  ∃ names, scopes = scopeName :: names ∧
    ∀ name ∈ names, name ≠ "" ∧ ∀ c ∈ name.toList, Text.isBlank c = false

theorem scopesOf_closed (scopeName : String) : ScopeClosed (ScopesOf scopeName) := by
  rintro _ name ⟨names, rfl, hnames⟩
  cases name with
  | none => exact ⟨names, rfl, hnames⟩
  | some n =>
    refine ⟨names ++ (Text.words n.toList).map String.ofList, rfl, fun x hx => ?_⟩
    rcases List.mem_append.mp hx with hx | hx
    · exact hnames x hx
    · obtain ⟨w, hw, rfl⟩ := List.mem_map.mp hx
      obtain ⟨hne, hblank⟩ := Text.mem_words hw
      refine ⟨?_, by simpa using hblank⟩
      rwa [ne_eq, ← String.toList_eq_nil_iff, String.toList_ofList]

theorem prefix_pushScopes (base : List String) (name : Option String) :
    base <+: pushScopes base name := by
  cases name with
  | none => exact List.prefix_rfl
  | some n => exact List.prefix_append _ _

namespace Grammar

variable {g : Grammar}

/-- The rules that are active between lines: the root, and above it regions.  A region has a limit of
its own if its pattern refers back, and its scopes go on from those inside the region around it. -/
inductive Nested (g : Grammar) : Frame → List Frame → Prop
  | root : Nested g (.root root g.scopeName) []
  | region {f outer : Frame} {below : List Frame} {rule : Rule} {region : Region} :
      Nested g outer below → g.rule? f.rule = some rule → rule.region? = some region →
      f.limit.isSome = BackReference.occursIn region.limitSource →
      outer.contentScopes <+: f.nameScopes → f.nameScopes <+: f.contentScopes →
      Nested g f (outer :: below)

theorem Nested.suffix {top : Frame} {below : List Frame} (h : Nested g top below) {fs : Frames}
    (hfs : fs.toList <:+ top :: below) : Nested g fs.top fs.below := by
  obtain ⟨top', below'⟩ := fs
  change top' :: below' <:+ top :: below at hfs
  induction h with
  | root =>
    rcases List.suffix_cons_iff.mp hfs with heq | hnil
    · cases heq
      exact .root
    · cases List.suffix_nil.mp hnil
  | region hn hrule hregion hlimit houter hinner ih =>
    rcases List.suffix_cons_iff.mp hfs with heq | hsuffix
    · cases heq
      exact .region hn hrule hregion hlimit houter hinner
    · exact ih hsuffix

theorem Nested.forNextLine {top : Frame} {below : List Frame} (h : Nested g top below) :
    Nested g top.forNextLine (below.map Frame.forNextLine) := by
  induction h with
  | root => exact .root
  | region _ hrule hregion hlimit houter hinner ih =>
    exact .region ih hrule hregion hlimit houter hinner

theorem FramesStep.nested (hg : g.WellFormed) {fs fs' : Frames} (h : FramesStep g fs fs')
    (hn : Nested g fs.top fs.below) : Nested g fs'.top fs'.below := by
  cases h with
  | stay => exact hn
  | reset hrule =>
    obtain ⟨patterns, hroot⟩ := hg.root_container
    obtain ⟨top, below⟩ := fs
    cases hn with
    | root => cases hroot.symm.trans hrule
    | region hn hrule' hregion hlimit houter hinner =>
      exact .region hn hrule' hregion hlimit houter List.prefix_rfl
  | leave =>
    obtain ⟨top, below⟩ := fs
    cases hn with
    | root => exact .root
    | region hn _ _ _ _ _ => exact hn
  | enter hrule hregion hlimit hname hcontent =>
    refine .region hn hrule hregion (hlimit.trans (hg.hasBackReferences_eq hrule hregion)) ?_ ?_
    · exact hname ▸ prefix_pushScopes _ _
    · exact hcontent ▸ prefix_pushScopes _ _

theorem framesSteps_nested (hg : g.WellFormed) {fs fs' : Frames}
    (h : Relation.ReflTransGen (FramesStep g) fs fs') (hn : Nested g fs.top fs.below) :
    Nested g fs'.top fs'.below := by
  induction h with
  | refl => exact hn
  | tail _ hstep ih => exact hstep.nested hg ih

/-- What a line can begin with: nothing yet, or nested rules whose scopes are those of the grammar. -/
def Ready (g : Grammar) (stack : RuleStack) : Prop :=
  Nested g (g.startFrames stack).top (g.startFrames stack).below ∧
    (g.startFrames stack).Scoped (ScopesOf g.scopeName)

theorem ready_initial (g : Grammar) : g.Ready .initial := by
  refine ⟨.root, fun f hf => ?_⟩
  rw [List.mem_singleton.mp hf]
  exact ⟨⟨[], rfl, by simp⟩, ⟨[], rfl, by simp⟩⟩

theorem tokenizeNested_ready (hg : g.WellFormed) {n : Nat} {text : String} {stack : RuleStack}
    {r : LineTokens} (hstack : g.Ready stack) (h : g.tokenizeNested n text stack = .ok r) :
    (∃ fs, r.stack = .active fs ∧ Nested g fs.top fs.below) ∧ g.Ready r.stack ∧
      ∀ t ∈ r.tokens, ScopesOf g.scopeName t.scopes := by
  have hS := scopesOf_closed g.scopeName
  obtain ⟨hnested, hscoped⟩ := hstack
  obtain ⟨run, fs, fs', hgrow, -, htokens, hsuffix, hsteps, hr⟩ :=
    tokenizeNested_spec hg g.scanner.findsIn_true true_places hS hscoped h
  have hnested' := framesSteps_nested hg hsteps (hnested.suffix hsuffix)
  have hscoped' : fs'.Scoped (ScopesOf g.scopeName) :=
    framesSteps_scoped hsteps hS fun f hf => hscoped f (hsuffix.mem hf)
  rw [hr, htokens]
  refine ⟨⟨fs', rfl, hnested'⟩, ⟨hnested'.forNextLine, ?_⟩, ?_⟩
  · intro f hf
    have hf : f ∈ fs'.toList.map Frame.forNextLine := hf
    obtain ⟨f', hf', rfl⟩ := List.mem_map.mp hf
    exact hscoped' f' hf'
  · intro t ht
    obtain ⟨u, hu, rfl⟩ := List.mem_map.mp ht
    obtain ⟨v, hv, hscopes, -⟩ := TokenRun.mem_trimLast_dropBreak (List.mem_reverse.mp hu)
    change ScopesOf g.scopeName u.scopes
    rw [hscopes]
    exact (hgrow.forall_latest (by simp [TokenRun.startingAt]) v hv).2

inductive Reachable (g : Grammar) : RuleStack → Prop
  | initial : Reachable g .initial
  | line {stack : RuleStack} {text : String} {r : LineTokens} :
      Reachable g stack → g.tokenizeLine text stack = .ok r → Reachable g r.stack

theorem Reachable.ready (hg : g.WellFormed) {stack : RuleStack} (h : g.Reachable stack) :
    g.Ready stack := by
  induction h with
  | initial => exact g.ready_initial
  | line _ hr ih => exact (tokenizeNested_ready hg ih hr).2.1

/-- After every line of a document the root of the grammar is active and above it regions, and every
token of the line has the scope of the grammar first and otherwise names. -/
theorem tokenizeLine_nested {scope : String} {grammars : GrammarSet} {scanner : Scanner}
    (hcompile : compile scope grammars scanner = .ok g) {stack : RuleStack}
    (hstack : g.Reachable stack) {text : String} {r : LineTokens}
    (h : g.tokenizeLine text stack = .ok r) :
    (∃ fs, r.stack = .active fs ∧ Nested g fs.top fs.below) ∧
      ∀ t ∈ r.tokens, ScopesOf g.scopeName t.scopes := by
  have hg := compile_wellFormed hcompile
  obtain ⟨hactive, -, htokens⟩ := tokenizeNested_ready hg (hstack.ready hg) h
  exact ⟨hactive, htokens⟩

def echoGrammar : GrammarDescription where
  scopeName := "s"
  patterns := [{
    name := some "echo"
    contentName := some "inside text"
    beginPattern := some "<(a|b)"
    beginCaptures := some [("1", { name := some "mark.$1", patterns := some [] })]
    endPattern := some "\\1" }]

theorem tokenizeLine_nested_echo :
    ∃ g r r', compile "s" [("s", echoGrammar)] .standard = .ok g ∧
      g.tokenizeLine "<a" .initial = .ok r ∧ g.tokenizeLine "b" r.stack = .ok r' ∧
      (∃ fs, r'.stack = .active fs ∧ Nested g fs.top fs.below ∧ fs.top.limit = some "a") ∧
      ∀ t ∈ r'.tokens, ScopesOf "s" t.scopes := by
  let inside : Frame :=
    ⟨1, some 0, none, false, some "a", ["s", "echo"], ["s", "echo", "inside", "text"]⟩
  let r : LineTokens :=
    ⟨[⟨0, 1, ["s", "echo"]⟩, ⟨1, 2, ["s", "echo", "mark.a"]⟩], .active ⟨inside, [.root 0 "s"]⟩⟩
  let r' : LineTokens :=
    ⟨[⟨0, 1, ["s", "echo", "inside", "text"]⟩],
      .active ⟨inside.forNextLine, [.root 0 "s"]⟩⟩
  have hrun : ∃ g, compile "s" [("s", echoGrammar)] .standard = .ok g ∧
      (g.tokenizeLine "<a" .initial).toOption = some r ∧
      (g.tokenizeLine "b" r.stack).toOption = some r' :=
    ⟨_, rfl, by decide +kernel, by decide +kernel⟩
  obtain ⟨g, hg, hr, hr'⟩ := hrun
  have hreach : g.Reachable r.stack := .line .initial (ok_of_toOption hr)
  obtain ⟨⟨fs, hfs, hnested⟩, htokens⟩ := tokenizeLine_nested hg hreach (ok_of_toOption hr')
  have hlimit : fs.top.limit = some "a" := by cases hfs; rfl
  exact ⟨g, r, r', hg, ok_of_toOption hr, ok_of_toOption hr', ⟨fs, hfs, hnested, hlimit⟩,
    compile_scopeName hg ▸ htokens⟩

end Grammar

end GrammarScopes
