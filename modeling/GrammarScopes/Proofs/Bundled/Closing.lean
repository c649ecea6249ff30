import GrammarScopes.Proofs.Bundled.Embedded

/-!
Behind a script or a style.  Only the end of the rule on top is looked for, so that the closing tag ends the
region where nothing inside it is active any more; a comment or a bracket that is left open hides the tag.
-/

namespace GrammarScopes

namespace Grammar

variable {g : Grammar}

theorem walkLines_last (hg : g.WellFormed) (hsound : g.scanner.Sound) {maxLength : Nat} {before : List String}
    {line text : String} (hshort : ∀ l ∈ before ++ [line, text], isTooLong maxLength l = false)
    {stack : RuleStack} (hbefore : g.stackAfter before .initial = .ok stack) {P : List String → Prop}
    (h : ∃ r r', g.tokenizeLine line stack = .ok r ∧ g.tokenizeLine text r.stack = .ok r' ∧
      ∀ t ∈ r'.tokens, P t.scopes) (character : Nat) (root : String) :
    ∃ scopes, g.walkLines maxLength character root (before.length + 1) (before ++ [line, text]) .initial =
      .ok (some scopes) ∧ P scopes := by
  obtain ⟨r, r', hr, hr', hscopes⟩ := h
  rw [List.forall_mem_append, List.forall_mem_cons, List.forall_mem_singleton] at hshort
  obtain ⟨hshort, hline, htext⟩ := hshort
  obtain ⟨t, ht, hwalk⟩ := walkLines_zero hg hsound htext hr' character root []
  refine ⟨t.scopes, ?_, hscopes t ht⟩
  rw [walkLines_append character root hshort hbefore 1 [line, text], ← hwalk]
  exact walkLines_append character root (List.forall_mem_singleton.mpr hline) (stackAfter_cons hr []) 0 [text]

/-- At which positions of the line before it rules became active makes no difference to a line. -/
theorem tokenizeLine_congr {fs fs' : Frames}
    (h : fs.mapFrames Frame.forNextLine = fs'.mapFrames Frame.forNextLine) (text : String) :
    g.tokenizeLine text (.active fs) = g.tokenizeLine text (.active fs') := by
  simp only [tokenizeLine, tokenizeNested, startFrames, RuleStack.isInitial, h]

theorem tokenizeLine_plain (hg : g.WellFormed) (hscanner : g.scanner = .standard) {test : Char → Bool}
    (hneeds : ∀ s ∈ g.startPatterns root, Pattern.passes (·.needs test) s = true) {text : String}
    (htext : ∀ c ∈ (Line.ofText text).chars.toList, test c = false) (scope : String) :
    ∃ r, g.tokenizeLine text (.active ⟨.root root scope, []⟩) = .ok r ∧
      ∀ t ∈ r.tokens, t.scopes = [scope] := by
  obtain ⟨parts, hroot⟩ := hg.root_container
  have hends : g.scanner.EndsInLine := hscanner ▸ Scanner.standard_sound.endsInLine
  have hwhile : ∀ f ∈ (Frames.mk (.root root scope) []).toList, g.NotWhile f.rule := by
    refine List.forall_mem_singleton.mpr fun region hregion => ?_
    cases hroot.symm.trans hregion
  obtain ⟨tokens, htokens, hscopes⟩ := tokenizeNested_unmatched (n := nestingLimit) hg hends hwhile
    (nextMatch_of_needs hg hscanner hroot hneeds htext)
  exact ⟨_, htokens, hscopes⟩

end Grammar

namespace Embedded

variable {e : Embedded} {g : Grammar}

theorem isMarkup_ofText {text : String} (h : ∀ c ∈ text.toList, c ≠ '<' ∧ c ≠ '&') :
    ∀ c ∈ (Line.ofText text).chars.toList, isMarkup c = false := by
  intro c hc
  rcases List.mem_append.mp hc with hc | hc
  · simp [isMarkup, h c hc]
  · rw [List.mem_singleton.mp hc]
    rfl

/-- What is computed of the closing tag, and of the text around the region. -/
structure Leaves (e : Embedded) (g : Grammar) (base : Frames) : Prop where
  closing : ∃ tokens, g.tokenizeLine e.closingTag (.active base) =
    .ok ⟨tokens, .active ⟨.root Grammar.root "text.html.basic", []⟩⟩
  past : g.EndPastStart (inside g base) (.ofText e.closingTag)
  limit : g.hasEnd (·.needs isMarkup) base.top.rule = true
  starts : ∀ s ∈ g.startPatterns Grammar.root, Pattern.passes (·.needs isMarkup) s = true

theorem isLeft_spec (hg : g.WellFormed) (hscanner : g.scanner = .standard) (h : e.isLeft g = true)
    {fs : Frames} (hfs : e.opened? g = some fs) : e.Leaves g fs := by
  unfold isLeft at h
  simp only [hfs, Option.any_some, Bool.and_eq_true, beq_iff_eq] at h
  obtain ⟨⟨⟨hclosing, hpast⟩, hlimit⟩, hstarts⟩ := h
  exact ⟨Grammar.tokenizeLine_of_eval hg hscanner hclosing,
    Grammar.endPastStart_of_endsPastStart hscanner hpast, hlimit, List.all_eq_true.mp hstarts⟩

section

variable {base : Frames} {S : List String → Prop} (hg : g.WellFormed) (hscanner : g.scanner = .standard)
  (hleaves : e.Leaves g base)

include hg hscanner hleaves

theorem Leaves.tokenizeLine_closed {fs : Frames}
    (hfs : g.Enclosed base (inside g base) S fs.top fs.below) (hdepth : fs.depth = base.depth)
    {text : String} (htext : ∀ c ∈ (Line.ofText text).chars.toList, isMarkup c = false) :
    ∃ r r', g.tokenizeLine e.closingTag (.active fs) = .ok r ∧ g.tokenizeLine text r.stack = .ok r' ∧
      ∀ t ∈ r'.tokens, t.scopes = ["text.html.basic"] := by
  obtain ⟨tokens, hr⟩ := hleaves.closing
  obtain ⟨r', hr', hscopes⟩ := Grammar.tokenizeLine_plain hg hscanner hleaves.starts htext "text.html.basic"
  rw [← Grammar.tokenizeLine_congr (hfs.eq_of_depth hdepth)] at hr
  exact ⟨_, r', hr, hr', hscopes⟩

/-- Deeper inside the region, the closing tag is text like any other. -/
theorem Leaves.tokenizeLine_deeper (henc : g.Encloses base (inside g base) S)
    (hend : g.NoEndFrom base.top.rule (.ofText e.closingTag) 1) {fs : Frames}
    (hfs : g.Enclosed base (inside g base) S fs.top fs.below) (hdepth : fs.depth ≠ base.depth)
    {text : String} (htext : ∀ c ∈ (Line.ofText text).chars.toList, isMarkup c = false) :
    ∃ r r', g.tokenizeLine e.closingTag (.active fs) = .ok r ∧ g.tokenizeLine text r.stack = .ok r' ∧
      ∀ t ∈ r'.tokens, S t.scopes := by
  have hends : g.scanner.EndsInLine := hscanner ▸ Scanner.standard_sound.endsInLine
  obtain ⟨tokens, fs', hr, hfs'⟩ := hfs.tokenizeNested_deeper (n := Grammar.nestingLimit) hg henc hends hend
    hleaves.past hdepth
  have hplain : g.NoEnd base.top.rule (.ofText text) := Grammar.noEnd_of_needs hscanner hleaves.limit htext
  obtain ⟨tokens', fs'', hr', -, hscopes⟩ :=
    hfs'.tokenizeNested_ok (n := Grammar.nestingLimit) hg henc hends hplain
  exact ⟨_, _, hr, hr', hscopes⟩

end

theorem walkLines_closing (hg : g.WellFormed) (hscanner : g.scanner = .standard)
    (hkept : e.isKept g = true) (hleft : e.isLeft g = true) {maxLength : Nat} {lines : List String}
    {text : String}
    (hshort : ∀ line ∈ e.opening :: lines ++ [e.closingTag, text], isTooLong maxLength line = false)
    (hlines : ∀ line ∈ lines, ¬ e.closing.toList <:+: line.toList.flatMap Text.foldChar)
    (htext : ∀ c ∈ text.toList, c ≠ '<' ∧ c ≠ '&') (character : Nat) (root : String) :
    ∃ opened left scopes, g.stackAfter [e.opening] .initial = .ok opened ∧
      g.stackAfter (e.opening :: lines) .initial = .ok left ∧
      g.walkLines maxLength character root (lines.length + 2)
        (e.opening :: lines ++ [e.closingTag, text]) .initial = .ok (some scopes) ∧
      if left.depth = opened.depth then scopes = ["text.html.basic"]
      else ScopesWithin e.scopes e.allows scopes := by
  have hsound : g.scanner.Sound := hscanner ▸ Scanner.standard_sound
  obtain ⟨base, hbase, henc, hend⟩ := encloses_of_isKept hscanner hkept
  have hleaves := isLeft_spec hg hscanner hleft hbase
  have htext := isMarkup_ofText htext
  obtain ⟨tokens, hopening⟩ := tokenizeLine_opened hg hscanner hbase
  have hopened : g.stackAfter [e.opening] .initial = .ok (.active base) := Grammar.stackAfter_cons hopening []
  have hnoend : ∀ line ∈ lines, g.NoEnd base.top.rule (.ofText line) := fun line hline =>
    (hend line 0 (Nat.zero_le _) (hlines line hline)).mono (Nat.le_of_eq (Line.offset_zero _))
  obtain ⟨fs, hleft, hfs⟩ := Grammar.stackAfter_enclosed hg hsound henc hnoend
    (.region rfl : g.Enclosed base _ _ base.top base.below)
  have hleft : g.stackAfter (e.opening :: lines) .initial = .ok (.active fs) :=
    (Grammar.stackAfter_cons hopening lines).trans hleft
  by_cases hdepth : fs.depth = base.depth
  · obtain ⟨scopes, hwalk, hscopes⟩ := Grammar.walkLines_last (P := (· = ["text.html.basic"])) hg hsound hshort
      hleft (hleaves.tokenizeLine_closed hg hscanner hfs hdepth htext) character root
    exact ⟨_, _, scopes, hopened, hleft, hwalk, (if_pos hdepth).mpr hscopes⟩
  · have hclosing : g.NoEndFrom base.top.rule (.ofText e.closingTag) 1 := by
      have hoffset : (Line.ofText e.closingTag).offset 1 = 1 := by cases e <;> decide +kernel
      have hnot : ¬ e.closing.toList <:+: (e.closingTag.toList.drop 1).flatMap Text.foldChar := by
        cases e <;> decide +kernel
      exact hoffset ▸ hend e.closingTag 1 (by cases e <;> decide +kernel) hnot
    obtain ⟨scopes, hwalk, hscopes⟩ := Grammar.walkLines_last hg hsound hshort hleft
      (hleaves.tokenizeLine_deeper hg hscanner henc hclosing hfs hdepth htext) character root
    exact ⟨_, _, scopes, hopened, hleft, hwalk, (if_neg hdepth).mpr hscopes⟩

theorem stackAfter_of_leavesOpen (hg : g.WellFormed) (hscanner : g.scanner = .standard) {text : String}
    {b : Bool} (h : e.leavesOpen g text = some b) :
    ∃ opened left, g.stackAfter [e.opening] .initial = .ok opened ∧
      g.stackAfter [e.opening, text] .initial = .ok left ∧ (left.depth != opened.depth) = b := by
  simp only [leavesOpen, Option.bind_eq_bind, Option.bind_eq_some_iff, Option.pure_def,
    Option.some.injEq] at h
  obtain ⟨fs, hfs, fs', hfs', hdepth⟩ := h
  obtain ⟨tokens, hopening⟩ := tokenizeLine_opened hg hscanner hfs
  obtain ⟨tokens', htext⟩ := Grammar.tokenizeLine_of_eval hg hscanner hfs'
  refine ⟨.active fs, .active fs', Grammar.stackAfter_cons hopening [], ?_, hdepth⟩
  exact (Grammar.stackAfter_cons hopening [text]).trans (Grammar.stackAfter_cons htext [])

end Embedded

namespace Service

variable {s : Service} {root : Option String}

theorem scopesAt?_of_walkLines {g : Grammar} (hgrammar : s.grammar root = .ok g) {d : Document}
    {p : Position} {scopes : List String}
    (h : g.walkLines s.maxLineLength p.character (root.getD s.rootScope) p.line d.lines .initial =
      .ok (some scopes)) :
    s.scopesAt? d p root = some scopes := by
  rw [scopesAt?, hgrammar, Question.scopesWith, Grammar.scopesAt?, h]

theorem grammar_ofSettings :
    (Service.ofSettings {} {}).grammar none = Registry.loadAlone .bundled .bundled "text.html.basic" := by
  have hregistry : (Service.ofSettings {} {}).registry =
      { table := .bundled, world := { source := .bundled, backend := .immediate } } := rfl
  have hroot : (none : Option String).getD (Service.ofSettings {} {}).rootScope = "text.html.basic" := rfl
  rw [grammar, hroot, hregistry, Registry.loadAlone]

/-- Plain text behind the closing tag of a script or a style has the scope of the page alone and comments of
markup, if the lines inside leave nothing open.  If they do, the closing tag is not seen, and the text is
still inside. -/
theorem scopes_after_closing (e : Embedded)
    (hbundled : s.grammar root = Registry.loadAlone .bundled .bundled "text.html.basic")
    {lines : List String} {text : String} {d : Document}
    (hdocument : d.lines = e.opening :: lines ++ [e.closingTag, text])
    (hshort : ∀ line ∈ d.lines, isTooLong s.maxLineLength line = false)
    (hlines : ∀ line ∈ lines, ¬ e.closing.toList <:+: line.toList.flatMap Text.foldChar)
    (htext : ∀ c ∈ text.toList, c ≠ '<' ∧ c ≠ '&') (character : Nat) :
    ∃ g opened left, s.grammar root = .ok g ∧ g.stackAfter [e.opening] .initial = .ok opened ∧
      g.stackAfter (e.opening :: lines) .initial = .ok left ∧
      if left.depth = opened.depth then
        s.scopesAt? d ⟨lines.length + 2, character⟩ root = some ["text.html.basic"] ∧
          s.commentStyleAt d ⟨lines.length + 2, character⟩ root = .markup
      else
        (∃ scopes, s.scopesAt? d ⟨lines.length + 2, character⟩ root = some scopes ∧ e.scopes <+: scopes) ∧
          s.commentStyleAt d ⟨lines.length + 2, character⟩ root = e.commentStyle := by
  obtain ⟨g, hcompiles, hchecked, -⟩ := Embedded.exists_checked
  have hgrammar : s.grammar root = .ok g := hbundled.trans (Registry.loadAlone_of_compilesTo hcompiles)
  obtain ⟨found, hcompile⟩ := hcompiles.exists_compile
  obtain ⟨hkept, hleft⟩ := hchecked e
  rw [hdocument] at hshort
  obtain ⟨opened, left, scopes, hopened, hstack, hwalk, hscopes⟩ :=
    Embedded.walkLines_closing (Grammar.compile_wellFormed hcompile) (Grammar.compile_scanner hcompile)
      hkept hleft hshort hlines htext character (root.getD s.rootScope)
  have hat : s.scopesAt? d ⟨lines.length + 2, character⟩ root = some scopes :=
    scopesAt?_of_walkLines hgrammar (hdocument ▸ hwalk)
  refine ⟨g, opened, left, hgrammar, hopened, hstack, ?_⟩
  rw [commentStyleAt, hat]
  split at hscopes
  next hdepth =>
    rw [if_pos hdepth, hscopes]
    exact ⟨rfl, by decide +kernel⟩
  next hdepth =>
    rw [if_neg hdepth]
    exact ⟨⟨scopes, rfl, hscopes.1⟩, Embedded.ofScopes_eq hscopes⟩

theorem scopes_after_closing_call :
    let s : Service := .ofSettings {} {}
    let d : Document := ⟨["<script>", "f(x)", "</script>", "x"]⟩
    s.scopesAt? d ⟨3, 0⟩ none = some ["text.html.basic"] ∧ s.commentStyleAt d ⟨3, 0⟩ none = .markup := by
  intro s d
  have hdocument : d.lines = Embedded.script.opening :: ["f(x)"] ++ [Embedded.script.closingTag, "x"] := by
    decide +kernel
  have hshort : ∀ line ∈ d.lines, isTooLong s.maxLineLength line = false := by decide +kernel
  have hlines : ∀ line ∈ ["f(x)"], ¬ "</script".toList <:+: line.toList.flatMap Text.foldChar := by
    decide +kernel
  have htext : ∀ c ∈ "x".toList, c ≠ '<' ∧ c ≠ '&' := by simp
  obtain ⟨g, opened, left, hgrammar, hopened, hstack, hscopes⟩ :=
    scopes_after_closing .script grammar_ofSettings hdocument hshort hlines htext 0
  obtain ⟨g', hcompiles, -, hclosed, -⟩ := Embedded.exists_checked
  have hgrammar' := grammar_ofSettings.trans (Registry.loadAlone_of_compilesTo hcompiles)
  cases hgrammar.symm.trans hgrammar'
  obtain ⟨found, hcompile⟩ := hcompiles.exists_compile
  obtain ⟨opened', left', hopened', hstack', hdepth⟩ := Embedded.stackAfter_of_leavesOpen
    (Grammar.compile_wellFormed hcompile) (Grammar.compile_scanner hcompile) hclosed
  cases hopened.symm.trans hopened'
  cases hstack.symm.trans hstack'
  rwa [if_pos (by simpa using hdepth)] at hscopes

/-- A comment that is left open. -/
theorem scopes_after_closing_comment :
    let s : Service := .ofSettings {} {}
    let d : Document := ⟨["<script>", "/*", "</script>", "x"]⟩
    (∀ line ∈ d.lines, isTooLong s.maxLineLength line = false) ∧
      (¬ "</script".toList <:+: "/*".toList.flatMap Text.foldChar) ∧
      (∀ c ∈ "x".toList, c ≠ '<' ∧ c ≠ '>' ∧ c ≠ '&') ∧
      s.scopesAt? d ⟨3, 0⟩ none ≠ some ["text.html.basic"] ∧ s.commentStyleAt d ⟨3, 0⟩ none = .line := by
  intro s d
  have hdocument : d.lines = Embedded.script.opening :: ["/*"] ++ [Embedded.script.closingTag, "x"] := by
    decide +kernel
  have hshort : ∀ line ∈ d.lines, isTooLong s.maxLineLength line = false := by decide +kernel
  have hlines : ¬ "</script".toList <:+: "/*".toList.flatMap Text.foldChar := by decide +kernel
  obtain ⟨g, hcompiles, hchecked, -, hopen⟩ := Embedded.exists_checked
  have hgrammar := grammar_ofSettings.trans (Registry.loadAlone_of_compilesTo hcompiles)
  obtain ⟨found, hcompile⟩ := hcompiles.exists_compile
  have hg := Grammar.compile_wellFormed hcompile
  have hscanner := Grammar.compile_scanner hcompile
  obtain ⟨hkept, hleft⟩ := hchecked .script
  obtain ⟨opened, left, scopes, hopened, hstack, hwalk, hscopes⟩ :=
    Embedded.walkLines_closing hg hscanner hkept hleft (hdocument ▸ hshort)
      (List.forall_mem_singleton.mpr hlines) (by simp) 0 "text.html.basic"
  obtain ⟨opened', left', hopened', hstack', hdepth⟩ :=
    Embedded.stackAfter_of_leavesOpen hg hscanner hopen
  cases hopened.symm.trans hopened'
  cases hstack.symm.trans hstack'
  rw [if_neg (by simpa using hdepth)] at hscopes
  have hat : s.scopesAt? d ⟨3, 0⟩ none = some scopes := scopesAt?_of_walkLines hgrammar (hdocument ▸ hwalk)
  refine ⟨hshort, hlines, by simp, ?_, ?_⟩
  · rw [hat]
    rintro ⟨⟩
    exact absurd hscopes.1.length_le (by decide)
  · rw [commentStyleAt, hat]
    exact Embedded.ofScopes_eq hscopes

end Service

end GrammarScopes
