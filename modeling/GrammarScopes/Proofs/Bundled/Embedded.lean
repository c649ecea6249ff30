import GrammarScopes.Proofs.Bundled.Descriptions
import GrammarScopes.Proofs.Tokenizer.EnclosingRules
import GrammarScopes.Proofs.Tokenizer.Evaluation
import GrammarScopes.Proofs.Tokenizer.Partition
import GrammarScopes.Service

/-!
Scripts and styles in HTML.  A document that begins with one stays inside it up to the first line with
its closing tag, whatever the lines contain.
-/

namespace GrammarScopes

namespace Grammar

variable {g : Grammar} {base : Frames} {ids : List RuleId} {S : List String → Prop}

def stackAfter (g : Grammar) (lines : List String) (stack : RuleStack) : Except GrammarError RuleStack :=
  lines.foldlM (fun stack text => return (← g.tokenizeLine text stack).stack) stack

theorem stackAfter_cons {text : String} {stack : RuleStack} {r : LineTokens}
    (h : g.tokenizeLine text stack = .ok r) (lines : List String) :
    g.stackAfter (text :: lines) stack = g.stackAfter lines r.stack := by
  rw [stackAfter, List.foldlM_cons, h]
  rfl

theorem walkLines_append {maxLength : Nat} (character : Nat) (root : String) {before : List String}
    {stack stack' : RuleStack} (hshort : ∀ text ∈ before, isTooLong maxLength text = false)
    (h : g.stackAfter before stack = .ok stack') (line : Nat) (lines : List String) :
    g.walkLines maxLength character root (before.length + line) (before ++ lines) stack =
      g.walkLines maxLength character root line lines stack' := by
  induction before generalizing stack with
  | nil =>
    cases h
    rw [List.length_nil, Nat.zero_add, List.nil_append]
  | cons text before ih =>
    obtain ⟨htext, hbefore⟩ := List.forall_mem_cons.mp hshort
    rw [stackAfter, List.foldlM_cons] at h
    obtain ⟨next, hnext, h⟩ := bind_eq_ok.mp h
    obtain ⟨r, hr, hnext⟩ := bind_eq_ok.mp hnext
    cases hnext
    rw [List.length_cons, Nat.add_right_comm, List.cons_append]
    rw [walkLines, if_neg (by simp [htext]), hr]
    exact ih hbefore h

theorem walkLines_zero (hg : g.WellFormed) (hscanner : g.scanner.Sound) {maxLength : Nat} {text : String}
    (hshort : isTooLong maxLength text = false) {stack : RuleStack} {r : LineTokens}
    (h : g.tokenizeLine text stack = .ok r) (character : Nat) (root : String) (lines : List String) :
    ∃ t ∈ r.tokens, g.walkLines maxLength character root 0 (text :: lines) stack = .ok (some t.scopes) := by
  obtain ⟨t, ht, hat⟩ := scopesAt_tokenizeNested hg hscanner h character root
  refine ⟨t, ht, ?_⟩
  unfold walkLines
  rw [if_neg (by simp [hshort]), h]
  exact congrArg (fun scopes => Except.ok (some scopes)) hat

theorem stackAfter_enclosed (hg : g.WellFormed) (hscanner : g.scanner.Sound)
    (henc : g.Encloses base ids S) {lines : List String}
    (hend : ∀ text ∈ lines, g.NoEnd base.top.rule (.ofText text)) {fs : Frames}
    (hfs : g.Enclosed base ids S fs.top fs.below) :
    ∃ fs', g.stackAfter lines (.active fs) = .ok (.active fs') ∧
      g.Enclosed base ids S fs'.top fs'.below := by
  induction lines generalizing fs with
  | nil => exact ⟨fs, rfl, hfs⟩
  | cons text lines ih =>
    obtain ⟨htext, hlines⟩ := List.forall_mem_cons.mp hend
    obtain ⟨tokens, fs', htokens, hfs', -⟩ :=
      hfs.tokenizeNested_ok (n := nestingLimit) hg henc hscanner.endsInLine htext
    rw [stackAfter_cons htokens]
    exact ih hlines hfs'

theorem walkLines_enclosed (hg : g.WellFormed) (hscanner : g.scanner.Sound)
    (henc : g.Encloses base ids S) (maxLength character : Nat) (root : String) {line : Nat}
    {lines : List String} (hline : line < lines.length)
    (hshort : ∀ text ∈ lines.take (line + 1), isTooLong maxLength text = false)
    (hend : ∀ text ∈ lines.take (line + 1), g.NoEnd base.top.rule (.ofText text)) {fs : Frames}
    (hfs : g.Enclosed base ids S fs.top fs.below) :
    ∃ scopes, g.walkLines maxLength character root line lines (.active fs) = .ok (some scopes) ∧
      S scopes := by
  obtain ⟨before, text, after, rfl, rfl⟩ :
      ∃ before text after, lines = before ++ text :: after ∧ line = before.length :=
    ⟨lines.take line, lines[line], lines.drop (line + 1), by simp,
      (List.length_take_of_le (Nat.le_of_lt hline)).symm⟩
  have htake : (before ++ text :: after).take (before.length + 1) = before ++ [text] :=
    List.take_length_add_append 1
  rw [htake, List.forall_mem_append, List.forall_mem_singleton] at hshort hend
  obtain ⟨fs', hstack, hfs'⟩ := stackAfter_enclosed hg hscanner henc hend.1 hfs
  obtain ⟨tokens, _, htokens, -, hscopes⟩ :=
    hfs'.tokenizeNested_ok (n := nestingLimit) hg henc hscanner.endsInLine hend.2
  obtain ⟨t, ht, hwalk⟩ := walkLines_zero hg hscanner hshort.2 htokens character root after
  refine ⟨t.scopes, ?_, hscopes t ht⟩
  exact (walkLines_append character root hshort.1 hstack 0 (text :: after)).trans hwalk

end Grammar

inductive Embedded
  | script
  | style

namespace Embedded

def opening : Embedded → String
  | script => "<script>"
  | style => "<style>"

def closing : Embedded → String
  | script => "</script"
  | style => "</style"

def closingTag (e : Embedded) : String := e.closing ++ ">"

def language : Embedded → String
  | script => "source.js"
  | style => "source.css"

def scopes (e : Embedded) : List String := ["text.html.basic", "meta.embedded.block.html", e.language]

def commentStyle : Embedded → CommentStyle
  | script => .line
  | style => .block

/-- Names that leave the comment style as it is: inside a style, those that do not speak of scripts. -/
def allows : Embedded → List Char → Bool
  | script, _ => true
  | style, name =>
    !CommentStyle.occurs "javascript".toList (Text.lower name) &&
      !CommentStyle.occurs "source.js".toList (Text.lower name)

variable {e : Embedded} {g : Grammar}

theorem allows_scopes (e : Embedded) : ∀ s ∈ e.scopes, e.allows s.toList = true := by
  cases e <;> decide +kernel

theorem ofScopes_eq {scopes : List String} (h : ScopesWithin e.scopes e.allows scopes) :
    CommentStyle.ofScopes (some scopes) = e.commentStyle := by
  obtain ⟨hbase, hallows⟩ := h
  have hlanguage : e.language ∈ scopes := hbase.subset (by simp [Embedded.scopes])
  unfold CommentStyle.ofScopes
  dsimp only
  cases e with
  | script =>
    have hany : scopes.any fun s =>
        CommentStyle.mentions "javascript" s || CommentStyle.mentions "source.js" s :=
      List.any_eq_true.mpr ⟨_, hlanguage, by decide +kernel⟩
    rw [if_pos hany]
    rfl
  | style =>
    have hnone : ¬ scopes.any fun s =>
        CommentStyle.mentions "javascript" s || CommentStyle.mentions "source.js" s := by
      rw [List.any_eq_true]
      rintro ⟨s, hs, hmentions⟩
      have hs := hallows s hs
      simp only [allows, Bool.and_eq_true, Bool.not_eq_true'] at hs
      simp only [CommentStyle.mentions, hs.1, hs.2] at hmentions
      cases hmentions
    have hany : scopes.any (CommentStyle.mentions "css") :=
      List.any_eq_true.mpr ⟨_, hlanguage, by decide +kernel⟩
    rw [if_neg hnone, if_pos hany]
    rfl

def opened? (e : Embedded) (g : Grammar) : Option Frames := g.evalLine? e.opening .initial

def inside (g : Grammar) (fs : Frames) : List RuleId :=
  g.reach g.ruleCount (candidates g.rules fs.top.rule)

/-- The opening tag leads into a region that nothing leaves but its closing tag. -/
def isKept (e : Embedded) (g : Grammar) : Bool :=
  e.opened? g |>.any fun fs =>
    fs.top.limit.isNone && fs.top.contentScopes == e.scopes &&
      fs.below.all (fun f => !((g.rule? f.rule) matches some (.beginWhile _))) &&
      g.encloses fs.top.rule (inside g fs) e.closing.toList e.allows

theorem encloses_of_isKept (hscanner : g.scanner = .standard) (h : e.isKept g = true) :
    ∃ fs, e.opened? g = some fs ∧ g.Encloses fs (inside g fs) (ScopesWithin e.scopes e.allows) ∧
      ∀ text : String, ∀ n ≤ text.toList.length,
        ¬ e.closing.toList <:+: (text.toList.drop n).flatMap Text.foldChar →
          g.NoEndFrom fs.top.rule (.ofText text) ((Line.ofText text).offset n) := by
  obtain ⟨fs, hfs, h⟩ := (Option.any_eq_true _ _).mp h
  simp only [Bool.and_eq_true, Option.isNone_iff_eq_none, beq_iff_eq] at h
  obtain ⟨⟨⟨hlimit, hscopes⟩, hbelow⟩, hencloses⟩ := h
  have hscopes : ScopesWithin e.scopes e.allows fs.top.contentScopes := by
    rw [hscopes]
    exact ⟨List.prefix_rfl, e.allows_scopes⟩
  have houter : ∀ f ∈ fs.below, g.NotWhile f.rule := by
    intro f hf region hrule
    have hnot := List.all_eq_true.mp hbelow f hf
    rw [hrule] at hnot
    cases hnot
  refine ⟨fs, hfs, Grammar.encloses_spec hscanner hlimit hscopes houter hencloses, fun text n hn htext => ?_⟩
  exact Grammar.noEndFrom_of_encloses hscanner hencloses (by cases e <;> decide) hn htext

theorem isKept_spec (hscanner : g.scanner = .standard) (h : e.isKept g = true) :
    ∃ fs, e.opened? g = some fs ∧
      g.Enclosed fs (inside g fs) (ScopesWithin e.scopes e.allows) fs.top fs.below ∧
      g.Encloses fs (inside g fs) (ScopesWithin e.scopes e.allows) ∧
      ∀ text : String, ¬ e.closing.toList <:+: text.toList.flatMap Text.foldChar →
        g.NoEnd fs.top.rule (.ofText text) := by
  obtain ⟨fs, hfs, henc, hend⟩ := encloses_of_isKept hscanner h
  refine ⟨fs, hfs, .region rfl, henc, fun text htext => ?_⟩
  exact (hend text 0 (Nat.zero_le _) htext).mono (Nat.le_of_eq (Line.offset_zero _))

/-- Characters with which something begins in the text around the region. -/
def isMarkup (c : Char) : Bool := c == '<' || c == '&'

/-- The closing tag ends the region where nothing inside is active any more, and what is active inside
never ends right before it. -/
def isLeft (e : Embedded) (g : Grammar) : Bool :=
  e.opened? g |>.any fun fs =>
    g.evalLine? e.closingTag (.active fs) == some ⟨.root Grammar.root "text.html.basic", []⟩ &&
      g.endsPastStart (inside g fs) (.ofText e.closingTag) && g.hasEnd (·.needs isMarkup) fs.top.rule &&
      (g.startPatterns Grammar.root).all (Pattern.passes (·.needs isMarkup))

/-- Whether something is active in the region after a line that was not before it. -/
def leavesOpen (e : Embedded) (g : Grammar) (text : String) : Option Bool := do
  let fs ← e.opened? g
  let fs' ← g.evalLine? text (.active fs)
  return fs'.depth != fs.depth

/-- Compiles grammars that are given by their lines, and looks whether they keep scripts and styles up to
their closing tags. -/
def check (html js css : List (List Char)) : Option Bool := do
  let html ← (Bundled.describe html).toOption
  let js ← (Bundled.describe js).toOption
  let css ← (Bundled.describe css).toOption
  let g ← (Grammar.compile "text.html.basic" (Bundled.grammars html js css) .standard).toOption
  return html.externalScopes == ["source.css", "source.js"] && js.externalScopes.isEmpty &&
    css.externalScopes.isEmpty && script.isKept g && style.isKept g && script.isLeft g && style.isLeft g &&
    script.leavesOpen g "f(x)" == some false && script.leavesOpen g "/*" == some true

open Bundled in
theorem check_of_lines {html js css : List (List Char)} (hhtml : htmlLines.map String.toList = html)
    (hjs : javaScriptLines.map String.toList = js) (hcss : cssLines.map String.toList = css)
    (h : check html js css = some true) :
    check (htmlLines.map String.toList) (javaScriptLines.map String.toList)
      (cssLines.map String.toList) = some true := by
  rw [hhtml, hjs, hcss, h]

open Bundled in
theorem check_bundled :
    check (htmlLines.map String.toList) (javaScriptLines.map String.toList)
      (cssLines.map String.toList) = some true := by
  apply check_of_lines
  case hhtml =>
    repeat apply map_toList_cons
    rfl
  case hjs =>
    repeat apply map_toList_cons
    rfl
  case hcss =>
    repeat apply map_toList_cons
    rfl
  case h => decide +kernel

theorem exists_checked : ∃ g : Grammar, Registry.CompilesTo .bundled .bundled "text.html.basic" g ∧
    (∀ e : Embedded, e.isKept g = true ∧ e.isLeft g = true) ∧
    script.leavesOpen g "f(x)" = some false ∧ script.leavesOpen g "/*" = some true := by
  have hchecked := check_bundled
  simp only [check, Option.bind_eq_bind, Option.bind_eq_some_iff, Option.pure_def,
    Option.some.injEq, Bool.and_eq_true, beq_iff_eq, List.isEmpty_iff] at hchecked
  obtain ⟨html, hhtml, js, hjs, css, hcss, g, hg, hchecked⟩ := hchecked
  obtain ⟨⟨⟨⟨hchecked, hscript⟩, hstyle⟩, hclosed⟩, hopen⟩ := hchecked
  obtain ⟨⟨⟨⟨hembedded, hnone⟩, hnone'⟩, hscript'⟩, hstyle'⟩ := hchecked
  refine ⟨g, ?_, fun e => ?_, hclosed, hopen⟩
  · exact Bundled.compilesTo (ok_of_toOption hhtml) (ok_of_toOption hjs) (ok_of_toOption hcss)
      hembedded hnone hnone' (ok_of_toOption hg)
  · cases e with
    | script => exact ⟨hscript', hscript⟩
    | style => exact ⟨hstyle', hstyle⟩

theorem exists_kept : ∃ g : Grammar, Registry.CompilesTo .bundled .bundled "text.html.basic" g ∧
    ∀ e : Embedded, e.isKept g = true := by
  obtain ⟨g, hcompiles, hchecked, -⟩ := exists_checked
  exact ⟨g, hcompiles, fun e => (hchecked e).1⟩

theorem tokenizeLine_opened (hg : g.WellFormed) (hscanner : g.scanner = .standard) {fs : Frames}
    (hopened : e.opened? g = some fs) :
    ∃ tokens, g.tokenizeLine e.opening .initial = .ok ⟨tokens, .active fs⟩ :=
  Grammar.tokenizeLine_of_eval hg hscanner hopened

end Embedded

/-- A document that begins with a script or a style stays inside it up to the first line with its closing
tag, whatever the lines contain: the scopes at every column begin with those of the region, and the
comment style is that of its language. -/
theorem Service.embedded_scopes (e : Embedded) {s : Service} {root : Option String}
    (hbundled : s.grammar root = Registry.loadAlone .bundled .bundled "text.html.basic")
    {d : Document} {p : Position} (hfirst : d.lines.head? = some e.opening) (hinside : 0 < p.line)
    (hline : p.line < d.lineCount)
    (hshort : ∀ text ∈ d.lines.take (p.line + 1), isTooLong s.maxLineLength text = false)
    (hopen : ∀ text ∈ (d.lines.take (p.line + 1)).tail,
      ¬ e.closing.toList <:+: text.toList.flatMap Text.foldChar) :
    (∃ scopes, s.scopesAt? d p root = some scopes ∧ e.scopes <+: scopes) ∧
      s.commentStyleAt d p root = e.commentStyle := by
  obtain ⟨g, hcompiles, hkept⟩ := Embedded.exists_kept
  have hgrammar : s.grammar root = .ok g := hbundled.trans (Registry.loadAlone_of_compilesTo hcompiles)
  obtain ⟨found, hcompile⟩ := hcompiles.exists_compile
  have hg := Grammar.compile_wellFormed hcompile
  have hscanner := Grammar.compile_scanner hcompile
  obtain ⟨fs, hopened, hfs, henc, hend⟩ := Embedded.isKept_spec hscanner (hkept e)
  obtain ⟨tokens, hrun⟩ := Embedded.tokenizeLine_opened hg hscanner hopened
  obtain ⟨lines⟩ := d
  obtain ⟨line, character⟩ := p
  obtain ⟨lines, rfl⟩ : ∃ rest, lines = e.opening :: rest := List.head?_eq_some_iff.mp hfirst
  obtain ⟨n, rfl⟩ := Nat.exists_eq_add_one.mpr hinside
  rw [List.take_succ_cons] at hshort hopen
  rw [List.forall_mem_cons] at hshort
  obtain ⟨scopes, hwalk, hscopes⟩ := g.walkLines_enclosed hg (hscanner ▸ Scanner.standard_sound) henc
    s.maxLineLength character (root.getD s.rootScope) (Nat.lt_of_succ_lt_succ hline) hshort.2
    (fun text htext => hend text (hopen text htext)) hfs
  have hat : s.scopesAt? ⟨e.opening :: lines⟩ ⟨n + 1, character⟩ root = some scopes := by
    simp only [scopesAt?, hgrammar, Question.scopesWith, Grammar.scopesAt?, Grammar.walkLines,
      hshort.1, hrun, bind, Except.bind, hwalk]
    rfl
  refine ⟨⟨scopes, hat, hscopes.1⟩, ?_⟩
  rw [commentStyleAt, hat]
  exact Embedded.ofScopes_eq hscopes

theorem Service.embedded_scopes_unclosed :
    let s : Service := .ofSettings {} {}
    let d : Document := ⟨["<script>", "if (x) \x7b /* ", "\" </style", "</script>"]⟩
    (∃ scopes, s.scopesAt? d ⟨2, 7⟩ none = some scopes ∧
      ["text.html.basic", "meta.embedded.block.html", "source.js"] <+: scopes) ∧
      s.commentStyleAt d ⟨2, 7⟩ none = .line := by
  intro s d
  have hregistry :
      s.registry = { table := .bundled, world := { source := .bundled, backend := .immediate } } := rfl
  have hroot : (none : Option String).getD s.rootScope = "text.html.basic" := rfl
  have hbundled : s.grammar none = Registry.loadAlone .bundled .bundled "text.html.basic" := by
    rw [grammar, hroot, hregistry, Registry.loadAlone]
  have hshort : ∀ text ∈ d.lines.take 3, isTooLong s.maxLineLength text = false := by decide +kernel
  have hopen : ∀ text ∈ (d.lines.take 3).tail,
      ¬ "</script".toList <:+: text.toList.flatMap Text.foldChar := by decide +kernel
  exact embedded_scopes .script hbundled rfl (by decide) (by decide) hshort hopen

end GrammarScopes
