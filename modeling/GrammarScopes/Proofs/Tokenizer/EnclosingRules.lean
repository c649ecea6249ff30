import GrammarScopes.Proofs.Pattern.Plain
import GrammarScopes.Proofs.Tokenizer.Enclosed
import Mathlib.Data.List.Infix

/-!
Regions for which it can be computed that nothing inside leaves them: no rule inside starts without
consuming text, and the end of the region only looks ahead for a word.
-/

namespace GrammarScopes

def ScopesWithin (base : List String) (good : List Char → Bool) (scopes : List String) : Prop :=
  base <+: scopes ∧ ∀ s ∈ scopes, good s.toList = true

def ScopeTemplate.keeps (good : List Char → Bool) (t : ScopeTemplate) : Bool :=
  let text := Text.decode t.text
  !(TemplatePiece.readFrom 0 text).any TemplatePiece.isReference && (Text.words text).all good

def CaptureTable.keeps (good : List Char → Bool) (table : CaptureTable) : Bool :=
  table.all fun e =>
    e.2.retokenize.isNone && e.2.name.all (·.keeps good) && e.2.contentName.all (·.keeps good)

def Region.keeps (good : List Char → Bool) (region : Region) : Bool :=
  region.contentName.all (·.keeps good) && !region.hasBackReferences &&
    Pattern.passes (fun _ => true) region.limitSource

/-- A rule that consumes text when it starts, adds `good` names only, and asks for nothing but its own
patterns. -/
def Rule.keeps (good : List Char → Bool) (rule : Rule) : Bool :=
  !(rule matches .beginWhile _) && rule.name?.all (·.keeps good) &&
    rule.tables.all (·.keeps good) && rule.region?.all (·.keeps good) &&
    rule.startPattern?.all (Pattern.passes (·.consumes))

variable {base : List String} {good : List Char → Bool}

theorem keepsScopes_none {S : List String → Prop} : KeepsScopes S none := fun _ _ _ h => h

theorem ScopeTemplate.keepsScopes {t : ScopeTemplate} (h : t.keeps good = true) :
    KeepsScopes (ScopesWithin base good) (some t) := by
  rintro line captures scopes ⟨hbase, hgood⟩
  simp only [keeps, Text.decode_eq, ← t.pieces_eq, Bool.and_eq_true, Bool.not_eq_true'] at h
  obtain ⟨hreferences, hwords⟩ := h
  have hresolve : t.resolve line captures = t.text := by
    rw [resolve, hasReferences, hreferences]
    rfl
  rw [Option.map_some, hresolve, pushScopes]
  refine ⟨hbase.trans (List.prefix_append _ _), fun s hs => ?_⟩
  rcases List.mem_append.mp hs with hs | hs
  · exact hgood s hs
  · obtain ⟨w, hw, rfl⟩ := List.mem_map.mp hs
    rw [String.toList_ofList]
    exact List.all_eq_true.mp hwords w hw

theorem keepsScopes_of_all {t : Option ScopeTemplate} (h : t.all (·.keeps good) = true) :
    KeepsScopes (ScopesWithin base good) t := by
  cases t with
  | none => exact keepsScopes_none
  | some t => exact ScopeTemplate.keepsScopes h

theorem CaptureTable.keeps_spec (base : List String) {table : CaptureTable} (h : table.keeps good = true) :
    table.IsPlain ∧ ∀ e ∈ table, KeepsScopes (ScopesWithin base good) e.2.name ∧
      KeepsScopes (ScopesWithin base good) e.2.contentName := by
  have hentry (e : Nat × CaptureRule) (he : e ∈ table) := List.all_eq_true.mp h e he
  simp only [Bool.and_eq_true, Option.isNone_iff_eq_none] at hentry
  refine ⟨fun e he => (hentry e he).1.1, fun e he => ?_⟩
  exact ⟨keepsScopes_of_all (hentry e he).1.2, keepsScopes_of_all (hentry e he).2⟩

/-- The appended line feed is no part of a word. -/
theorem Line.not_infix_drop {word : List Char} (hword : '\n' ∉ word) {text : String} {n : Nat}
    (hn : n ≤ text.toList.length) (h : ¬ word <:+: (text.toList.drop n).flatMap Text.foldChar) :
    ¬ word <:+: ((Line.ofText text).chars.toList.drop n).flatMap Text.foldChar := by
  have hchars : ((Line.ofText text).chars.toList.drop n).flatMap Text.foldChar =
      (text.toList.drop n).flatMap Text.foldChar ++ ['\n'] := by
    rw [ofText, ofChars, List.drop_append_of_le_length hn, List.flatMap_append]
    rfl
  rw [hchars]
  intro hinfix
  rcases List.infix_concat_iff.mp hinfix with hsuffix | hinfix
  · rcases List.suffix_concat_iff.mp hsuffix with rfl | ⟨start, rfl, -⟩
    · exact h List.nil_infix
    · simp at hword
  · exact h hinfix

namespace Grammar

variable {g : Grammar} {patterns : List String} (hscanner : g.scanner = .standard)

section

include hscanner

theorem compiles_of_passes {test : Pattern.Compiled → Bool}
    (h : ∀ s ∈ patterns, Pattern.passes test s = true) : g.Compiles patterns := by
  obtain ⟨cs, -, hcompile⟩ := Scanner.compile_passing h
  exact fun a => ⟨_, hscanner ▸ hcompile a⟩

theorem Finds.lt_stop (h : ∀ s ∈ patterns, Pattern.passes (·.consumes) s = true) {line : Line}
    {p : ScanPoint} {m : ScanMatch} (hfinds : g.Finds line p patterns m) : p.pos < m.stop := by
  obtain ⟨cs, hconsumes, hcompile⟩ := Scanner.compile_passing h
  obtain ⟨matcher, hmatcher, hfind⟩ := hfinds
  rw [hscanner, hcompile] at hmatcher
  cases hmatcher
  exact Scanner.lt_stop (fun c hc => by simpa [Pattern.Compiled.consumes] using hconsumes c hc) hfind

theorem not_finds_of_passes {test : Pattern.Compiled → Bool}
    (h : ∀ s ∈ patterns, Pattern.passes test s = true) {line : Line} {n : Nat}
    (hn : n ≤ line.chars.size) (hnone : ∀ c : Pattern.Compiled, test c = true → ∀ origin q, n ≤ q →
      c.matchAt ⟨line.chars, origin⟩ q = none)
    {p : ScanPoint} (hp : line.offset n ≤ p.pos) (m : ScanMatch) : ¬ g.Finds line p patterns m := by
  rintro ⟨matcher, hmatcher, hfind⟩
  obtain ⟨cs, htest, hcompile⟩ := Scanner.compile_passing h
  rw [hscanner, hcompile] at hmatcher
  cases hmatcher
  cases (Scanner.find_eq_none hn hp fun c hc => hnone c (htest c hc)).symm.trans hfind

theorem not_finds_of_looksFor {word : List Char}
    (h : ∀ s ∈ patterns, Pattern.passes (·.looksFor word) s = true) {line : Line} {n : Nat}
    (hn : n ≤ line.chars.size) (hline : ¬ word <:+: (line.chars.toList.drop n).flatMap Text.foldChar)
    {p : ScanPoint} (hp : line.offset n ≤ p.pos) (m : ScanMatch) : ¬ g.Finds line p patterns m := by
  refine not_finds_of_passes hscanner h hn (fun c hlooks origin q hq => ?_) hp m
  refine Pattern.Compiled.matchAt_of_looksFor hlooks fun hinfix => hline ?_
  obtain ⟨k, rfl⟩ := Nat.exists_eq_add_of_le hq
  rw [← List.drop_drop] at hinfix
  have hsuffix := List.IsSuffix.flatMap (List.drop_suffix k (line.chars.toList.drop n)) Text.foldChar
  exact hinfix.trans hsuffix.isInfix

theorem not_finds_of_needs {test : Char → Bool}
    (h : ∀ s ∈ patterns, Pattern.passes (·.needs test) s = true) {line : Line}
    (hline : ∀ c ∈ line.chars.toList, test c = false) (p : ScanPoint) (m : ScanMatch) :
    ¬ g.Finds line p patterns m := by
  refine not_finds_of_passes hscanner h (Nat.zero_le _) (fun c hneeds origin q _ => ?_)
    (line.offset_zero.trans_le (Nat.zero_le _)) m
  exact Pattern.Compiled.matchAt_of_needs hneeds hline q

theorem isInner_of_keeps {rule : Rule} (h : rule.keeps good = true) :
    g.IsInner (ScopesWithin base good) rule := by
  simp only [Rule.keeps, Bool.and_eq_true] at h
  obtain ⟨⟨⟨⟨hwhile, hname⟩, htables⟩, hregion⟩, -⟩ := h
  have htables (table : CaptureTable) (htable : table ∈ rule.tables) :=
    CaptureTable.keeps_spec base (List.all_eq_true.mp htables table htable)
  have hregion (region : Region) (hr : rule.region? = some region) : region.keeps good = true := by
    rw [hr] at hregion
    exact hregion
  simp only [Region.keeps, Bool.and_eq_true, Bool.not_eq_true'] at hregion
  constructor
  · rintro region rfl
    cases hwhile
  · exact keepsScopes_of_all hname
  · exact fun table htable => (htables table htable).1
  · exact fun table htable => (htables table htable).2
  · exact fun region hr => keepsScopes_of_all (hregion region hr).1.1
  · exact fun region hr => (hregion region hr).1.2
  · intro region hr
    have hlimit : ∀ s ∈ [region.limitSource], Pattern.passes (fun _ => true) s = true :=
      List.forall_mem_singleton.mpr (hregion region hr).2
    exact compiles_of_passes hscanner hlimit

end

theorem nextMatch_of_needs (hg : g.WellFormed) (hscanner : g.scanner = .standard) {test : Char → Bool}
    {f : Frame} {parts : List RuleId} (hrule : g.rule? f.rule = some (.container parts))
    (h : ∀ s ∈ g.startPatterns f.rule, Pattern.passes (·.needs test) s = true) {line : Line}
    (hline : ∀ c ∈ line.chars.toList, test c = false) (p : ScanPoint) :
    g.nextMatch line f p = .ok none := by
  have hmatch : ∃ x, g.ruleMatch line f p = .ok x :=
    ruleMatch_ok hg (compiles_of_passes hscanner h) p
  have hend : g.endMatch line f p = .ok (none, false) := by
    rw [endMatch, hrule]
    rfl
  obtain ⟨next, hnext⟩ : ∃ next, g.nextMatch line f p = .ok next :=
    exists_ok_bind hmatch fun _ _ => exists_ok_bind ⟨_, hend⟩ fun _ _ => ⟨_, rfl⟩
  cases next with
  | none => exact hnext
  | some wm =>
    obtain ⟨w, m⟩ := wm
    rcases nextMatch_eq_ok hg hnext with ⟨_, _, _, hfinds⟩ | ⟨_, _, _, hregion, _⟩
    · exact absurd hfinds (not_finds_of_needs hscanner h hline p m)
    · cases hrule.symm.trans hregion

/-- The rules that `ids` lead to, in `n` rounds at most. -/
def reach (g : Grammar) : Nat → List RuleId → List RuleId
  | 0, ids => ids
  | n + 1, ids =>
    let more := (ids ++ ids.flatMap (candidates g.rules)).dedup
    if more.length = ids.length then ids else reach g n more

def hasEnd (g : Grammar) (test : Pattern.Compiled → Bool) (r : RuleId) : Bool :=
  match g.rule? r with
  | some (.beginEnd region _) => Pattern.passes test region.limitSource
  | _ => false

theorem hasEnd_iff {test : Pattern.Compiled → Bool} {r : RuleId} :
    g.hasEnd test r = true ↔ ∃ region endLast, g.rule? r = some (.beginEnd region endLast) ∧
      Pattern.passes test region.limitSource = true := by
  unfold hasEnd
  split
  next region endLast hr => simp [hr]
  next hnot =>
    refine iff_of_false Bool.false_ne_true ?_
    rintro ⟨region, endLast, hr, -⟩
    exact hnot region endLast hr

/-- The region `r` ends where a word is ahead, and encloses the rules `ids`. -/
def encloses (g : Grammar) (r : RuleId) (ids : List RuleId) (word : List Char)
    (good : List Char → Bool) : Bool :=
  g.hasEnd (·.looksFor word) r &&
  (r :: ids).all (fun id => (candidates g.rules id).all ids.contains) &&
  ids.all fun id => (g.rule? id).any (·.keeps good)

theorem encloses_spec (hscanner : g.scanner = .standard) {fs : Frames} {ids : List RuleId}
    {word : List Char} (hlimit : fs.top.limit = none)
    (hscopes : ScopesWithin base good fs.top.contentScopes)
    (houter : ∀ f ∈ fs.below, g.NotWhile f.rule) (h : g.encloses fs.top.rule ids word good = true) :
    g.Encloses fs ids (ScopesWithin base good) := by
  simp only [encloses, Bool.and_eq_true] at h
  obtain ⟨⟨hregion, hcandidates⟩, hids⟩ := h
  obtain ⟨region, endLast, hr, hends⟩ := hasEnd_iff.mp hregion
  have hinner (id : RuleId) (hid : id ∈ ids) :
      ∃ rule, g.rule? id = some rule ∧ rule.keeps good = true :=
    (Option.any_eq_true _ _).mp (List.all_eq_true.mp hids id hid)
  refine ⟨⟨region, endLast, hr, ?_⟩, hlimit, hscopes, houter, ?_, ?_⟩
  · exact compiles_of_passes hscanner (List.forall_mem_singleton.mpr hends)
  · intro id hid
    have hmem : ∀ c ∈ candidates g.rules id, c ∈ ids := by
      intro c hc
      have hall := List.all_eq_true.mp hcandidates id (List.mem_cons.mpr hid)
      simpa using List.all_eq_true.mp hall c hc
    have hpasses : ∀ s ∈ g.startPatterns id, Pattern.passes (·.consumes) s = true := by
      intro s hs
      obtain ⟨c, hc, hpattern⟩ := List.mem_filterMap.mp hs
      obtain ⟨rule, hrule, hkeeps⟩ := hinner c (hmem c hc)
      have hpattern : rule.startPattern? = some s := by
        have hrule : g.rules[c]? = some rule := hrule
        rwa [hrule] at hpattern
      simp only [Rule.keeps, Bool.and_eq_true, hpattern] at hkeeps
      exact hkeeps.2
    exact ⟨hmem, compiles_of_passes hscanner hpasses, fun _ _ _ => Finds.lt_stop hscanner hpasses⟩
  · intro id hid
    obtain ⟨rule, hrule, hkeeps⟩ := hinner id hid
    exact ⟨rule, hrule, isInner_of_keeps hscanner hkeeps⟩

theorem noEndFrom_of_encloses (hscanner : g.scanner = .standard) {r : RuleId} {ids : List RuleId}
    {word : List Char} (h : g.encloses r ids word good = true) (hword : '\n' ∉ word) {text : String}
    {n : Nat} (hn : n ≤ text.toList.length)
    (htext : ¬ word <:+: (text.toList.drop n).flatMap Text.foldChar) :
    g.NoEndFrom r (.ofText text) ((Line.ofText text).offset n) := by
  simp only [encloses, Bool.and_eq_true] at h
  obtain ⟨region, endLast, hr, hends⟩ := hasEnd_iff.mp h.1.1
  intro region' endLast' hr' p m hp
  cases hr.symm.trans hr'
  have hsize : n ≤ (Line.ofText text).chars.size := by
    simp only [Line.ofText, Line.ofChars, List.size_toArray, List.length_append]
    omega
  exact not_finds_of_looksFor hscanner (List.forall_mem_singleton.mpr hends) hsize
    (Line.not_infix_drop hword hn htext) hp m

theorem noEnd_of_needs (hscanner : g.scanner = .standard) {test : Char → Bool} {r : RuleId}
    (h : g.hasEnd (·.needs test) r = true) {line : Line}
    (hline : ∀ c ∈ line.chars.toList, test c = false) : g.NoEnd r line := by
  obtain ⟨region, endLast, hr, hends⟩ := hasEnd_iff.mp h
  intro region' endLast' hr' p m _
  cases hr.symm.trans hr'
  exact not_finds_of_needs hscanner (List.forall_mem_singleton.mpr hends) hline p m

def endsPastStart (g : Grammar) (ids : List RuleId) (line : Line) : Bool :=
  ids.all fun id =>
    match g.rule? id with
    | some (.beginEnd region _) =>
      (Scanner.plainMatcher? [region.limitSource]).any fun matcher =>
        (matcher.find line 0).all (0 < ·.stop)
    | _ => true

theorem endPastStart_of_endsPastStart (hscanner : g.scanner = .standard) {ids : List RuleId} {line : Line}
    (h : g.endsPastStart ids line = true) : g.EndPastStart ids line := by
  intro id hid region endLast hrule p m hp hfinds
  have hid := List.all_eq_true.mp h id hid
  simp only [hrule, Option.any_eq_true] at hid
  obtain ⟨matcher, hmatcher, hall⟩ := hid
  obtain ⟨patterns, hpatterns, rfl⟩ := Option.map_eq_some_iff.mp hmatcher
  obtain ⟨matcher, hcompile, hfind⟩ := hfinds
  rw [hscanner, Scanner.compile_plain hpatterns] at hcompile
  cases hcompile
  rw [hp] at hfind
  rw [hfind] at hall
  simpa using hall

end Grammar

end GrammarScopes
