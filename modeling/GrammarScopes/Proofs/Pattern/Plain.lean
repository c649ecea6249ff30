import GrammarScopes.Proofs.Pattern.Advance
import GrammarScopes.Proofs.Pattern.Spelling
import GrammarScopes.Proofs.Scanner
import GrammarScopes.Proofs.Text.Decode

/-!
What can be computed of a pattern: that it matches nothing empty, that it only looks ahead for one
word, or that it matches nothing in a text without certain characters.
-/

namespace GrammarScopes

namespace Pattern

def ofChars (cs : List Char) : Except PatternError Compiled := do
  let (p, s) ← (readAlternatives deepestNesting {} false).run ⟨cs, 0, []⟩
  let c : Compiled := ⟨p.node, s.groupCount, s.names⟩
  c.check
  return c

theorem compile_eq (source : String) : compile source = ofChars source.toList := by
  simp only [compile, parse, ofChars, bind_assoc, pure_bind]

def Compiled.consumes (c : Compiled) : Bool := 0 < c.root.least fun _ => 0

def Compiled.looksFor (word : List Char) (c : Compiled) : Bool :=
  match c.root with
  | .ahead true body => body.foldings.any (·.all (· == word))
  | _ => false

/-- Whatever the node matches, it has consumed or looked at a character that passes the test. -/
def Node.needs (test : Char → Bool) : Node → Bool
  | char c => test c
  | set (.oneOf cs) => cs.all test
  | seq a b => a.needs test || b.needs test
  | alt a b => a.needs test && b.needs test
  | group _ body | ahead true body => body.needs test
  | _ => false

def Compiled.needs (test : Char → Bool) (c : Compiled) : Bool := c.root.needs test

/-- The pattern ends with the group, after something that consumes a character. -/
def Compiled.endsWith (group : Nat) (c : Compiled) : Bool :=
  match c.root with
  | .seq first (.group n _) => n == group && 0 < n && 0 < first.least fun _ => 0
  | _ => false

def passes (test : Compiled → Bool) (source : String) : Bool :=
  let cs := Text.decode source
  !hasAnchor cs && (ofChars cs).toOption.any test

def plain? (source : String) : Option Compiled :=
  let cs := Text.decode source
  if hasAnchor cs then none else (ofChars cs).toOption

theorem plain?_eq_some {source : String} {c : Compiled} :
    plain? source = some c ↔ hasAnchor source.toList = false ∧ compile source = .ok c := by
  simp only [plain?, Text.decode_eq, ← compile_eq]
  cases compile source <;> simp [Except.toOption]

theorem passes_iff {test : Compiled → Bool} {source : String} :
    passes test source = true ↔
      hasAnchor source.toList = false ∧ ∃ c, compile source = .ok c ∧ test c = true := by
  simp only [passes, Text.decode_eq, ← compile_eq]
  cases compile source <;> simp [Except.toOption]

theorem Compiled.matchAt_of_looksFor {c : Compiled} {word : List Char} (h : c.looksFor word = true)
    {t : Subject} {p : Nat} (ht : ¬ word <:+: (t.chars.toList.drop p).flatMap Text.foldChar) :
    c.matchAt t p = none := by
  unfold looksFor at h
  split at h
  next body hroot =>
    obtain ⟨foldings, hfoldings, hall⟩ := (Option.any_eq_true _ _).mp h
    apply run_eq_none
    rw [hroot]
    apply not_takes_ahead hfoldings
    intro w hw
    have hword : w = word := by simpa using List.all_eq_true.mp hall w hw
    exact hword ▸ ht
  next => cases h

/-- No way leads through a node that needs a character which is nowhere in the text. -/
theorem not_takes_of_needs {t : Subject} {called : GroupRef → Attempt → Attempt → Prop} {test : Char → Bool}
    (ht : ∀ c ∈ t.chars.toList, test c = false) {n : Node} (hn : n.needs test = true) {s s' : Attempt} :
    ¬ n.Takes t called s s' := by
  have hat {p : Nat} {c : Char} (hc : t.at? p = some c) : test c = false :=
    ht c (Array.mem_toList_iff.mpr (Array.mem_of_getElem? hc))
  intro h
  induction h with
  | char hc => cases (hat hc).symm.trans hn
  | @set s c cs hc hmem =>
    cases cs with
    | oneOf cs =>
      have hmem : c ∈ cs := by simpa [CharSet.contains] using hmem
      cases (hat hc).symm.trans (List.all_eq_true.mp hn c hmem)
    | _ => cases hn
  | seq _ _ iha ihb =>
    rcases Bool.or_eq_true_iff.mp hn with ha | hb
    · exact iha ha
    · exact ihb hb
  | altLeft _ ih => exact ih (Bool.and_eq_true_iff.mp hn).1
  | altRight _ ih => exact ih (Bool.and_eq_true_iff.mp hn).2
  | group _ ih | ahead _ ih => exact ih hn
  | _ => cases hn

theorem Compiled.matchAt_of_needs {c : Compiled} {test : Char → Bool} (h : c.needs test = true)
    {t : Subject} (ht : ∀ c ∈ t.chars.toList, test c = false) (p : Nat) : c.matchAt t p = none :=
  run_eq_none (fun _ => not_takes_of_needs ht h) _

theorem Compiled.matchAt_endsWith {c : Compiled} {group : Nat} (h : c.endsWith group = true)
    {t : Subject} {p i j : Nat} {a : Attempt} (ha : c.matchAt t p = some a)
    (hgroup : (spans p a)[group]? = some (some (i, j))) :
    p < i ∧ (p ≤ t.chars.size → i ≤ t.chars.size ∧ j ≤ t.chars.size) := by
  unfold endsWith at h
  split at h
  next first n body hroot =>
    simp only [Bool.and_eq_true, beq_iff_eq, decide_eq_true_eq] at h
    obtain ⟨⟨rfl, hn⟩, hleast⟩ := h
    have htakes := matchAt_takes ha
    rw [hroot] at htakes
    cases htakes with
    | @seq _ _ _ s _ hfirst hlast =>
      cases hlast with
      | @group _ _ _ u hbody =>
        obtain ⟨n, rfl⟩ := Nat.exists_eq_add_one.mpr hn
        have hspan : (i, j) = (s.pos, u.pos) := by
          simp only [spans, List.getElem?_cons_succ, List.getElem?_drop, Array.getElem?_toList,
            Attempt.setGroup, Nat.add_comm 1 n, Array.getElem?_setIfInBounds_self] at hgroup
          split at hgroup
          · cases hgroup
            rfl
          · cases hgroup
        cases hspan
        obtain ⟨hlow, hs⟩ := hfirst.advances fun _ _ _ => advances_of_enters
        have hu := (hbody.advances fun _ _ _ => advances_of_enters).2
        have hstart : p + first.least (fun _ => 0) ≤ s.pos := hlow
        exact ⟨by omega, fun hp => ⟨hs hp, hu (hs hp)⟩⟩
  next => cases h

end Pattern

namespace Scanner

open Pattern

variable {test : Compiled → Bool} {sources : List String}

def plainMatcher? (sources : List String) : Option Matcher := (sources.mapM plain?).map matcher

/-- Patterns without anchors have one matcher in all places. -/
theorem compile_plain {patterns : List Compiled} (h : sources.mapM plain? = some patterns)
    (a : Anchoring) : standard.compile (sources.map a.patternText) = .ok (matcher patterns) := by
  suffices hpatterns : (sources.map a.patternText).mapM compilePattern = .ok patterns by
    simp only [standard, hpatterns, bind, Except.bind]
    rfl
  induction sources generalizing patterns with
  | nil =>
    cases h
    rfl
  | cons s sources ih =>
    simp only [List.mapM_cons, Option.bind_eq_bind, Option.bind_eq_some_iff, Option.pure_def] at h
    obtain ⟨c, hc, cs, hcs, h⟩ := h
    cases h
    obtain ⟨hanchor, hcompile⟩ := plain?_eq_some.mp hc
    have hplain : compilePattern (a.patternText s) = .ok c := by
      rw [a.patternText_of_hasAnchor_eq_false hanchor, compilePattern, hcompile]
    rw [List.map_cons, List.mapM_cons, hplain, ih hcs]
    rfl

theorem compile_passing (h : ∀ s ∈ sources, passes test s = true) :
    ∃ patterns : List Compiled, (∀ c ∈ patterns, test c = true) ∧
      ∀ a : Anchoring, standard.compile (sources.map a.patternText) = .ok (matcher patterns) := by
  suffices hpatterns : ∃ patterns, sources.mapM plain? = some patterns ∧ ∀ c ∈ patterns, test c = true by
    obtain ⟨patterns, hpatterns, hall⟩ := hpatterns
    exact ⟨patterns, hall, compile_plain hpatterns⟩
  induction sources with
  | nil => exact ⟨[], rfl, nofun⟩
  | cons s sources ih =>
    obtain ⟨hs, hsources⟩ := List.forall_mem_cons.mp h
    obtain ⟨hanchor, c, hc, htest⟩ := passes_iff.mp hs
    obtain ⟨patterns, hpatterns, hall⟩ := ih hsources
    refine ⟨c :: patterns, ?_, List.forall_mem_cons.mpr ⟨htest, hall⟩⟩
    rw [List.mapM_cons, plain?_eq_some.mpr ⟨hanchor, hc⟩, hpatterns]
    rfl

theorem find_eq_none {patterns : List Compiled} {line : Line} {pos n : Nat} (hn : n ≤ line.chars.size)
    (hpos : line.offset n ≤ pos)
    (hpatterns : ∀ c ∈ patterns, ∀ origin p, n ≤ p → c.matchAt ⟨line.chars, origin⟩ p = none) :
    (matcher patterns).find line pos = none := by
  refine Option.eq_none_iff_forall_ne_some.mpr fun m hm => ?_
  obtain ⟨c, hc, p₀, p, a, hp₀, hlow, -, ha, -⟩ := find_eq_some hm
  have hle : n ≤ p := Nat.le_trans (Line.le_of_index? hn hpos hp₀) hlow
  cases (hpatterns c (List.mem_of_getElem? hc) p₀ p hle).symm.trans ha

theorem captured_lt {patterns : List Compiled} {group : Nat} {line : Line} {pos : Nat} {m : ScanMatch}
    {span : Span} (hpatterns : ∀ c ∈ patterns, c.endsWith group = true)
    (hfind : (matcher patterns).find line pos = some m)
    (hspan : m.captures[group]? = some (some span)) :
    span.stop - span.start < line.size - pos := by
  obtain ⟨c, hc, p₀, p, a, hp₀, hlow, hsize, ha, hcaptures⟩ := find_eq_some hfind
  rw [hcaptures, List.getElem?_map, Option.map_eq_some_iff] at hspan
  obtain ⟨s, hs, hspan⟩ := hspan
  obtain ⟨⟨i, j⟩, rfl, rfl⟩ := Option.map_eq_some_iff.mp hspan
  obtain ⟨hstart, hin⟩ := Compiled.matchAt_endsWith (hpatterns c (List.mem_of_getElem? hc)) ha hs
  obtain ⟨hi, hj⟩ := hin hsize
  have hlt : line.offset p₀ < line.offset i := line.offset_lt (by omega) hi
  have hle : line.offset i ≤ line.size := (line.isBoundary_offset i).le_size
  have hstop : line.offset j ≤ line.size := (line.isBoundary_offset j).le_size
  rw [← Line.offset_of_index? hp₀]
  dsimp only
  omega

end Scanner

end GrammarScopes
