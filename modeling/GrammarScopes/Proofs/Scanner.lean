import GrammarScopes.Proofs.Except
import GrammarScopes.Proofs.Grammar.Scanning
import GrammarScopes.Proofs.Pattern.Advance

/-!
Where the matches of the scanner come from: one of its patterns matches at one of the positions from
the start on.
-/

namespace GrammarScopes

open Pattern

theorem Line.offset_eq (l : Line) {k : Nat} (hk : k ≤ l.chars.size) :
    l.offset k = Text.byteCount (l.chars.toList.take k) := by
  rw [offset, Array.getD_eq_getD_getElem?, bounds_getElem?, if_pos hk, Option.getD_some]

theorem Line.offset_zero (l : Line) : l.offset 0 = 0 := by
  rw [l.offset_eq (Nat.zero_le _)]
  rfl

theorem Line.offset_lt (l : Line) {i j : Nat} (hij : i < j) (hj : j ≤ l.chars.size) :
    l.offset i < l.offset j := by
  rw [l.offset_eq (by omega), l.offset_eq hj]
  exact Text.byteCount_take_lt hij (by simpa using hj)

theorem Line.offset_of_index? {l : Line} {b k : Nat} (h : l.index? b = some k) : l.offset k = b := by
  unfold index? at h
  dsimp only at h
  split at h
  next hbound =>
    cases h
    rw [offset, Array.getD_eq_getD_getElem?, hbound, Option.getD_some]
  next => cases h

theorem Line.le_of_index? {line : Line} {n i pos : Nat} (hn : n ≤ line.chars.size)
    (hpos : line.offset n ≤ pos) (h : line.index? pos = some i) : n ≤ i := by
  refine Nat.le_of_not_lt fun hlt => ?_
  have hoffset := line.offset_lt hlt hn
  rw [Line.offset_of_index? h] at hoffset
  omega

namespace Pattern.Compiled

variable {c : Compiled} {t : Subject} {n p q : Nat} {a : Attempt}

theorem search_eq_some : c.search t n p = some (q, a) ↔
    p ≤ q ∧ q < p + n ∧ c.matchAt t q = some a ∧ ∀ k, p ≤ k → k < q → c.matchAt t k = none := by
  induction n generalizing p with
  | zero =>
    constructor
    · exact nofun
    · rintro ⟨hle, hlt, -⟩
      omega
  | succ n ih =>
    unfold search
    cases hmatch : c.matchAt t p with
    | some b =>
      dsimp only
      constructor
      · intro h
        cases h
        exact ⟨Nat.le_refl _, by omega, hmatch, fun k hk hlt => absurd hlt (by omega)⟩
      · rintro ⟨hle, -, ha, hnone⟩
        rcases Nat.eq_or_lt_of_le hle with rfl | hlt
        · cases hmatch.symm.trans ha
          rfl
        · cases hmatch.symm.trans (hnone p (Nat.le_refl _) hlt)
    | none =>
      dsimp only
      rw [ih]
      constructor
      · rintro ⟨hle, hlt, ha, hnone⟩
        refine ⟨by omega, by omega, ha, fun k hk hkq => ?_⟩
        rcases Nat.eq_or_lt_of_le hk with rfl | hk
        · exact hmatch
        · exact hnone k hk hkq
      · rintro ⟨hle, hlt, ha, hnone⟩
        rcases Nat.eq_or_lt_of_le hle with rfl | hpq
        · cases hmatch.symm.trans ha
        · exact ⟨hpq, by omega, ha, fun k hk => hnone k (by omega)⟩

theorem search_eq_none (h : c.search t n p = none) (hle : p ≤ q) (hlt : q < p + n) : c.matchAt t q = none := by
  induction n generalizing p with
  | zero => omega
  | succ n ih =>
    unfold search at h
    split at h
    next => cases h
    next hnone =>
      rcases Nat.eq_or_lt_of_le hle with rfl | hpq
      · exact hnone
      · exact ih h hpq (by omega)

end Pattern.Compiled

namespace Scanner

variable {t : Subject} {line : Line} {n p pos : Nat} {best : Option Found} {patterns : List (Nat × Compiled)}
  {f : Found} {m : ScanMatch}

theorem search_eq_some {e : Nat × Compiled} (h : search t n p e = some f) :
    ∃ q a, p ≤ q ∧ q < p + n ∧ e.2.matchAt t q = some a ∧ f = found e.1 q a := by
  obtain ⟨⟨q, a⟩, hsearch, rfl⟩ := Option.map_eq_some_iff.mp h
  obtain ⟨hle, hlt, ha, -⟩ := Compiled.search_eq_some.mp hsearch
  exact ⟨q, a, hle, hlt, ha, rfl⟩

theorem inTurn_eq_some {α : Type} {find : α → Option Found} {entries : List α}
    (h : inTurn find p best entries = some f) : best = some f ∨ ∃ e ∈ entries, find e = some f := by
  induction entries generalizing best with
  | nil => exact .inl h
  | cons e entries ih =>
    have hrest {best : Option Found} (h : inTurn find p best entries = some f) :
        best = some f ∨ ∃ e' ∈ e :: entries, find e' = some f := by
      rcases ih h with hbest | ⟨e', he', hfind⟩
      · exact .inl hbest
      · exact .inr ⟨e', List.mem_cons_of_mem _ he', hfind⟩
    unfold inTurn at h
    split at h
    next => exact hrest h
    next g hg =>
      split at h
      next => exact hrest h
      next =>
        split at h
        next =>
          cases h
          exact .inr ⟨e, List.mem_cons_self, hg⟩
        next =>
          rcases hrest h with hbest | hfind
          · cases hbest
            exact .inr ⟨e, List.mem_cons_self, hg⟩
          · exact .inr hfind

theorem atOnce_eq_some (h : atOnce t patterns n p = some f) :
    ∃ e ∈ patterns, ∃ q a, p ≤ q ∧ q < p + n ∧ e.2.matchAt t q = some a ∧ f = found e.1 q a := by
  induction n generalizing p with
  | zero => cases h
  | succ n ih =>
    unfold atOnce at h
    split at h
    next g hg =>
      cases h
      obtain ⟨e, he, hf⟩ := List.exists_of_findSome?_eq_some hg
      obtain ⟨a, ha, rfl⟩ := Option.map_eq_some_iff.mp hf
      exact ⟨e, he, p, a, Nat.le_refl _, by omega, ha, rfl⟩
    next =>
      obtain ⟨e, he, q, a, hle, hlt, ha, hf⟩ := ih h
      exact ⟨e, he, q, a, by omega, by omega, ha, hf⟩

theorem mem_numbered {patterns : List Compiled} {e : Nat × Compiled} :
    e ∈ numbered patterns ↔ patterns[e.1]? = some e.2 := by
  obtain ⟨i, c⟩ := e
  simp only [numbered, List.mem_map, Prod.exists, List.mem_zipIdx_iff_getElem?, Prod.mk.injEq]
  constructor
  · rintro ⟨c', i', hi, rfl, rfl⟩
    exact hi
  · intro hi
    exact ⟨c, i, hi, rfl, rfl⟩

theorem find_eq_some {patterns : List Compiled} (h : (matcher patterns).find line pos = some m) :
    ∃ c, patterns[m.index]? = some c ∧ ∃ p₀ p a, line.index? pos = some p₀ ∧ p₀ ≤ p ∧ p ≤ line.chars.size ∧
      c.matchAt ⟨line.chars, p₀⟩ p = some a ∧
      m.captures = (Compiled.spans p a).map
        (·.map fun s => ⟨line.offset s.1, line.offset s.2⟩) := by
  simp only [matcher, Option.bind_eq_bind, Option.bind_eq_some_iff] at h
  obtain ⟨p₀, hp₀, f, hf, hm⟩ := h
  obtain ⟨e, he, p, a, hlow, hhigh, ha, rfl⟩ : ∃ e ∈ numbered patterns, ∃ q a, p₀ ≤ q ∧
      q < p₀ + (line.chars.size + 1 - p₀) ∧ e.2.matchAt ⟨line.chars, p₀⟩ q = some a ∧ f = found e.1 q a := by
    unfold earliest at hf
    split at hf
    · rcases inTurn_eq_some hf with hnone | ⟨e, he, hsearch⟩
      · cases hnone
      · exact ⟨e, he, search_eq_some hsearch⟩
    · exact atOnce_eq_some hf
  unfold toMatch at hm
  dsimp only at hm
  split at hm
  next whole groups hspans =>
    cases hm
    exact ⟨e.2, mem_numbered.mp he, p₀, p, a, hp₀, hlow, by omega, ha, hspans.symm⟩
  next => cases hm

theorem lt_stop {patterns : List Compiled} (hleast : ∀ c ∈ patterns, 0 < c.root.least fun _ => 0)
    (h : (matcher patterns).find line pos = some m) : pos < m.stop := by
  obtain ⟨c, hc, p₀, p, a, hp₀, hlow, hsize, ha, hcaptures⟩ := find_eq_some h
  obtain ⟨hfar, hle⟩ := Compiled.matchAt_advances ha
  have hpos := hleast c (List.mem_of_getElem? hc)
  have hstop : m.stop = line.offset a.pos := by
    have hwhole := (List.cons_eq_cons.mp hcaptures).1
    exact congrArg Span.stop (Option.some.inj hwhole)
  rw [hstop, ← Line.offset_of_index? hp₀]
  exact line.offset_lt (by change p + _ ≤ _ at hfar; omega) (hle hsize)

/-- No match ends before it begins. -/
def Orderly (scanner : Scanner) : Prop :=
  ∀ sources matcher, scanner.compile sources = .ok matcher →
    ∀ line pos m, matcher.find line pos = some m → m.start ≤ m.stop

theorem standard_orderly : standard.Orderly := by
  intro sources found h line pos m hm
  obtain ⟨patterns, -, h⟩ := bind_eq_ok.mp h
  cases h
  obtain ⟨c, -, p₀, p, a, -, -, hsize, ha, hcaptures⟩ := find_eq_some hm
  obtain ⟨-, hle⟩ := Compiled.matchAt_advances ha
  obtain ⟨hwhole, -⟩ := List.cons_eq_cons.mp hcaptures
  have hwhole : m.whole = ⟨line.offset (min (a.keep.getD p) a.pos), line.offset a.pos⟩ := Option.some.inj hwhole
  rw [ScanMatch.start, ScanMatch.stop, hwhole]
  rcases Nat.eq_or_lt_of_le (Nat.min_le_right (a.keep.getD p) a.pos) with heq | hlt
  · exact Nat.le_of_eq (congrArg line.offset heq)
  · exact Nat.le_of_lt (line.offset_lt hlt (hle hsize))

end Scanner

end GrammarScopes
