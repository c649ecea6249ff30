import GrammarScopes.Proofs.Grammar.Scanning
import Mathlib.Logic.Function.Basic

/-!
Patterns in places where anchors do not hold.  To replace the anchors twice is to replace them once, nothing is left
to replace where neither of them holds, and a list of patterns gives each search the matcher for its own place,
although matchers are kept and patterns without anchors keep a single one.
-/

namespace GrammarScopes

namespace Anchoring

def both : Anchoring := ⟨true, true⟩

def neither : Anchoring := ⟨false, false⟩

def meet (a b : Anchoring) : Anchoring := ⟨a.textStart && b.textStart, a.searchStart && b.searchStart⟩

theorem forbids_both (c : Char) : both.forbids c = false := by
  simp [forbids, both]

theorem forbids_neither (c : Char) : neither.forbids c = (c == 'A' || c == 'G') := by
  simp [forbids, neither]

theorem forbids_meet (a b : Anchoring) (c : Char) : (a.meet b).forbids c = (a.forbids c || b.forbids c) := by
  simp only [forbids, meet]
  cases c == 'A' <;> cases c == 'G' <;> simp [Bool.or_assoc, Bool.or_left_comm]

theorem apply_pair (a : Anchoring) (c : Char) (cs : List Char) :
    a.apply ('\\' :: c :: cs) = if a.forbids c then neverChar :: a.apply cs else '\\' :: c :: a.apply cs := rfl

theorem apply_cons (a : Anchoring) {c : Char} (hc : c ≠ '\\') (cs : List Char) :
    a.apply (c :: cs) = c :: a.apply cs :=
  apply.eq_2 a c cs fun _ _ h => absurd h hc

theorem hasAnchor_cons {c : Char} (hc : c ≠ '\\') (cs : List Char) : hasAnchor (c :: cs) = hasAnchor cs :=
  hasAnchor.eq_2 c cs fun _ _ h => absurd h hc

theorem neverChar_ne : neverChar ≠ '\\' := by decide

theorem pair_cases {P : List Char → Prop} (nil : P []) (pair : ∀ c cs, P cs → P ('\\' :: c :: cs)) (last : P ['\\'])
    (other : ∀ c cs, c ≠ '\\' → P cs → P (c :: cs)) (cs : List Char) : P cs := by
  fun_induction hasAnchor cs with
  | case1 c cs ih => exact pair c cs ih
  | case2 c cs hpair ih =>
    by_cases hc : c = '\\'
    · cases cs with
      | nil => exact hc ▸ last
      | cons d cs => exact absurd rfl (hpair d cs hc)
    · exact other c cs hc ih
  | case3 => exact nil

theorem apply_both (cs : List Char) : both.apply cs = cs := by
  induction cs using pair_cases with
  | nil => rfl
  | pair c cs ih => simp [apply_pair, forbids_both, ih]
  | last => rfl
  | other c cs hc ih => rw [apply_cons both hc, ih]

theorem hasAnchor_apply_neither (cs : List Char) : hasAnchor (neither.apply cs) = false := by
  induction cs using pair_cases with
  | nil => rfl
  | pair c cs ih =>
    rw [apply_pair]
    split
    next => rw [hasAnchor_cons neverChar_ne, ih]
    next h =>
      have hc : c ≠ 'A' ∧ c ≠ 'G' := by simpa [forbids_neither] using h
      simp [hasAnchor, hc.1, hc.2, ih]
  | last => rfl
  | other c cs hc ih => rw [apply_cons neither hc, hasAnchor_cons hc, ih]

theorem apply_apply (a b : Anchoring) (cs : List Char) : b.apply (a.apply cs) = (a.meet b).apply cs := by
  induction cs using pair_cases with
  | nil => rfl
  | pair c cs ih =>
    rw [apply_pair, apply_pair, forbids_meet]
    by_cases ha : a.forbids c = true
    · simp [ha, apply_cons b neverChar_ne, ih]
    · simp [ha, apply_pair, ih]
  | last => rfl
  | other c cs hc ih => rw [apply_cons a hc, apply_cons b hc, apply_cons _ hc, ih]

end Anchoring

namespace PatternSet

/-- The matchers that are kept for a list of patterns. -/
abbrev Slots := Anchoring → Option MatcherResult

variable (scanner : Scanner) (sources : List String)

def slot (a : Anchoring) : Anchoring :=
  if sources.any fun s => hasAnchor s.toList then a else .neither

/-- What the first search that uses a slot puts into it. -/
def slotResult (a : Anchoring) : MatcherResult :=
  if sources.any fun s => hasAnchor s.toList then compileAt scanner sources a else scanner.compile sources

def ask (slots : Slots) (a : Anchoring) : MatcherResult × Slots :=
  match slots (slot sources a) with
  | some r => (r, slots)
  | none =>
    let r := slotResult scanner sources a
    (r, Function.update slots (slot sources a) (some r))

def askAll : Slots → List Anchoring → List MatcherResult
  | _, [] => []
  | slots, a :: places => (ask scanner sources slots a).1 :: askAll (ask scanner sources slots a).2 places

/-- Whatever a slot holds is the matcher for every place that uses it. -/
def Slots.Sound (slots : Slots) : Prop :=
  ∀ a r, slots (slot sources a) = some r → r = compileAt scanner sources a

variable {scanner sources} {slots : Slots}

theorem slotResult_eq (a : Anchoring) : slotResult scanner sources a = compileAt scanner sources a := by
  have hmatcher : slotResult scanner sources a = (ofSources scanner sources).matcher a := by
    obtain ⟨t, s⟩ := a
    unfold slotResult ofSources
    split <;> cases t <;> cases s <;> rfl
  rw [hmatcher, ofSources_matcher, compileAt]

theorem compileAt_of_slot_eq {a b : Anchoring} (h : slot sources a = slot sources b) :
    compileAt scanner sources a = compileAt scanner sources b := by
  rw [← slotResult_eq, ← slotResult_eq]
  unfold slot at h
  unfold slotResult
  split
  next hany =>
    rw [if_pos hany, if_pos hany] at h
    rw [h]
  next => rfl

theorem ask_eq (h : slots.Sound scanner sources) (a : Anchoring) :
    (ask scanner sources slots a).1 = compileAt scanner sources a ∧
      (ask scanner sources slots a).2.Sound scanner sources := by
  unfold ask
  split
  next r hr => exact ⟨h a r hr, h⟩
  next hnone =>
    refine ⟨slotResult_eq a, fun b r hr => ?_⟩
    dsimp only at hr
    by_cases hb : slot sources b = slot sources a
    · rw [hb, Function.update_self, Option.some.injEq] at hr
      rw [← hr, slotResult_eq, compileAt_of_slot_eq hb]
    · rw [Function.update_of_ne hb] at hr
      exact h b r hr

theorem askAll_eq (h : slots.Sound scanner sources) (places : List Anchoring) :
    askAll scanner sources slots places = places.map (compileAt scanner sources) := by
  induction places generalizing slots with
  | nil => rfl
  | cons a places ih =>
    obtain ⟨hr, hsound⟩ := ask_eq h a
    rw [askAll, hr, ih hsound, List.map_cons]

/-- Every search gets the matcher for its own place, or the fault of its own patterns, whatever has been searched for
before. -/
theorem matchers_of_places (scanner : Scanner) (sources : List String) :
    (∀ s, Anchoring.both.patternText s = s) ∧
      (∀ s, hasAnchor s.toList = false → ∀ a : Anchoring, a.patternText s = s) ∧
      (∀ s, hasAnchor (Anchoring.neither.patternText s).toList = false) ∧
      (∀ (a b : Anchoring) s, b.patternText (a.patternText s) = (a.meet b).patternText s) ∧
      ∀ places, askAll scanner sources (fun _ => none) places =
          places.map (fun a => scanner.compile (sources.map a.patternText)) ∧
        places.map (ofSources scanner sources).matcher =
          places.map (fun a => scanner.compile (sources.map a.patternText)) := by
  refine ⟨?_, ?_, ?_, ?_, ?_⟩
  · intro s
    rw [Anchoring.patternText, Anchoring.apply_both, String.ofList_toList]
  · intro s hs a
    exact a.patternText_of_hasAnchor_eq_false hs
  · intro s
    rw [Anchoring.patternText, String.toList_ofList, Anchoring.hasAnchor_apply_neither]
  · intro a b s
    simp only [Anchoring.patternText, String.toList_ofList, Anchoring.apply_apply]
  · intro places
    constructor
    · apply askAll_eq
      intro a r hr
      cases hr
    · apply List.map_congr_left
      intro a _
      exact ofSources_matcher scanner sources a

theorem matchers_of_places_escaped :
    hasAnchor "\\\\G".toList = false ∧ (∀ a : Anchoring, a.patternText "\\\\G" = "\\\\G") ∧
      hasAnchor (Anchoring.neither.patternText "\\A\\\\A\\").toList = false ∧
      askAll .standard ["\\\\G", "x"] (fun _ => none) [.both, .neither] =
        [Scanner.standard.compile ["\\\\G", "x"], Scanner.standard.compile ["\\\\G", "x"]] := by
  obtain ⟨-, hplain, hneither, -, hall⟩ := matchers_of_places .standard ["\\\\G", "x"]
  refine ⟨by decide, hplain _ (by decide), hneither _, (hall _).1.trans ?_⟩
  simp [hplain "\\\\G" (by decide), hplain "x" (by decide)]

end PatternSet

end GrammarScopes
