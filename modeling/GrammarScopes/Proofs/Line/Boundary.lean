import GrammarScopes.Line
import Mathlib.Algebra.Group.Nat.Defs

/-!
Character boundaries of a line, in bytes, and the columns they stand for.  Offsets of characters are
boundaries, a shortened line has no boundaries of its own, and columns grow strictly from one boundary
to the next.
-/

namespace GrammarScopes

namespace Text

theorem units_pos (c : Char) : 0 < units c := by
  unfold units
  split <;> omega

theorem unitCount_eq_zero {cs : List Char} : unitCount cs = 0 ↔ cs = [] := by
  cases cs with
  | nil => simp [unitCount]
  | cons c cs =>
    have := units_pos c
    simp only [unitCount, reduceCtorEq, iff_false]
    omega

theorem byteCount_take_le (cs : List Char) (k : Nat) : byteCount (cs.take k) ≤ byteCount cs := by
  have h := byteCount_append (cs.take k) (cs.drop k)
  rw [List.take_append_drop] at h
  omega

theorem byteCount_take_lt {cs : List Char} {i j : Nat} (hij : i < j) (hj : j ≤ cs.length) :
    byteCount (cs.take i) < byteCount (cs.take j) := by
  induction cs generalizing i j with
  | nil =>
    simp only [List.length_nil, Nat.le_zero] at hj
    omega
  | cons c cs ih =>
    have hc := c.utf8Size_pos
    obtain ⟨j, rfl⟩ := Nat.exists_eq_add_one.mpr (Nat.zero_lt_of_lt hij)
    cases i with
    | zero =>
      simp only [List.take_zero, List.take_succ_cons, byteCount]
      omega
    | succ i =>
      have := ih (i := i) (j := j) (by omega) (by simpa using hj)
      simp only [List.take_succ_cons, byteCount]
      omega

/-- The halving keeps apart the entries that are at most `n` and those that exceed it. -/
theorem countUpTo_go_spec {table : Array Nat} {n : Nat}
    (hmono : ∀ i j, i ≤ j → j < table.size → table.getD i 0 ≤ table.getD j 0) (steps : Nat)
    {low high : Nat} (hlh : low ≤ high) (hsteps : high - low < 2 ^ steps)
    (hlow : ∀ i < low, table.getD i 0 ≤ n)
    (hhigh : ∀ i < table.size, high ≤ i → n < table.getD i 0) (hsize : high ≤ table.size) :
    countUpTo.go table n steps low high ≤ table.size ∧
      (∀ i < countUpTo.go table n steps low high, table.getD i 0 ≤ n) ∧
      ∀ i < table.size, countUpTo.go table n steps low high ≤ i → n < table.getD i 0 := by
  induction steps generalizing low high with
  | zero =>
    obtain rfl : low = high := by
      simp only [Nat.pow_zero] at hsteps
      omega
    exact ⟨hsize, hlow, hhigh⟩
  | succ steps ih =>
    have hpow : 2 ^ (steps + 1) = 2 * 2 ^ steps := Nat.pow_succ'
    unfold countUpTo.go
    split
    next hlt =>
      dsimp only
      split
      next hle =>
        refine ih (by omega) (by omega) (fun i hi => ?_) hhigh hsize
        exact Nat.le_trans (hmono i ((low + high) / 2) (by omega) (by omega)) hle
      next hgt =>
        refine ih (by omega) (by omega) hlow (fun i hi hmid => ?_) (by omega)
        exact Nat.lt_of_lt_of_le (Nat.lt_of_not_le hgt) (hmono _ i hmid hi)
    next hge =>
      obtain rfl : low = high := by omega
      exact ⟨hsize, hlow, hhigh⟩

theorem countUpTo_spec {table : Array Nat} (n : Nat)
    (hmono : ∀ i j, i ≤ j → j < table.size → table.getD i 0 ≤ table.getD j 0) :
    countUpTo table n ≤ table.size ∧ (∀ i < countUpTo table n, table.getD i 0 ≤ n) ∧
      ∀ i < table.size, countUpTo table n ≤ i → n < table.getD i 0 :=
  countUpTo_go_spec hmono _ (Nat.zero_le _) Nat.lt_log2_self (by omega) (by omega) (Nat.le_refl _)

theorem byteCount_eq_unitCount {cs : List Char} (h : cs.all isAscii = true) :
    byteCount cs = unitCount cs := by
  induction cs with
  | nil => rfl
  | cons c cs ih =>
    simp only [List.all_cons, Bool.and_eq_true] at h
    have hc : c.toNat < 128 := by simpa [isAscii] using h.1
    have hb : c.utf8Size = 1 := by
      rw [Char.utf8Size_eq_one_iff, UInt32.le_iff_toNat_le]
      change c.toNat ≤ 127
      omega
    have hu : units c = 1 := if_pos (by omega)
    simp only [byteCount, unitCount, hb, hu, ih h.2]

theorem unitCount_take_lt {cs : List Char} {i j : Nat}
    (h : byteCount (cs.take i) < byteCount (cs.take j)) :
    unitCount (cs.take i) < unitCount (cs.take j) := by
  induction cs generalizing i j with
  | nil => simp at h
  | cons c cs ih =>
    have hc := units_pos c
    cases j with
    | zero => simp [byteCount] at h
    | succ j =>
      cases i with
      | zero => simp only [List.take_zero, List.take_succ_cons, unitCount]; omega
      | succ i =>
        simp only [List.take_succ_cons, byteCount, Nat.add_lt_add_iff_left] at h
        have := ih h
        simp only [List.take_succ_cons, unitCount]
        omega

end Text

namespace Line

open Text

theorem boundsFrom_getElem? (start : Nat) (cs : List Char) (i : Nat) :
    (boundsFrom start cs)[i]? =
      if i ≤ cs.length then some (start + byteCount (cs.take i)) else none := by
  induction cs generalizing start i with
  | nil => cases i <;> simp [boundsFrom, byteCount]
  | cons c cs ih =>
    cases i with
    | zero => simp [boundsFrom, byteCount]
    | succ i => simp [boundsFrom, byteCount, ih, Nat.add_assoc]

theorem bounds_getElem? (l : Line) (i : Nat) :
    l.bounds[i]? =
      if i ≤ l.chars.size then some (byteCount (l.chars.toList.take i)) else none := by
  simp [l.bounds_eq, boundsFrom_getElem?]

theorem size_eq (l : Line) : l.size = byteCount l.chars.toList := by
  rw [size, Array.getD_eq_getD_getElem?, bounds_getElem?, if_pos (Nat.le_refl _),
    ← Array.length_toList, List.take_length, Option.getD_some]

/-- A place before, between or after the characters of a line. -/
def IsBoundary (l : Line) (b : Nat) : Prop := ∃ k, b = byteCount (l.chars.toList.take k)

theorem isBoundary_size (l : Line) : l.IsBoundary l.size :=
  ⟨l.chars.toList.length, by rw [size_eq, List.take_length]⟩

theorem IsBoundary.le_size {l : Line} {b : Nat} (h : l.IsBoundary b) : b ≤ l.size := by
  obtain ⟨k, rfl⟩ := h
  rw [size_eq]
  exact byteCount_take_le _ _

theorem isBoundary_offset (l : Line) (i : Nat) : l.IsBoundary (l.offset i) := by
  rw [offset, Array.getD_eq_getD_getElem?, bounds_getElem?]
  split
  · exact ⟨i, rfl⟩
  · exact l.isBoundary_size

theorem index?_byteCount (l : Line) {k : Nat} (hk : k ≤ l.chars.size) :
    l.index? (byteCount (l.chars.toList.take k)) = some k := by
  have hsize : l.bounds.size = l.chars.size + 1 := by
    have hlast := l.bounds_getElem? l.chars.size
    have hnext := l.bounds_getElem? (l.chars.size + 1)
    rw [if_pos (Nat.le_refl _)] at hlast
    rw [if_neg (by omega), Array.getElem?_eq_none_iff] at hnext
    have := (Array.getElem?_eq_some_iff.mp hlast).1
    omega
  have hbounds {i : Nat} (hi : i ≤ l.chars.size) :
      l.bounds.getD i 0 = byteCount (l.chars.toList.take i) := by
    rw [Array.getD_eq_getD_getElem?, bounds_getElem?, if_pos hi, Option.getD_some]
  have hlt {i j : Nat} (hij : i < j) (hj : j ≤ l.chars.size) :
      byteCount (l.chars.toList.take i) < byteCount (l.chars.toList.take j) :=
    byteCount_take_lt hij (by simpa using hj)
  have hmono (i j : Nat) (hij : i ≤ j) (hj : j < l.bounds.size) :
      l.bounds.getD i 0 ≤ l.bounds.getD j 0 := by
    rcases Nat.eq_or_lt_of_le hij with rfl | hij
    · exact Nat.le_refl _
    · rw [hbounds (by omega), hbounds (by omega)]
      exact Nat.le_of_lt (hlt hij (by omega))
  obtain ⟨hcount, hlow, hhigh⟩ := countUpTo_spec (byteCount (l.chars.toList.take k)) hmono
  unfold index?
  generalize countUpTo l.bounds (byteCount (l.chars.toList.take k)) = c at hcount hlow hhigh
  have hkc : k < c := by
    refine Nat.lt_of_not_le fun hck => ?_
    have hk' := hhigh k (by omega) hck
    rw [hbounds hk] at hk'
    omega
  have hck : c ≤ k + 1 := by
    refine Nat.le_of_not_lt fun hk' => ?_
    have hle := hlow (k + 1) hk'
    rw [hbounds (by omega)] at hle
    have := hlt (Nat.lt_add_one k) (by omega)
    omega
  obtain rfl : c = k + 1 := by omega
  simp [bounds_getElem?, hk]

theorem size_of_upTo? {l p : Line} {stop : Nat} (hp : l.upTo? stop = some p) :
    p.size = min stop l.size := by
  obtain ⟨i, hi, rfl⟩ := Option.map_eq_some_iff.mp hp
  unfold index? at hi
  dsimp only at hi
  split at hi
  next hbound =>
    cases hi
    rw [bounds_getElem?] at hbound
    split at hbound
    next => simpa [size_eq, ofChars, List.take_take] using hbound
    next => cases hbound
  next => cases hi

theorem IsBoundary.size_upTo {l : Line} {b : Nat} (hb : l.IsBoundary b) :
    ((l.upTo? b).getD l).size = b := by
  have hsize := hb.le_size
  obtain ⟨k, hk⟩ := hb
  have hcut : ∃ p, l.upTo? b = some p := by
    have hmin : byteCount (l.chars.toList.take k) =
        byteCount (l.chars.toList.take (min k l.chars.size)) := by
      rw [← Array.length_toList, ← List.take_eq_take_min]
    refine ⟨_, Option.map_eq_some_iff.mpr ⟨min k l.chars.size, ?_, rfl⟩⟩
    rw [Nat.min_eq_left hsize, hk, hmin]
    exact l.index?_byteCount (Nat.min_le_right _ _)
  obtain ⟨p, hp⟩ := hcut
  rw [hp, Option.getD_some, size_of_upTo? hp, Nat.min_eq_left hsize]

theorem IsBoundary.of_upTo? {l p : Line} {stop b : Nat} (hp : l.upTo? stop = some p)
    (h : p.IsBoundary b) : l.IsBoundary b := by
  obtain ⟨i, -, rfl⟩ := Option.map_eq_some_iff.mp hp
  obtain ⟨k, rfl⟩ := h
  refine ⟨min k i, ?_⟩
  simp [ofChars, List.take_take]

theorem unitsFrom_getElem? (before : Nat) (cs : List Char) (k : Nat) :
    (unitsFrom before cs)[byteCount (cs.take k)]? = some (before + unitCount (cs.take k)) := by
  induction cs generalizing before k with
  | nil => simp [unitsFrom, byteCount, unitCount]
  | cons c cs ih =>
    have hc := c.utf8Size_pos
    cases k with
    | zero =>
      rw [unitsFrom, List.take_zero, byteCount, List.getElem?_append_left (by simpa using hc)]
      simp [unitCount, hc]
    | succ k =>
      rw [unitsFrom, List.take_succ_cons, byteCount, unitCount,
        List.getElem?_append_right (by simp), List.length_replicate, Nat.add_sub_cancel_left, ih,
        Nat.add_assoc]

theorem unitsAt_byteCount (l : Line) (k : Nat) :
    l.unitsAt (byteCount (l.chars.toList.take k)) = unitCount (l.chars.toList.take k) := by
  rw [unitsAt, l.unitTable_eq, unitTable?]
  split
  next h =>
    split at h
    next ha =>
      rw [List.all_eq_true] at ha
      exact byteCount_eq_unitCount (List.all_eq_true.mpr fun c hc => ha c (List.mem_of_mem_take hc))
    next => cases h
  next table h =>
    split at h
    next => cases h
    next =>
      cases h
      simp [Array.getD_eq_getD_getElem?, unitsFrom_getElem?]

theorem unitsAt_lt {l : Line} {a b : Nat} (ha : l.IsBoundary a) (hb : l.IsBoundary b)
    (h : a < b) : l.unitsAt a < l.unitsAt b := by
  obtain ⟨i, rfl⟩ := ha
  obtain ⟨j, rfl⟩ := hb
  rw [unitsAt_byteCount, unitsAt_byteCount]
  exact unitCount_take_lt h

theorem size_ofText (text : String) : (ofText text).size = (ofText text).contentSize + 1 := by
  rw [size_eq]
  simp [ofText, ofChars, byteCount_append, byteCount, Char.utf8Size]

theorem isBoundary_contentSize (text : String) :
    (ofText text).IsBoundary (ofText text).contentSize :=
  ⟨text.toList.length, by simp [ofText, ofChars]⟩

theorem isBoundary_zero (l : Line) : l.IsBoundary 0 := ⟨0, rfl⟩

theorem IsBoundary.unitsAt_ofText {text : String} {b : Nat} (h : (ofText text).IsBoundary b)
    (hb : b ≤ (ofText text).contentSize) :
    ∃ k, (ofText text).unitsAt b = unitCount (text.toList.take k) := by
  obtain ⟨k, rfl⟩ := h
  refine ⟨k, ?_⟩
  have hk : k ≤ text.toList.length := by
    refine Nat.le_of_not_lt fun hk => ?_
    have hall : (ofText text).chars.toList.take k = (ofText text).chars.toList := by
      apply List.take_of_length_le
      simp only [ofText, ofChars, List.length_append, List.length_singleton]
      omega
    have hsize := size_ofText text
    rw [hall, ← size_eq] at hb
    omega
  rw [unitsAt_byteCount]
  simp only [ofText, ofChars, List.take_append_of_le_length hk]

theorem unitsAt_contentSize (text : String) :
    (ofText text).unitsAt (ofText text).contentSize = unitCount text.toList := by
  have h := unitsAt_byteCount (ofText text) text.toList.length
  simpa [ofText, ofChars] using h

end Line

end GrammarScopes
