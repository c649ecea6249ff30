import GrammarScopes.Proofs.Line.Boundary

/-!
The columns of byte offsets, inside characters as well.  An offset stands for the units of the longest beginning of the
line that fits before it, whether or not the line has a table for the conversion.
-/

namespace GrammarScopes

namespace Text

/-- A beginning of a text that fits in a number of bytes, and of which every other one is a beginning. -/
def IsLongestWithin (b : Nat) (cs pre : List Char) : Prop :=
  pre <+: cs ∧ byteCount pre ≤ b ∧ ∀ q, q <+: cs → byteCount q ≤ b → q <+: pre

variable {b : Nat} {cs pre : List Char}

theorem IsLongestWithin.unique {pre' : List Char} (h : IsLongestWithin b cs pre) (h' : IsLongestWithin b cs pre') :
    pre = pre' := by
  apply List.IsPrefix.eq_of_length_le
  · exact h'.2.2 pre h.1 h.2.1
  · exact (h.2.2 pre' h'.1 h'.2.1).length_le

theorem unitCount_le_of_prefix {xs ys : List Char} (h : xs <+: ys) : unitCount xs ≤ unitCount ys := by
  obtain ⟨zs, rfl⟩ := h
  rw [unitCount_append]
  omega

theorem byteCount_lt_of_prefix {xs ys : List Char} (h : xs <+: ys) (hne : xs ≠ ys) : byteCount xs < byteCount ys := by
  obtain ⟨zs, rfl⟩ := h
  cases zs with
  | nil => simp at hne
  | cons z zs =>
    have hz := z.utf8Size_pos
    simp only [byteCount_append, byteCount]
    omega

theorem eq_of_prefix_of_byteCount_eq {xs ys zs : List Char} (hx : xs <+: zs) (hy : ys <+: zs)
    (h : byteCount xs = byteCount ys) : xs = ys := by
  by_cases heq : xs = ys
  · exact heq
  · rcases List.prefix_or_prefix_of_prefix hx hy with hxy | hyx
    · have hlt := byteCount_lt_of_prefix hxy heq
      omega
    · have hlt := byteCount_lt_of_prefix hyx (Ne.symm heq)
      omega

theorem isLongestWithin_of_lt (pre : List Char) {c : Char} {rest : List Char} (hle : byteCount pre ≤ b)
    (hlt : b < byteCount pre + c.utf8Size) : IsLongestWithin b (pre ++ c :: rest) pre := by
  refine ⟨List.prefix_append pre _, hle, ?_⟩
  intro q hq hqle
  rcases List.prefix_or_prefix_of_prefix hq (List.prefix_append pre (c :: rest)) with hqpre | ⟨t, rfl⟩
  · exact hqpre
  · cases t with
    | nil => simp
    | cons d t =>
      obtain ⟨rfl, -⟩ := List.cons_prefix_cons.mp ((List.prefix_append_right_inj pre).mp hq)
      simp only [byteCount_append, byteCount] at hqle
      omega

theorem IsLongestWithin.cons (c : Char) (h : IsLongestWithin b cs pre) :
    IsLongestWithin (c.utf8Size + b) (c :: cs) (c :: pre) := by
  obtain ⟨hpre, hle, hlongest⟩ := h
  refine ⟨List.cons_prefix_cons.mpr ⟨rfl, hpre⟩, by simp only [byteCount]; omega, ?_⟩
  intro q hq hqle
  cases q with
  | nil => exact List.nil_prefix
  | cons d q =>
    obtain ⟨rfl, hq'⟩ := List.cons_prefix_cons.mp hq
    simp only [byteCount] at hqle
    exact List.cons_prefix_cons.mpr ⟨rfl, hlongest q hq' (by omega)⟩

theorem IsLongestWithin.append (h : IsLongestWithin b cs pre) (hb : b ≤ byteCount cs) (rest : List Char) :
    IsLongestWithin b (cs ++ rest) pre := by
  obtain ⟨hpre, hle, hlongest⟩ := h
  refine ⟨hpre.trans (List.prefix_append cs rest), hle, ?_⟩
  intro q hq hqle
  apply hlongest q _ hqle
  rcases List.prefix_or_prefix_of_prefix hq (List.prefix_append cs rest) with hqcs | hcsq
  · exact hqcs
  · by_cases heq : cs = q
    · exact heq ▸ List.prefix_rfl
    · have hlt := byteCount_lt_of_prefix hcsq heq
      omega

end Text

namespace Line

open Text

variable {b : Nat} {cs : List Char}

theorem exists_unitsFrom (before : Nat) (hb : b ≤ byteCount cs) :
    ∃ pre, IsLongestWithin b cs pre ∧ (unitsFrom before cs)[b]? = some (before + unitCount pre) := by
  induction cs generalizing before b with
  | nil =>
    obtain rfl : b = 0 := by simpa [byteCount] using hb
    refine ⟨[], ⟨List.prefix_rfl, Nat.le_refl 0, fun q hq _ => hq⟩, ?_⟩
    simp [unitsFrom, unitCount]
  | cons c cs ih =>
    by_cases hc : b < c.utf8Size
    · refine ⟨[], isLongestWithin_of_lt [] (Nat.zero_le b) (by simpa [byteCount] using hc), ?_⟩
      rw [unitsFrom, List.getElem?_append_left (by simpa using hc)]
      simp [hc, unitCount]
    · obtain ⟨b, rfl⟩ := Nat.exists_eq_add_of_le (Nat.le_of_not_lt hc)
      have hb' : b ≤ byteCount cs := by
        simp only [byteCount] at hb
        omega
      obtain ⟨pre, hpre, hunits⟩ := ih (before + units c) hb'
      refine ⟨c :: pre, hpre.cons c, ?_⟩
      rw [unitsFrom, List.getElem?_append_right (by simp)]
      simp [hunits, unitCount, Nat.add_assoc]

theorem unitsFrom_of_isAscii (before : Nat) (h : cs.all isAscii = true) (hb : b ≤ byteCount cs) :
    (unitsFrom before cs)[b]? = some (before + b) := by
  induction cs generalizing before b with
  | nil =>
    obtain rfl : b = 0 := by simpa [byteCount] using hb
    rfl
  | cons c cs ih =>
    obtain ⟨hc, hcs⟩ : isAscii c = true ∧ cs.all isAscii = true := by simpa using h
    have hunits : units c = 1 := by
      have hlt : c.toNat < 128 := by simpa [isAscii] using hc
      exact if_pos (by omega)
    have hsize : c.utf8Size = 1 := by
      have hone : byteCount [c] = unitCount [c] := byteCount_eq_unitCount (by simp [hc])
      simpa [byteCount, unitCount, hunits] using hone
    simp only [byteCount, hsize] at hb
    cases b with
    | zero => simp [unitsFrom, hsize]
    | succ b =>
      have hrest := ih (before + 1) hcs (b := b) (by omega)
      simp only [unitsFrom, hsize, hunits, List.replicate_one, List.singleton_append, List.getElem?_cons_succ, hrest]
      congr 1
      omega

theorem getElem?_unitsFrom (l : Line) (hb : b ≤ l.size) : (unitsFrom 0 l.chars.toList)[b]? = some (l.unitsAt b) := by
  rw [size_eq] at hb
  rw [unitsAt, l.unitTable_eq, unitTable?]
  split
  next h =>
    split at h
    next hascii => simpa using unitsFrom_of_isAscii 0 hascii hb
    next => cases h
  next table h =>
    split at h
    next => cases h
    next =>
      cases h
      obtain ⟨pre, -, hunits⟩ := exists_unitsFrom 0 hb
      simp [Array.getD_eq_getD_getElem?, hunits]

theorem exists_unitsAt (l : Line) (hb : b ≤ l.size) :
    ∃ pre, IsLongestWithin b l.chars.toList pre ∧ l.unitsAt b = unitCount pre := by
  obtain ⟨pre, hpre, hunits⟩ := exists_unitsFrom 0 (l.size_eq ▸ hb)
  refine ⟨pre, hpre, ?_⟩
  rw [l.getElem?_unitsFrom hb, Option.some.injEq] at hunits
  rw [hunits, Nat.zero_add]

theorem unitsAt_eq {l : Line} {pre : List Char} (hb : b ≤ l.size) (h : IsLongestWithin b l.chars.toList pre) :
    l.unitsAt b = unitCount pre := by
  obtain ⟨pre', hpre', hunits⟩ := l.exists_unitsAt hb
  rw [hunits, h.unique hpre']

theorem unitsAt_mono (l : Line) {a b : Nat} (hab : a ≤ b) (hb : b ≤ l.size) : l.unitsAt a ≤ l.unitsAt b := by
  obtain ⟨pre, ⟨hpre, hle, -⟩, ha⟩ := l.exists_unitsAt (Nat.le_trans hab hb)
  obtain ⟨pre', ⟨-, -, hlongest⟩, hb⟩ := l.exists_unitsAt hb
  rw [ha, hb]
  apply unitCount_le_of_prefix
  apply hlongest pre hpre
  omega

theorem IsBoundary.exists_index? {l : Line} {b : Nat} (hb : l.IsBoundary b) :
    ∃ k ≤ l.chars.size, byteCount (l.chars.toList.take k) = b ∧ l.index? b = some k := by
  obtain ⟨k, rfl⟩ := hb
  have hmin : l.chars.toList.take (min k l.chars.size) = l.chars.toList.take k := by
    rw [← Array.length_toList, ← List.take_eq_take_min]
  have hle : min k l.chars.size ≤ l.chars.size := Nat.min_le_right _ _
  refine ⟨min k l.chars.size, hle, congrArg byteCount hmin, ?_⟩
  rw [← hmin]
  exact l.index?_byteCount hle

theorem IsBoundary.exists_upTo {l : Line} {p : Nat} (hp : l.IsBoundary p) :
    ∃ cut, l.upTo? p = some cut ∧ cut.size = p ∧ cut.chars.toList <+: l.chars.toList := by
  have hsize := hp.size_upTo
  obtain ⟨k, -, -, hindex⟩ := hp.exists_index?
  have hcut : l.upTo? p = some (ofChars (l.chars.extract 0 k).toList (min p l.contentSize)) := by
    rw [upTo?, Nat.min_eq_left hp.le_size, hindex]
    rfl
  rw [hcut, Option.getD_some] at hsize
  refine ⟨_, hcut, hsize, ?_⟩
  simp [ofChars, List.take_prefix]

theorem IsBoundary.unitsAt_upTo {l cut : Line} {p : Nat} (hp : l.IsBoundary p) (hcut : l.upTo? p = some cut)
    (hb : b ≤ p) : cut.unitsAt b = l.unitsAt b := by
  obtain ⟨_, hcut', hsize, rest, hrest⟩ := hp.exists_upTo
  cases hcut.symm.trans hcut'
  obtain ⟨pre, hpre, hunits⟩ := cut.exists_unitsAt (b := b) (by omega)
  have hfits : b ≤ byteCount cut.chars.toList := by
    rw [← size_eq]
    omega
  have hlong := hpre.append hfits rest
  rw [hrest] at hlong
  rw [hunits, unitsAt_eq (Nat.le_trans hb hp.le_size) hlong]

/-- A byte offset stands for the units of the longest beginning of the line that fits before it.  Columns never go
back, they grow from one boundary to the next, the text ends at the column of its length, and a line that is cut short
has the columns of the whole one. -/
theorem columns_of_bytes (text : String) :
    (∀ b ≤ (ofText text).size, ∃ pre, IsLongestWithin b (text.toList ++ ['\n']) pre ∧
        (ofText text).unitsAt b = unitCount pre) ∧
      (∀ a b, a ≤ b → b ≤ (ofText text).size → (ofText text).unitsAt a ≤ (ofText text).unitsAt b) ∧
      (∀ a b, (ofText text).IsBoundary a → (ofText text).IsBoundary b → a < b →
        (ofText text).unitsAt a < (ofText text).unitsAt b) ∧
      (ofText text).unitsAt (ofText text).contentSize = unitCount text.toList ∧
      ∀ p, (ofText text).IsBoundary p → ∃ cut, (ofText text).upTo? p = some cut ∧ cut.size = p ∧
        ∀ b ≤ p, cut.unitsAt b = (ofText text).unitsAt b := by
  refine ⟨?_, ?_, ?_, unitsAt_contentSize text, ?_⟩
  · intro b hb
    exact exists_unitsAt (ofText text) hb
  · intro a b hab hb
    exact unitsAt_mono _ hab hb
  · intro a b ha hb hab
    exact unitsAt_lt ha hb hab
  · intro p hp
    obtain ⟨cut, hcut, hsize, -⟩ := hp.exists_upTo
    refine ⟨cut, hcut, hsize, ?_⟩
    intro b hb
    exact hp.unitsAt_upTo hcut hb

theorem columns_of_bytes_mixed :
    (ofText "aé😀").size = 8 ∧ (ofText "aé😀").unitsAt 5 = 2 ∧
      (ofText "aé😀").unitsAt 3 < (ofText "aé😀").unitsAt 7 ∧ (ofText "aé😀").unitsAt 7 = 4 ∧
      ∃ cut, (ofText "aé😀").upTo? 1 = some cut ∧ cut.unitTable = none ∧ (ofText "aé😀").unitTable ≠ none ∧
        cut.unitsAt 1 = (ofText "aé😀").unitsAt 1 := by
  obtain ⟨hunits, -, hstrict, hcontent, hcut⟩ := columns_of_bytes "aé😀"
  obtain ⟨pre, hpre, hcolumn⟩ := hunits 5 (by decide)
  have hlongest : IsLongestWithin 5 ['a', 'é', '😀', '\n'] ['a', 'é'] :=
    isLongestWithin_of_lt ['a', 'é'] (by decide) (by decide)
  rw [hpre.unique hlongest] at hcolumn
  obtain ⟨cut, hupTo, -, hcolumns⟩ := hcut 1 ⟨1, by decide⟩
  refine ⟨by decide, hcolumn, hstrict 3 7 ⟨2, by decide⟩ ⟨3, by decide⟩ (by decide), hcontent.trans (by decide),
    cut, hupTo, ?_, by decide, hcolumns 1 (Nat.le_refl 1)⟩
  have hindex : (ofText "aé😀").index? 1 = some 1 := (ofText "aé😀").index?_byteCount (k := 1) (by decide)
  have hsize : min 1 (ofText "aé😀").size = 1 := by decide
  simp only [upTo?, hsize, hindex, Option.map_some, Option.some.injEq] at hupTo
  subst hupTo
  decide

end Line

end GrammarScopes
