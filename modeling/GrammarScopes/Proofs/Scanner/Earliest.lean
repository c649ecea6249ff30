import GrammarScopes.Proofs.Except
import GrammarScopes.Proofs.Pattern.Keep
import GrammarScopes.Proofs.Scanner

/-!
The earliest of several matches: one that begins first, and of those the first in the list.  A search in turn finds it
if no match begins before the place where the search starts, and a search at once finds what a search in turn does.
-/

namespace GrammarScopes

section Earlier

variable {α β : Type} {start : α → Nat} {x y z : Option α} {a b : α} {xs ys : List (Option α)}

/-- The one that begins earlier, or the first if both begin at the same place. -/
def earlier (start : α → Nat) : Option α → Option α → Option α
  | some a, some b => if start a ≤ start b then some a else some b
  | some a, none => some a
  | none, y => y

def firstOf (start : α → Nat) (xs : List (Option α)) : Option α := xs.foldr (earlier start) none

/-- Nothing begins earlier, and nothing before it in the list at the same place. -/
def Earliest (start : α → Nat) (xs : List (Option α)) : Option α → Prop
  | none => ∀ x ∈ xs, x = none
  | some a => ∃ before after, xs = before ++ some a :: after ∧
      (∀ b, some b ∈ before → start a < start b) ∧ ∀ b, some b ∈ after → start a ≤ start b

theorem earlier_none_right (start : α → Nat) (x : Option α) : earlier start x none = x := by
  cases x <;> rfl

theorem earlier_of_le (h : start a ≤ start b) : earlier start (some a) (some b) = some a := if_pos h

theorem earlier_of_lt (h : start b < start a) : earlier start (some a) (some b) = some b := if_neg (Nat.not_le_of_lt h)

theorem earlier_assoc (start : α → Nat) (x y z : Option α) :
    earlier start (earlier start x y) z = earlier start x (earlier start y z) := by
  cases x with
  | none => rfl
  | some a =>
    cases y with
    | none => rfl
    | some b =>
      cases z with
      | none => rw [earlier_none_right, earlier_none_right]
      | some c =>
        rcases Nat.lt_or_ge (start b) (start a) with hba | hab
        · rw [earlier_of_lt hba]
          rcases Nat.lt_or_ge (start c) (start b) with hcb | hbc
          · rw [earlier_of_lt hcb, earlier_of_lt (Nat.lt_trans hcb hba)]
          · rw [earlier_of_le hbc, earlier_of_lt hba]
        · rw [earlier_of_le hab]
          rcases Nat.lt_or_ge (start c) (start b) with hcb | hbc
          · rw [earlier_of_lt hcb]
          · rw [earlier_of_le hbc, earlier_of_le hab, earlier_of_le (Nat.le_trans hab hbc)]

theorem earlier_eq_some (h : earlier start x y = some a) : x = some a ∨ y = some a := by
  unfold earlier at h
  split at h
  · split at h
    · exact .inl h
    · exact .inr h
  · exact .inl h
  · exact .inr h

theorem firstOf_cons (start : α → Nat) (x : Option α) (xs : List (Option α)) :
    firstOf start (x :: xs) = earlier start x (firstOf start xs) := rfl

theorem firstOf_singleton (start : α → Nat) (x : Option α) : firstOf start [x] = x := earlier_none_right start x

theorem firstOf_append (start : α → Nat) (xs ys : List (Option α)) :
    firstOf start (xs ++ ys) = earlier start (firstOf start xs) (firstOf start ys) := by
  induction xs with
  | nil => rfl
  | cons x xs ih => rw [List.cons_append, firstOf_cons, firstOf_cons, ih, earlier_assoc]

theorem mem_of_firstOf (h : firstOf start xs = some a) : some a ∈ xs := by
  induction xs with
  | nil => cases h
  | cons x xs ih =>
    rcases earlier_eq_some h with hx | hxs
    · exact hx ▸ List.mem_cons_self
    · exact List.mem_cons_of_mem _ (ih hxs)

theorem firstOf_none (h : ∀ x ∈ xs, x = none) : firstOf start xs = none := by
  refine Option.eq_none_iff_forall_ne_some.mpr fun a ha => ?_
  cases h _ (mem_of_firstOf ha)

theorem firstOf_earliest (start : α → Nat) (xs : List (Option α)) : Earliest start xs (firstOf start xs) := by
  induction xs with
  | nil => exact nofun
  | cons x xs ih =>
    rw [firstOf_cons]
    cases hfirst : firstOf start xs with
    | none =>
      rw [hfirst] at ih
      rw [earlier_none_right]
      cases x with
      | none => exact List.forall_mem_cons.mpr ⟨rfl, ih⟩
      | some a => exact ⟨[], xs, rfl, nofun, fun b hb => nomatch ih _ hb⟩
    | some b =>
      rw [hfirst] at ih
      obtain ⟨before, after, hxs, hbefore, hafter⟩ := ih
      cases x with
      | none => exact ⟨none :: before, after, by rw [hxs]; rfl, fun c hc => hbefore c (by simpa using hc), hafter⟩
      | some a =>
        rcases Nat.lt_or_ge (start b) (start a) with hlt | hge
        · rw [earlier_of_lt hlt]
          refine ⟨some a :: before, after, by rw [hxs]; rfl, fun c hc => ?_, hafter⟩
          rcases List.mem_cons.mp hc with hc | hc
          · cases hc
            exact hlt
          · exact hbefore c hc
        · rw [earlier_of_le hge]
          refine ⟨[], xs, rfl, nofun, fun c hc => ?_⟩
          rw [hxs, List.mem_append, List.mem_cons] at hc
          rcases hc with hc | hc | hc
          · exact Nat.le_of_lt (Nat.lt_of_le_of_lt hge (hbefore c hc))
          · cases hc
            exact hge
          · exact Nat.le_trans hge (hafter c hc)

theorem Earliest.le (h : Earliest start xs (some a)) (hb : some b ∈ xs) : start a ≤ start b := by
  obtain ⟨before, after, rfl, hbefore, hafter⟩ := h
  rcases List.mem_append.mp hb with hb | hb
  · exact Nat.le_of_lt (hbefore b hb)
  · rcases List.mem_cons.mp hb with hb | hb
    · cases hb
      exact Nat.le_refl _
    · exact hafter b hb

theorem firstOf_bind (start' : β → Nat) {change : α → Option β}
    (hchange : ∀ a, some a ∈ xs → ∃ b, change a = some b)
    (horder : ∀ a a' b b', some a ∈ xs → some a' ∈ xs → change a = some b → change a' = some b' →
      (start' b ≤ start' b' ↔ start a ≤ start a')) :
    (firstOf start xs).bind change = firstOf start' (xs.map (·.bind change)) := by
  induction xs with
  | nil => rfl
  | cons x xs ih =>
    have ih := ih (fun a ha => hchange a (List.mem_cons_of_mem _ ha))
      fun a a' b b' ha ha' => horder a a' b b' (List.mem_cons_of_mem _ ha) (List.mem_cons_of_mem _ ha')
    rw [List.map_cons, firstOf_cons, firstOf_cons, ← ih]
    cases x with
    | none => rfl
    | some a =>
      obtain ⟨b, hb⟩ := hchange a List.mem_cons_self
      cases hfirst : firstOf start xs with
      | none => rw [earlier_none_right, Option.bind_none, earlier_none_right]
      | some a' =>
        have hmem := List.mem_cons_of_mem (some a) (mem_of_firstOf hfirst)
        obtain ⟨b', hb'⟩ := hchange a' hmem
        have hiff := horder a a' b b' List.mem_cons_self hmem hb hb'
        rw [Option.bind_some, Option.bind_some, hb, hb']
        rcases Nat.lt_or_ge (start a') (start a) with hlt | hle
        · rw [earlier_of_lt hlt, earlier_of_lt (Nat.lt_of_not_le fun h => Nat.not_le_of_lt hlt (hiff.mp h))]
          exact hb'
        · rw [earlier_of_le hle, earlier_of_le (hiff.mpr hle)]
          exact hb

end Earlier

namespace Scanner

open Pattern

section InTurn

variable {α : Type} {find : α → Option Found} {p : Nat} {best : Option Found} {entries : List α}

/-- That a search is over with a match that begins where it starts makes no difference if no later one begins before. -/
theorem inTurn_eq (best : Option Found)
    (hahead : entries.Pairwise fun e e' => ∀ f ∈ find e, f.start = p → ∀ f' ∈ find e', p ≤ f'.start) :
    inTurn find p best entries = earlier Found.start best (firstOf Found.start (entries.map find)) := by
  induction entries generalizing best with
  | nil => exact (earlier_none_right _ _).symm
  | cons e entries ih =>
    obtain ⟨he, hahead⟩ := List.pairwise_cons.mp hahead
    rw [List.map_cons, firstOf_cons]
    unfold inTurn
    cases hfind : find e with
    | none => exact ih best hahead
    | some f =>
      dsimp only
      rw [← earlier_assoc]
      split
      next hbefore =>
        obtain ⟨b, rfl, hb⟩ := (Option.any_eq_true _ _).mp hbefore
        rw [earlier_of_le (of_decide_eq_true hb)]
        exact ih (some b) hahead
      next hbefore =>
        have hnew : earlier Found.start best (some f) = some f := by
          cases best with
          | none => rfl
          | some b => exact earlier_of_lt (by simpa using hbefore)
        rw [hnew]
        split
        next hstart =>
          have hstart : f.start = p := by simpa using hstart
          cases hrest : firstOf Found.start (entries.map find) with
          | none => rfl
          | some g =>
            obtain ⟨e', he', hg⟩ := List.mem_map.mp (mem_of_firstOf hrest)
            exact (earlier_of_le (hstart ▸ he e' he' f hfind hstart g hg)).symm
        next => exact ih (some f) hahead

end InTurn

section AtOnce

variable {t : Subject} {n p : Nat} {e : Nat × Compiled} {f : Found} {entries : List (Nat × Compiled)}

theorem found_start {a : Attempt} (he : e.2.root.keeps = false) (ha : e.2.matchAt t p = some a) :
    (found e.1 p a).start = p := Compiled.matchAt_keep he ha

theorem search_start (he : e.2.root.keeps = false) (h : search t n p e = some f) : p ≤ f.start := by
  obtain ⟨q, a, hle, -, ha, rfl⟩ := search_eq_some h
  rwa [found_start he ha]

theorem search_of_match {a : Attempt} (ha : e.2.matchAt t p = some a) :
    search t (n + 1) p e = some (found e.1 p a) := by
  rw [search, Compiled.search, ha]
  rfl

theorem search_of_none (ha : e.2.matchAt t p = none) : search t (n + 1) p e = search t n (p + 1) e := by
  rw [search, Compiled.search, ha]
  rfl

theorem atOnce_start (hentries : ∀ e ∈ entries, e.2.root.keeps = false) (h : atOnce t entries n p = some f) :
    p ≤ f.start := by
  obtain ⟨e, he, q, a, hle, -, ha, rfl⟩ := atOnce_eq_some h
  rwa [found_start (hentries e he) ha]

theorem atOnce_nil (t : Subject) (n p : Nat) : atOnce t [] n p = none := by
  induction n generalizing p with
  | zero => rfl
  | succ n ih => exact ih (p + 1)

theorem atOnce_cons (he : e.2.root.keeps = false) (hentries : ∀ e ∈ entries, e.2.root.keeps = false) (n p : Nat) :
    atOnce t (e :: entries) n p = earlier Found.start (search t n p e) (atOnce t entries n p) := by
  induction n generalizing p with
  | zero => rfl
  | succ n ih =>
    cases ha : e.2.matchAt t p with
    | some a =>
      have hstart := found_start he ha
      have hfirst : atOnce t (e :: entries) (n + 1) p = some (found e.1 p a) := by
        rw [atOnce, List.findSome?_cons, ha]
        rfl
      rw [hfirst, search_of_match ha]
      cases hrest : atOnce t entries (n + 1) p with
      | none => rfl
      | some g => exact (earlier_of_le (hstart.symm ▸ atOnce_start hentries hrest)).symm
    | none =>
      rw [search_of_none ha, atOnce, atOnce, List.findSome?_cons, ha]
      dsimp only [Option.map_none]
      cases hsome : entries.findSome? fun e => (e.2.matchAt t p).map (found e.1 p) with
      | none => exact ih (p + 1)
      | some g =>
        obtain ⟨e', he', hg⟩ := List.exists_of_findSome?_eq_some hsome
        obtain ⟨a, ha', rfl⟩ := Option.map_eq_some_iff.mp hg
        have hstart := found_start (hentries e' he') ha'
        cases hsearch : search t n (p + 1) e with
        | none => rfl
        | some f =>
          have hle := search_start he hsearch
          exact (earlier_of_lt (by omega)).symm

theorem atOnce_eq (hentries : ∀ e ∈ entries, e.2.root.keeps = false) (n p : Nat) :
    atOnce t entries n p = firstOf Found.start (entries.map (search t n p)) := by
  induction entries with
  | nil => exact atOnce_nil t n p
  | cons e entries ih =>
    obtain ⟨he, hentries⟩ := List.forall_mem_cons.mp hentries
    rw [atOnce_cons he hentries, ih hentries, List.map_cons, firstOf_cons]

end AtOnce

section Matcher

variable {patterns : List Compiled} {line : Line} {pos : Nat} {m : ScanMatch}

theorem matcher_find (patterns : List Compiled) (line : Line) (pos : Nat) : (matcher patterns).find line pos =
    (line.index? pos).bind fun p =>
      (inTurn (search ⟨line.chars, p⟩ (line.chars.size + 1 - p) p) p none (numbered patterns)).bind (toMatch line) := by
  simp only [matcher, Option.bind_eq_bind]
  congr 1
  funext p
  unfold earliest
  split
  next => rfl
  next hkeeps =>
    have hentries : ∀ e ∈ numbered patterns, e.2.root.keeps = false := by
      intro e he
      have hmem := List.mem_of_getElem? (mem_numbered.mp he)
      simp only [List.any_eq_true, not_exists, not_and, Bool.not_eq_true] at hkeeps
      exact hkeeps _ hmem
    have hahead : (numbered patterns).Pairwise fun e e' => ∀ f ∈ search ⟨line.chars, p⟩ (line.chars.size + 1 - p) p e,
        f.start = p → ∀ f' ∈ search ⟨line.chars, p⟩ (line.chars.size + 1 - p) p e', p ≤ f'.start :=
      List.pairwise_of_forall_mem_list fun _ _ e' he' _ _ _ _ hf' => search_start (hentries e' he') hf'
    rw [atOnce_eq hentries, inTurn_eq none hahead]
    rfl

theorem getElem?_numbered (patterns : List Compiled) (i : Nat) :
    (numbered patterns)[i]? = patterns[i]?.map fun c => (i, c) := by
  rw [numbered, List.getElem?_map, List.getElem?_zipIdx, Option.map_map]
  simp only [Nat.zero_add]
  rfl

theorem getElem_numbered {i : Nat} (hi : i < (numbered patterns).length) :
    ∃ c, patterns[i]? = some c ∧ (numbered patterns)[i] = (i, c) := by
  have h := getElem?_numbered patterns i
  rw [List.getElem?_eq_getElem hi] at h
  obtain ⟨c, hc, he⟩ := Option.map_eq_some_iff.mp h.symm
  exact ⟨c, hc, he.symm⟩

theorem search_renumber (t : Subject) (n p i j : Nat) (c : Compiled) :
    search t n p (j, c) = (search t n p (i, c)).map fun f => { f with index := j } := by
  rw [search, search, Option.map_map]
  rfl

theorem toMatch_renumber (line : Line) (f : Found) (i : Nat) :
    toMatch line { f with index := i } = (toMatch line f).map fun m => { m with index := i } := by
  simp only [toMatch]
  split <;> rfl

theorem toMatch_index {f : Found} (h : toMatch line f = some m) : m.index = f.index := by
  unfold toMatch at h
  dsimp only at h
  split at h <;> cases h
  rfl

theorem exists_toMatch {e : Nat × Compiled} {p : Nat} {f : Found}
    (h : search ⟨line.chars, p⟩ (line.chars.size + 1 - p) p e = some f) :
    p ≤ line.chars.size ∧ f.start ≤ line.chars.size ∧
      ∃ m, toMatch line f = some m ∧ m.index = e.1 ∧ m.start = line.offset f.start := by
  obtain ⟨q, a, hle, hlt, ha, rfl⟩ := search_eq_some h
  obtain ⟨-, hsize⟩ := Compiled.matchAt_advances ha
  have hq : q ≤ line.chars.size := by omega
  exact ⟨Nat.le_trans hle hq, Nat.le_trans (Nat.min_le_right _ _) (hsize hq), _, rfl, rfl, rfl⟩

theorem offset_le_iff {i j : Nat} (hi : i ≤ line.chars.size) (hj : j ≤ line.chars.size) :
    line.offset i ≤ line.offset j ↔ i ≤ j := by
  constructor
  · intro h
    refine Nat.le_of_not_lt fun hlt => ?_
    have := line.offset_lt hlt hi
    omega
  · intro h
    rcases Nat.eq_or_lt_of_le h with rfl | hlt
    · exact Nat.le_refl _
    · exact Nat.le_of_lt (line.offset_lt hlt hj)

theorem find_index_lt (h : (matcher patterns).find line pos = some m) : m.index < patterns.length := by
  rw [matcher_find] at h
  obtain ⟨p, -, h⟩ := Option.bind_eq_some_iff.mp h
  obtain ⟨f, hf, hm⟩ := Option.bind_eq_some_iff.mp h
  rcases inTurn_eq_some hf with hnone | ⟨e, he, hsearch⟩
  · cases hnone
  · obtain ⟨q, a, -, -, -, rfl⟩ := search_eq_some hsearch
    rw [toMatch_index hm]
    exact (List.getElem?_eq_some_iff.mp (mem_numbered.mp he)).1

theorem find_singleton (c : Compiled) (line : Line) (pos : Nat) : (matcher [c]).find line pos =
    (line.index? pos).bind fun p =>
      (search ⟨line.chars, p⟩ (line.chars.size + 1 - p) p (0, c)).bind (toMatch line) := by
  rw [matcher_find]
  congr 1
  funext p
  change (inTurn _ p none [(0, c)]).bind _ = _
  unfold inTurn
  cases search ⟨line.chars, p⟩ (line.chars.size + 1 - p) p (0, c) with
  | none => rfl
  | some f =>
    dsimp only [Option.any_none]
    split
    next h => cases h
    next => split <;> rfl

def findAlone (line : Line) (pos : Nat) (compiled : Except PatternFault Compiled) : Option ScanMatch :=
  compiled.toOption.bind fun c => (matcher [c]).find line pos

theorem findAlone_ok {p : Nat} (hp : line.index? pos = some p) (c : Compiled) (i : Nat) :
    findAlone line pos (.ok c) =
      ((search ⟨line.chars, p⟩ (line.chars.size + 1 - p) p (i, c)).bind (toMatch line)).map
        fun m => { m with index := 0 } := by
  rw [findAlone, Except.toOption, Option.bind_some, find_singleton, hp, Option.bind_some, search_renumber _ _ _ i]
  cases search ⟨line.chars, p⟩ (line.chars.size + 1 - p) p (i, c) with
  | none => rfl
  | some f => exact toMatch_renumber line f 0

section Several

variable {α γ : Type} {xs : List α} {compiled : α → Except PatternFault Compiled} {cs : List Compiled}

theorem exists_findAlone {p i : Nat} {f : Found} (hcs : xs.mapM compiled = .ok cs) (hp : line.index? pos = some p)
    {c : Compiled} (hc : cs[i]? = some c)
    (hf : search ⟨line.chars, p⟩ (line.chars.size + 1 - p) p (i, c) = some f) :
    p ≤ line.chars.size ∧ f.start ≤ line.chars.size ∧
      ∃ m x, toMatch line f = some m ∧ m.index = i ∧ m.start = line.offset f.start ∧ xs[i]? = some x ∧
        findAlone line pos (compiled x) = some { m with index := 0 } := by
  obtain ⟨hp', hsize, m, hm, hindex, hstart⟩ := exists_toMatch hf
  have hx := getElem?_mapM hcs i
  rw [hc] at hx
  obtain ⟨x, hx, hcompiled⟩ := Option.map_eq_some_iff.mp hx
  refine ⟨hp', hsize, m, x, hm, hindex, hstart, hx, ?_⟩
  rw [hcompiled, findAlone_ok hp c i, hf, Option.bind_some, hm]
  rfl

theorem pairwise_ahead {p : Nat} (hcs : xs.mapM compiled = .ok cs) (hp : line.index? pos = some p)
    (hahead : xs.Pairwise fun x x' => ∀ m ∈ findAlone line pos (compiled x), m.start = pos →
      ∀ m' ∈ findAlone line pos (compiled x'), pos ≤ m'.start) :
    (numbered cs).Pairwise fun e e' => ∀ f ∈ search ⟨line.chars, p⟩ (line.chars.size + 1 - p) p e, f.start = p →
      ∀ f' ∈ search ⟨line.chars, p⟩ (line.chars.size + 1 - p) p e', p ≤ f'.start := by
  refine List.pairwise_iff_getElem.mpr fun i j hi hj hij f hf hstart f' hf' => ?_
  obtain ⟨c, hc, he⟩ := getElem_numbered hi
  obtain ⟨c', hc', he'⟩ := getElem_numbered hj
  rw [he] at hf
  rw [he'] at hf'
  obtain ⟨hp', -, m, x, -, -, hbegins, hx, halone⟩ := exists_findAlone hcs hp hc hf
  obtain ⟨-, hsize, m', x', -, -, hbegins', hx', halone'⟩ := exists_findAlone hcs hp hc' hf'
  obtain ⟨hi, rfl⟩ := List.getElem?_eq_some_iff.mp hx
  obtain ⟨hj, rfl⟩ := List.getElem?_eq_some_iff.mp hx'
  have hpos : m.start = pos := by rw [hbegins, hstart, Line.offset_of_index? hp]
  have hle := List.pairwise_iff_getElem.mp hahead i j hi hj hij _ halone hpos _ halone'
  change pos ≤ m'.start at hle
  rwa [hbegins', ← Line.offset_of_index? hp, offset_le_iff hp' hsize] at hle

theorem map_findAlone {p : Nat} (label : α → γ) (hcs : xs.mapM compiled = .ok cs) (hp : line.index? pos = some p) :
    (numbered cs).map (fun e => (search ⟨line.chars, p⟩ (line.chars.size + 1 - p) p e).bind fun f =>
        (toMatch line f).bind fun m => xs[m.index]?.map fun x => (label x, m.whole, m.groups)) =
      xs.map fun x => (findAlone line pos (compiled x)).map fun m => (label x, m.whole, m.groups) := by
  refine List.ext_getElem? fun i => ?_
  have hx := getElem?_mapM hcs i
  rw [List.getElem?_map, List.getElem?_map, getElem?_numbered]
  cases hi : cs[i]? with
  | none =>
    rw [hi, Option.map_none, Option.map_eq_none_iff] at hx
    rw [hx]
    rfl
  | some c =>
    rw [hi] at hx
    obtain ⟨x, hx, hcompiled⟩ := Option.map_eq_some_iff.mp hx
    rw [hx, Option.map_some, Option.map_some, Option.map_some, hcompiled, findAlone_ok hp c i]
    cases hf : search ⟨line.chars, p⟩ (line.chars.size + 1 - p) p (i, c) with
    | none => rfl
    | some f =>
      obtain ⟨-, -, m, -, hm, rfl, -⟩ := exists_findAlone hcs hp hi hf
      rw [Option.bind_some, Option.bind_some, hm, Option.bind_some, hx]
      rfl

/-- A search for several patterns finds the earliest of what searches for each of them find. -/
theorem find_eq_firstOf (label : α → γ) (hcs : xs.mapM compiled = .ok cs)
    (hahead : xs.Pairwise fun x x' => ∀ m ∈ findAlone line pos (compiled x), m.start = pos →
      ∀ m' ∈ findAlone line pos (compiled x'), pos ≤ m'.start) :
    ((matcher cs).find line pos).bind (fun m => xs[m.index]?.map fun x => (label x, m.whole, m.groups)) =
      firstOf (fun r : γ × Span × Captures => r.2.1.start)
        (xs.map fun x => (findAlone line pos (compiled x)).map fun m => (label x, m.whole, m.groups)) := by
  rw [matcher_find]
  cases hp : line.index? pos with
  | none =>
    refine (firstOf_none fun r hr => ?_).symm
    obtain ⟨x, -, rfl⟩ := List.mem_map.mp hr
    unfold findAlone
    cases (compiled x).toOption with
    | none => rfl
    | some c => rw [Option.bind_some, find_singleton, hp]; rfl
  | some p =>
    have hfound : ∀ f, some f ∈ (numbered cs).map (search ⟨line.chars, p⟩ (line.chars.size + 1 - p) p) →
        f.start ≤ line.chars.size ∧
          ∃ m x, toMatch line f = some m ∧ m.start = line.offset f.start ∧ xs[m.index]? = some x := by
      intro f hf
      obtain ⟨⟨i, c⟩, he, hsearch⟩ := List.mem_map.mp hf
      obtain ⟨-, hsize, m, x, hm, hindex, hstart, hx, -⟩ := exists_findAlone hcs hp (mem_numbered.mp he) hsearch
      exact ⟨hsize, m, x, hm, hstart, hindex ▸ hx⟩
    rw [Option.bind_some, inTurn_eq none (pairwise_ahead hcs hp hahead), Option.bind_assoc]
    change (firstOf _ _).bind _ = _
    rw [firstOf_bind fun r : γ × Span × Captures => r.2.1.start]
    · rw [List.map_map]
      exact congrArg (firstOf _) (map_findAlone label hcs hp)
    · intro f hf
      obtain ⟨-, m, x, hm, -, hx⟩ := hfound f hf
      exact ⟨(label x, m.whole, m.groups), by rw [hm, Option.bind_some, hx]; rfl⟩
    · intro f f' r r' hf hf' hr hr'
      obtain ⟨hsize, m, x, hm, hstart, hx⟩ := hfound f hf
      obtain ⟨hsize', m', x', hm', hstart', hx'⟩ := hfound f' hf'
      rw [hm, Option.bind_some, hx] at hr
      rw [hm', Option.bind_some, hx'] at hr'
      cases hr
      cases hr'
      -- bytes and characters put the two matches in the same order
      change m.start ≤ m'.start ↔ _
      rw [hstart, hstart']
      exact offset_le_iff hsize hsize'

end Several

end Matcher

end Scanner

end GrammarScopes
