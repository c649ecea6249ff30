import GrammarScopes.Grammar.Candidates
import Mathlib.Algebra.GroupWithZero.Nat
import Mathlib.Algebra.Order.BigOperators.Group.List
import Mathlib.Algebra.Order.Group.Nat
import Mathlib.Data.List.Perm.Subperm

/-!
Opening containers, as two recursions.  One opens each container once; the other opens a container whenever it is met,
except within itself.  What the first leaves out has been listed before.
-/

namespace GrammarScopes

/-- What is listed when each container is opened once, and which containers have been opened then. -/
inductive Flattens (rules : Array Rule) : List RuleId → List RuleId → List RuleId → List RuleId → Prop
  | done {opened : List RuleId} : Flattens rules opened [] [] opened
  | rule {id : RuleId} {r : Rule} {opened ids out opened' : List RuleId} (hr : rules[id]? = some r)
    (hplain : r.isContainer = false) (h : Flattens rules opened ids out opened') :
    Flattens rules opened (id :: ids) (id :: out) opened'
  | again {id : RuleId} {patterns opened ids out opened' : List RuleId} (hr : rules[id]? = some (.container patterns))
    (hid : id ∈ opened) (h : Flattens rules opened ids out opened') : Flattens rules opened (id :: ids) out opened'
  | first {id : RuleId} {patterns opened opened₁ ids inner out opened' : List RuleId}
    (hr : rules[id]? = some (.container patterns)) (hid : id ∉ opened)
    (hinner : Flattens rules (id :: opened) patterns inner opened₁) (h : Flattens rules opened₁ ids out opened') :
    Flattens rules opened (id :: ids) (inner ++ out) opened'

/-- What is listed when a container is opened whenever it is met outside itself; `path` has the containers around. -/
inductive Expands (rules : Array Rule) : List RuleId → List RuleId → List RuleId → Prop
  | done {path : List RuleId} : Expands rules path [] []
  | rule {id : RuleId} {r : Rule} {path ids out : List RuleId} (hr : rules[id]? = some r)
    (hplain : r.isContainer = false) (h : Expands rules path ids out) : Expands rules path (id :: ids) (id :: out)
  | cut {id : RuleId} {patterns path ids out : List RuleId} (hr : rules[id]? = some (.container patterns))
    (hid : id ∈ path) (h : Expands rules path ids out) : Expands rules path (id :: ids) out
  | opened {id : RuleId} {patterns path ids inner out : List RuleId} (hr : rules[id]? = some (.container patterns))
    (hid : id ∉ path) (hinner : Expands rules (id :: path) patterns inner) (h : Expands rules path ids out) :
    Expands rules path (id :: ids) (inner ++ out)

/-- Rules that are reached through containers only. -/
inductive Offers (rules : Array Rule) : List RuleId → RuleId → Prop
  | rule {ids : List RuleId} {id : RuleId} {r : Rule} (hid : id ∈ ids) (hr : rules[id]? = some r)
    (hplain : r.isContainer = false) : Offers rules ids id
  | inside {ids patterns : List RuleId} {id other : RuleId} (hid : id ∈ ids)
    (hr : rules[id]? = some (.container patterns)) (h : Offers rules patterns other) : Offers rules ids other

theorem Offers.mono {rules : Array Rule} {ids ids' : List RuleId} {x : RuleId} (h : Offers rules ids x)
    (hsub : ids ⊆ ids') : Offers rules ids' x := by
  cases h with
  | rule hid hr hplain => exact .rule (hsub hid) hr hplain
  | inside hid hr h => exact .inside (hsub hid) hr h

/-- A list with some elements more, each of which occurs before or is in `seen`. -/
inductive Pads : List RuleId → List RuleId → List RuleId → Prop
  | nil {seen : List RuleId} : Pads seen [] []
  | keep {id : RuleId} {seen ids padded : List RuleId} (h : Pads (id :: seen) ids padded) :
    Pads seen (id :: ids) (id :: padded)
  | repeated {id : RuleId} {seen ids padded : List RuleId} (hid : id ∈ seen) (h : Pads seen ids padded) :
    Pads seen ids (id :: padded)

namespace Pads

variable {seen seen' ids ids' padded padded' : List RuleId}

theorem mono (h : Pads seen ids padded) (hsub : seen ⊆ seen') : Pads seen' ids padded := by
  induction h generalizing seen' with
  | nil => exact .nil
  | keep _ ih => exact .keep (ih (List.cons_subset_cons _ hsub))
  | repeated hid _ ih => exact .repeated (hsub hid) (ih hsub)

theorem append (h : Pads seen ids padded) (h' : Pads (seen ++ ids) ids' padded') :
    Pads seen (ids ++ ids') (padded ++ padded') := by
  induction h with
  | nil => exact h'.mono (by simp)
  | keep _ ih => exact .keep (ih (h'.mono (by simp)))
  | repeated hid _ ih => exact .repeated hid (ih h')

theorem of_subset (h : padded ⊆ seen) : Pads seen [] padded := by
  induction padded with
  | nil => exact .nil
  | cons id padded ih =>
    obtain ⟨hid, hpadded⟩ := List.cons_subset.mp h
    exact .repeated hid (ih hpadded)

end Pads

variable {rules : Array Rule} {id : RuleId} {r : Rule} {opened ids out out' opened' path seen patterns : List RuleId}

theorem ne_container (hr : rules[id]? = some r) (hplain : r.isContainer = false) :
    rules[id]? ≠ some (.container patterns) := by
  intro heq
  cases hr.symm.trans heq
  cases hplain

structure Met (rules : Array Rule) (opened seen : List RuleId) (id : RuleId) : Prop where
  rule : ∀ r, rules[id]? = some r → r.isContainer = false → id ∈ seen
  container : ∀ patterns, rules[id]? = some (.container patterns) → id ∈ opened

theorem Met.mono {seen' : List RuleId} (h : Met rules opened seen id) (hopened : opened ⊆ opened')
    (hseen : seen ⊆ seen') : Met rules opened' seen' id :=
  ⟨fun r hr hplain => hseen (h.rule r hr hplain), fun patterns hr => hopened (h.container patterns hr)⟩

/-- All of an opened container has been met, unless the container is still open. -/
def Closed (rules : Array Rule) (opened path seen : List RuleId) : Prop :=
  ∀ id ∈ opened, id ∉ path → ∀ patterns, rules[id]? = some (.container patterns) →
    ∀ x ∈ patterns, Met rules opened seen x

theorem Closed.mono {seen' : List RuleId} (h : Closed rules opened path seen) (hseen : seen ⊆ seen') :
    Closed rules opened path seen' :=
  fun id hid hpath patterns hr x hx => (h id hid hpath patterns hr x hx).mono (List.Subset.refl _) hseen

theorem Closed.enter (h : Closed rules opened path seen) (id : RuleId) :
    Closed rules (id :: opened) (id :: path) seen := by
  intro k hk hpath ps hps x hx
  have hmem := (List.mem_cons.mp hk).resolve_left (List.ne_of_not_mem_cons hpath)
  exact (h k hmem (List.not_mem_of_not_mem_cons hpath) ps hps x hx).mono (List.subset_cons_self _ _)
    (List.Subset.refl _)

theorem Closed.leave (h : Closed rules opened (id :: path) seen) (hr : rules[id]? = some (.container patterns))
    (hpatterns : ∀ x ∈ patterns, Met rules opened seen x) : Closed rules opened path seen := by
  intro k hk hpath ps hps
  by_cases hkid : k = id
  · subst hkid
    cases hr.symm.trans hps
    exact hpatterns
  · exact h k hk (List.not_mem_cons_of_ne_of_not_mem hkid hpath) ps hps

theorem Expands.subset_seen {inside : List RuleId} (h : Expands rules inside ids out)
    (hclosed : Closed rules opened path seen) (hpath : path ⊆ inside) (hids : ∀ x ∈ ids, Met rules opened seen x) :
    out ⊆ seen := by
  induction h with
  | done => exact List.nil_subset _
  | rule hr hplain _ ih =>
    obtain ⟨hid, hids⟩ := List.forall_mem_cons.mp hids
    exact List.cons_subset.mpr ⟨hid.rule _ hr hplain, ih hpath hids⟩
  | cut _ _ _ ih => exact ih hpath (List.forall_mem_cons.mp hids).2
  | opened hr hnew _ _ ihinner ih =>
    obtain ⟨hid, hids⟩ := List.forall_mem_cons.mp hids
    have hpatterns := hclosed _ (hid.container _ hr) (fun hmem => hnew (hpath hmem)) _ hr
    exact List.append_subset.mpr ⟨ihinner (List.subset_cons_of_subset _ hpath) hpatterns, ih hpath hids⟩

section Sizes

def Refers (rules : Array Rule) : Prop :=
  ∀ (id : RuleId) (r : Rule), rules[id]? = some r → ∀ x ∈ r.patterns, x < rules.size

structure Distinct (rules : Array Rule) (ids : List RuleId) : Prop where
  nodup : ids.Nodup
  lt : ∀ x ∈ ids, x < rules.size

def itemCount (rules : Array Rule) (opened : List RuleId) : Nat :=
  (opened.map fun id => ((rules[id]?.map Rule.patterns).getD []).length).sum

theorem Distinct.nil : Distinct rules [] := ⟨List.nodup_nil, nofun⟩

theorem Distinct.cons (h : Distinct rules opened) (hr : rules[id]? = some r) (hnew : id ∉ opened) :
    Distinct rules (id :: opened) where
  nodup := List.nodup_cons.mpr ⟨hnew, h.nodup⟩
  lt := List.forall_mem_cons.mpr ⟨(Array.getElem?_eq_some_iff.mp hr).1, h.lt⟩

theorem Distinct.subperm (h : Distinct rules opened) : opened.Subperm (List.range rules.size) :=
  h.nodup.subperm fun x hx => List.mem_range.mpr (h.lt x hx)

theorem Distinct.length_le (h : Distinct rules opened) : opened.length ≤ rules.size := by
  have hle := h.subperm.length_le
  rwa [List.length_range] at hle

theorem itemCount_cons (hr : rules[id]? = some (.container patterns)) (opened : List RuleId) :
    itemCount rules (id :: opened) = patterns.length + itemCount rules opened := by
  rw [itemCount, List.map_cons, List.sum_cons, hr]
  rfl

theorem foldl_patterns (rules : Array Rule) :
    rules.foldl (fun n r => n + r.patterns.length) 0 = itemCount rules (List.range rules.size) := by
  have hlengths : rules.toList.map (·.patterns.length) =
      (List.range rules.size).map fun id => ((rules[id]?.map Rule.patterns).getD []).length := by
    refine List.ext_getElem (by simp) fun i hi _ => ?_
    have hi : i < rules.size := by simpa using hi
    simp [hi]
  rw [itemCount, ← hlengths, ← Array.foldl_toList, ← List.foldl_map, List.sum_eq_foldl]

theorem itemCount_le (h : Distinct rules opened) :
    itemCount rules opened ≤ rules.foldl (fun n r => n + r.patterns.length) 0 := by
  obtain ⟨ids, hperm, hsub⟩ := h.subperm
  rw [foldl_patterns, itemCount, ← (hperm.map _).sum_eq]
  exact (hsub.map _).sum_le_sum fun _ _ => Nat.zero_le _

theorem length_patterns_le (hr : rules[id]? = some r) :
    r.patterns.length ≤ rules.foldl (fun n r => n + r.patterns.length) 0 := by
  have hle := itemCount_le (Distinct.nil.cons hr List.not_mem_nil)
  rw [itemCount, List.map_singleton, List.sum_singleton, hr] at hle
  exact hle

end Sizes

namespace Flattens

theorem length_le (h : Flattens rules opened ids out opened') : opened.length ≤ opened'.length := by
  induction h with
  | done => exact le_rfl
  | rule _ _ _ ih => exact ih
  | again _ _ _ ih => exact ih
  | first _ _ _ _ ihinner ih => exact (Nat.le_succ _).trans (ihinner.trans ih)

theorem opened_subset (h : Flattens rules opened ids out opened') : opened ⊆ opened' := by
  induction h with
  | done => exact List.Subset.refl _
  | rule _ _ _ ih => exact ih
  | again _ _ _ ih => exact ih
  | first _ _ _ _ ihinner ih => exact List.Subset.trans (List.subset_of_cons_subset ihinner) ih

theorem meets (h : Flattens rules opened ids out opened') (hclosed : Closed rules opened path seen) :
    (∀ x ∈ ids, Met rules opened' (seen ++ out) x) ∧ Closed rules opened' path (seen ++ out) := by
  induction h generalizing path seen with
  | done => exact ⟨nofun, hclosed.mono (List.subset_append_left _ _)⟩
  | @rule id r opened ids out opened' hr hplain h ih =>
    obtain ⟨hids, hclosed⟩ := ih hclosed
    have hsub : seen ++ out ⊆ seen ++ id :: out := by simp
    refine ⟨List.forall_mem_cons.mpr ⟨⟨fun _ _ _ => by simp, fun _ heq => ?_⟩, ?_⟩, hclosed.mono hsub⟩
    · exact absurd heq (ne_container hr hplain)
    · exact fun x hx => (hids x hx).mono (List.Subset.refl _) hsub
  | again hr hid h ih =>
    obtain ⟨hids, hclosed⟩ := ih hclosed
    refine ⟨List.forall_mem_cons.mpr ⟨⟨fun _ heq hplain => ?_, fun _ _ => h.opened_subset hid⟩, hids⟩, hclosed⟩
    exact absurd hr (ne_container heq hplain)
  | @first id patterns opened opened₁ ids inner out opened' hr hnew hinner h ihinner ih =>
    obtain ⟨hpatterns, hclosed₁⟩ := ihinner (hclosed.enter id)
    obtain ⟨hids, hclosed'⟩ := ih (hclosed₁.leave hr hpatterns)
    rw [List.append_assoc] at hids hclosed'
    refine ⟨List.forall_mem_cons.mpr ⟨⟨fun _ heq hplain => ?_, fun _ _ => ?_⟩, hids⟩, hclosed'⟩
    · exact absurd hr (ne_container heq hplain)
    · exact h.opened_subset (hinner.opened_subset List.mem_cons_self)

/-- Opening containers again only repeats what has been listed. -/
theorem pads (h : Flattens rules opened ids out opened') (hclosed : Closed rules opened path seen)
    (hpath : path ⊆ opened) (h' : Expands rules path ids out') : Pads seen out out' := by
  induction h generalizing path seen out' with
  | done =>
    cases h'
    exact .nil
  | @rule id r opened ids out opened' hr hplain h ih =>
    cases h' with
    | rule _ _ h' => exact .keep (ih (hclosed.mono (List.subset_cons_self _ _)) hpath h')
    | cut hr' | opened hr' => exact absurd hr' (ne_container hr hplain)
  | @again id patterns opened ids out opened' hr hid h ih =>
    cases h' with
    | rule hr' hplain => exact absurd hr (ne_container hr' hplain)
    | cut _ _ h' => exact ih hclosed hpath h'
    | opened hr' hnew hinner' h' =>
      -- the container is closed, so that all of it has been listed
      cases hr.symm.trans hr'
      have hseen := hinner'.subset_seen hclosed (List.subset_cons_self _ _) (hclosed id hid hnew patterns hr)
      exact (Pads.of_subset hseen).append (by rw [List.append_nil]; exact ih hclosed hpath h')
  | @first id patterns opened opened₁ ids inner out opened' hr hnew hinner h ihinner ih =>
    cases h' with
    | rule hr' hplain => exact absurd hr (ne_container hr' hplain)
    | cut _ hid => exact absurd (hpath hid) hnew
    | opened hr' _ hinner' h' =>
      cases hr.symm.trans hr'
      obtain ⟨hpatterns, hclosed₁⟩ := hinner.meets (hclosed.enter id)
      refine (ihinner (hclosed.enter id) (List.cons_subset_cons _ hpath) hinner').append ?_
      have hpath₁ : path ⊆ opened₁ :=
        List.Subset.trans hpath (List.Subset.trans (List.subset_cons_self _ _) hinner.opened_subset)
      exact ih (hclosed₁.leave hr hpatterns) hpath₁ h'

theorem mem_iff (h : Flattens rules [] ids out opened') {x : RuleId} : x ∈ out ↔ Offers rules ids x := by
  constructor
  · intro hx
    generalize [] = opened at h
    induction h with
    | done => cases hx
    | rule hr hplain _ ih =>
      rcases List.mem_cons.mp hx with rfl | hx
      · exact .rule List.mem_cons_self hr hplain
      · exact (ih hx).mono (List.subset_cons_self _ _)
    | again _ _ _ ih => exact (ih hx).mono (List.subset_cons_self _ _)
    | first hr _ _ _ ihinner ih =>
      rcases List.mem_append.mp hx with hx | hx
      · exact .inside List.mem_cons_self hr (ihinner hx)
      · exact (ih hx).mono (List.subset_cons_self _ _)
  · intro hx
    have hnone : Closed rules [] [] [] := nofun
    obtain ⟨hids, hclosed⟩ := h.meets hnone
    clear h
    induction hx with
    | rule hid hr hplain => exact (hids _ hid).rule _ hr hplain
    | inside hid hr _ ih =>
      exact ih (hclosed _ ((hids _ hid).container _ hr) List.not_mem_nil _ hr)

theorem distinct (h : Flattens rules opened ids out opened') (hopened : Distinct rules opened) :
    Distinct rules opened' := by
  induction h with
  | done => exact hopened
  | rule _ _ _ ih => exact ih hopened
  | again _ _ _ ih => exact ih hopened
  | first hr hnew _ _ ihinner ih => exact ih (ihinner (hopened.cons hr hnew))

/-- With each container that is opened there are fewer left. -/
theorem exists_of_room {room : Nat} (hrefs : Refers rules) (hroom : rules.size ≤ opened.length + room)
    (hopened : Distinct rules opened) (hids : ∀ x ∈ ids, x < rules.size) :
    ∃ out opened', Flattens rules opened ids out opened' := by
  induction room using Nat.strong_induction_on generalizing opened ids with
  | _ room ihroom =>
    induction ids with
    | nil => exact ⟨[], opened, .done⟩
    | cons id ids ih =>
      obtain ⟨hid, hids⟩ := List.forall_mem_cons.mp hids
      have hr := Array.getElem?_eq_getElem hid
      cases hrule : rules[id] with
      | single | beginEnd | beginWhile =>
        obtain ⟨out, opened', h⟩ := ih hids
        exact ⟨id :: out, opened', .rule hr (by rw [hrule]; rfl) h⟩
      | container patterns =>
        rw [hrule] at hr
        by_cases hmem : id ∈ opened
        · obtain ⟨out, opened', h⟩ := ih hids
          exact ⟨out, opened', .again hr hmem h⟩
        · have hcons := hopened.cons hr hmem
          have hfree := hcons.length_le
          rw [List.length_cons] at hfree
          obtain ⟨inner, opened₁, hinner⟩ := ihroom (room - 1) (by omega) (by rw [List.length_cons]; omega) hcons
            (hrefs id _ hr)
          have hlength := hinner.length_le
          rw [List.length_cons] at hlength
          obtain ⟨out, opened', h⟩ := ihroom (room - 1) (by omega) (by omega) (hinner.distinct hcons) hids
          exact ⟨inner ++ out, opened', .first hr hmem hinner h⟩

/-- Looking at one rule after the other lists the same. -/
theorem flatten_eq (h : Flattens rules opened ids out opened') :
    ∃ looks, itemCount rules opened + looks ≤ ids.length + itemCount rules opened' ∧
      ∀ k rest, flatten rules (k + looks) (ids ++ rest) opened = out ++ flatten rules k rest opened' := by
  induction h with
  | done => exact ⟨0, by simp, fun k rest => rfl⟩
  | @rule id r opened ids out opened' hr hplain _ ih =>
    obtain ⟨looks, hle, heq⟩ := ih
    refine ⟨looks + 1, by rw [List.length_cons]; omega, fun k rest => ?_⟩
    rw [← Nat.add_assoc, List.cons_append, flatten, hr]
    cases r with
    | container => cases hplain
    | single | beginEnd | beginWhile => exact congrArg (id :: ·) (heq k rest)
  | @again id patterns opened ids out opened' hr hid _ ih =>
    obtain ⟨looks, hle, heq⟩ := ih
    refine ⟨looks + 1, by rw [List.length_cons]; omega, fun k rest => ?_⟩
    rw [← Nat.add_assoc, List.cons_append, flatten, hr]
    simp only [List.contains_iff_mem, if_pos hid, heq]
  | @first id patterns opened opened₁ ids inner out opened' hr hnew _ _ ihinner ih =>
    obtain ⟨below, hble, hbeq⟩ := ihinner
    obtain ⟨looks, hle, heq⟩ := ih
    rw [itemCount_cons hr] at hble
    refine ⟨looks + below + 1, by rw [List.length_cons]; omega, fun k rest => ?_⟩
    rw [← Nat.add_assoc, ← Nat.add_assoc, List.cons_append, flatten, hr]
    simp only [List.contains_iff_mem, if_neg hnew, hbeq, heq, List.append_assoc]

theorem eq_candidates (hr : rules[id]? = some r) (h : Flattens rules [] r.patterns out opened') :
    out = candidates rules id := by
  obtain ⟨looks, hle, heq⟩ := h.flatten_eq
  have hsize := itemCount_le (h.distinct .nil)
  have hpatterns := length_patterns_le hr
  have hlooks : looks ≤ flattenLimit rules := by
    rw [flattenLimit]
    omega
  obtain ⟨k, hk⟩ := Nat.exists_eq_add_of_le' hlooks
  have hdone : flatten rules k [] opened' = [] := by cases k <;> rfl
  have hflatten := heq k []
  rw [hdone, ← hk, List.append_nil, List.append_nil] at hflatten
  rw [candidates, hr]
  exact hflatten.symm

end Flattens

theorem flatten_plain {n : Nat} :
    ∀ x ∈ flatten rules n ids opened, ∃ r, rules[x]? = some r ∧ r.isContainer = false := by
  fun_induction flatten rules n ids opened with
  | case1 => exact nofun
  | case2 => exact nofun
  | case3 n id pending opened patterns hr hopened ih => exact ih
  | case4 n id pending opened patterns hr hopened ih => exact ih
  | case5 n id pending opened r hother hr ih =>
    refine List.forall_mem_cons.mpr ⟨⟨r, hr, ?_⟩, ih⟩
    cases r with
    | container patterns => exact absurd rfl (hother patterns)
    | single | beginEnd | beginWhile => rfl
  | case6 n id pending opened hr ih => exact ih

theorem candidates_plain : ∀ x ∈ candidates rules id, ∃ r, rules[x]? = some r ∧ r.isContainer = false := flatten_plain

theorem Expands.exists_of_room {room : Nat} (hrefs : Refers rules) (hroom : rules.size ≤ path.length + room)
    (hpath : Distinct rules path) (hids : ∀ x ∈ ids, x < rules.size) : ∃ out, Expands rules path ids out := by
  induction room using Nat.strong_induction_on generalizing path ids with
  | _ room ihroom =>
    induction ids with
    | nil => exact ⟨[], .done⟩
    | cons id ids ih =>
      obtain ⟨hid, hids⟩ := List.forall_mem_cons.mp hids
      obtain ⟨out, h⟩ := ih hids
      have hr := Array.getElem?_eq_getElem hid
      cases hrule : rules[id] with
      | single | beginEnd | beginWhile => exact ⟨id :: out, .rule hr (by rw [hrule]; rfl) h⟩
      | container patterns =>
        rw [hrule] at hr
        by_cases hmem : id ∈ path
        · exact ⟨out, .cut hr hmem h⟩
        · have hcons := hpath.cons hr hmem
          have hfree := hcons.length_le
          rw [List.length_cons] at hfree
          obtain ⟨inner, hinner⟩ := ihroom (room - 1) (by omega) (by rw [List.length_cons]; omega) hcons
            (hrefs id _ hr)
          exact ⟨inner ++ out, .opened hr hmem hinner h⟩

end GrammarScopes
