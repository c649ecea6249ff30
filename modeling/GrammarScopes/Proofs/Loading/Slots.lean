import GrammarScopes.Loading.Cache
import GrammarScopes.Proofs.Entries
import Mathlib.Data.List.Nodup

/-!
What the operations of a cache do to its slots and to the attempts, and which attempts are led: every
key that is being loaded has one leader, and no attempt has two.
-/

namespace GrammarScopes.LoadCache

variable {κ α : Type} [BEq κ]

section Operations

variable (c : LoadCache κ α) (key k : κ) (a b : AttemptId)

theorem status?_begin :
    (c.begin key).1.status? b =
      if b = c.attempts.length then some .running else c.status? b := by
  change (c.attempts ++ [AttemptStatus.running])[b]? = _
  by_cases hb : b = c.attempts.length
  · rw [hb, List.getElem?_concat_length, if_pos rfl]
  · rw [if_neg hb, List.getElem?_append]
    split
    next => rfl
    next hge =>
      have hlt : c.attempts.length < b := Nat.lt_of_le_of_ne (Nat.le_of_not_lt hge) (Ne.symm hb)
      have hnone : c.status? b = none := List.getElem?_eq_none (Nat.le_of_lt hlt)
      rw [hnone]
      exact List.getElem?_eq_none (Nat.sub_pos_of_lt hlt)

theorem status?_settle {result : Except ScopeError α} (h : b ≠ a) :
    (c.settle key a result).status? b = c.status? b := by
  cases result <;> exact List.getElem?_set_ne (Ne.symm h)

theorem status?_abandon (h : b ≠ a) : (c.abandon key a).status? b = c.status? b :=
  List.getElem?_set_ne (Ne.symm h)

@[simp] theorem length_attempts_abandon :
    (c.abandon key a).attempts.length = c.attempts.length :=
  List.length_set

variable [LawfulBEq κ]

theorem slot?_erase : (c.erase key).slot? k = if k == key then none else c.slot? k :=
  Entries.lookup_filter_ne key k c.slots

theorem slot?_put (slot : Slot α) :
    (c.put key slot).slot? k = if k == key then some slot else c.slot? k := by
  rw [slot?, put, List.lookup_cons]
  by_cases hk : k == key
  · simp [hk]
  · have h := c.slot?_erase key k
    simp only [hk, Bool.false_eq_true, ↓reduceIte] at h ⊢
    exact h

theorem slot?_begin :
    (c.begin key).1.slot? k = if k == key then some (.loading c.attempts.length) else c.slot? k :=
  c.slot?_put key k _

def resultSlot : Except ScopeError α → Option (Slot α)
  | .ok value => some (.ready value)
  | .error _ => none

theorem slot?_settle (result : Except ScopeError α) :
    (c.settle key a result).slot? k = if k == key then resultSlot result else c.slot? k := by
  cases result with
  | ok value => exact c.slot?_put key k _
  | error e => exact c.slot?_erase key k

theorem slot?_abandon :
    (c.abandon key a).slot? k = if k == key then none else c.slot? k :=
  c.slot?_erase key k

end Operations

/-- The tasks that make attempts, by key and attempt: these are the attempts that run, and the keys that
are being loaded. -/
structure LedBy (c : LoadCache κ α) (leaders : List (κ × AttemptId)) : Prop where
  nodup : (leaders.map (·.2)).Nodup
  loading_iff : ∀ key a, c.slot? key = some (.loading a) ↔ (key, a) ∈ leaders
  running_iff : ∀ a, c.status? a = some .running ↔ a ∈ leaders.map (·.2)

variable {c c' : LoadCache κ α} {leaders leaders' : List (κ × AttemptId)} {key : κ} {a : AttemptId}

theorem LedBy.perm (h : c.LedBy leaders) (hp : leaders.Perm leaders') : c.LedBy leaders' where
  nodup := (hp.map _).nodup_iff.mp h.nodup
  loading_iff key a := (h.loading_iff key a).trans hp.mem_iff
  running_iff a := (h.running_iff a).trans (hp.map _).mem_iff

theorem ledBy_empty : ({} : LoadCache κ α).LedBy [] where
  nodup := List.nodup_nil
  loading_iff key a := by simp [slot?]
  running_iff a := by simp [status?]

theorem LedBy.attempt_lt (h : c.LedBy leaders) (hmem : (key, a) ∈ leaders) :
    a < c.attempts.length := by
  have hrun := (h.running_iff a).mpr (List.mem_map_of_mem hmem)
  exact (List.getElem?_eq_some_iff.mp hrun).1

theorem LedBy.finish (h : c.LedBy ((key, a) :: leaders))
    (hslot : ∀ k, k ≠ key → c'.slot? k = c.slot? k) (hkey : ∀ b, c'.slot? key ≠ some (.loading b))
    (hstatus : ∀ b, b ≠ a → c'.status? b = c.status? b) (ha : c'.status? a ≠ some .running) :
    c'.LedBy leaders := by
  obtain ⟨hfresh, hnodup⟩ := List.nodup_cons.mp h.nodup
  refine ⟨hnodup, fun k b => ?_, fun b => ?_⟩
  · by_cases hk : k = key
    · subst hk
      -- another leader of the key would lead this very attempt
      refine ⟨fun hb => absurd hb (hkey b), fun hmem => ?_⟩
      have hold := (h.loading_iff k b).mpr (List.mem_cons_of_mem _ hmem)
      have hown := (h.loading_iff k a).mpr List.mem_cons_self
      rw [hown] at hold
      cases hold
      exact absurd (List.mem_map_of_mem hmem) hfresh
    · rw [hslot k hk, h.loading_iff]
      simp [hk]
  · by_cases hb : b = a
    · subst hb
      exact ⟨fun hr => absurd hr ha, fun hmem => absurd hmem hfresh⟩
    · rw [hstatus b hb, h.running_iff]
      simp [hb]

variable [LawfulBEq κ]

theorem LedBy.begin (h : c.LedBy leaders) (hkey : c.slot? key = none) :
    (c.begin key).1.LedBy ((key, c.attempts.length) :: leaders) := by
  have hfresh : c.attempts.length ∉ leaders.map (·.2) := by
    intro hmem
    obtain ⟨⟨k, b⟩, hled, rfl⟩ := List.mem_map.mp hmem
    exact Nat.lt_irrefl _ (h.attempt_lt hled)
  refine ⟨List.nodup_cons.mpr ⟨hfresh, h.nodup⟩, fun k b => ?_, fun b => ?_⟩
  · rw [slot?_begin, List.mem_cons, Prod.mk.injEq, ← h.loading_iff]
    by_cases hk : k == key
    · obtain rfl := eq_of_beq hk
      simp [hkey, eq_comm]
    · have hne : k ≠ key := fun he => hk (he ▸ beq_self_eq_true k)
      simp [hk, hne]
  · rw [status?_begin, List.map_cons, List.mem_cons, ← h.running_iff]
    by_cases hb : b = c.attempts.length <;> simp [hb]

theorem LedBy.settle (h : c.LedBy ((key, a) :: leaders)) (result : Except ScopeError α) :
    (c.settle key a result).LedBy leaders := by
  have ha := h.attempt_lt List.mem_cons_self
  refine h.finish (fun k hk => ?_) (fun b => ?_) (fun b hb => c.status?_settle key a b hb) ?_
  · rw [slot?_settle, if_neg (by simpa using hk)]
  · rw [slot?_settle, if_pos (beq_self_eq_true key)]
    cases result <;> simp [resultSlot]
  · cases result <;> simp [LoadCache.settle, status?, ha]

theorem LedBy.abandon (h : c.LedBy ((key, a) :: leaders)) : (c.abandon key a).LedBy leaders := by
  have ha := h.attempt_lt List.mem_cons_self
  refine h.finish (fun k hk => ?_) (fun b => ?_) (fun b hb => c.status?_abandon key a b hb) ?_
  · rw [slot?_abandon, if_neg (by simpa using hk)]
  · rw [slot?_abandon, if_pos (beq_self_eq_true key)]
    simp
  · simp [LoadCache.abandon, status?, ha]

theorem LedBy.countP_eq (h : c.LedBy leaders) (key : κ) :
    leaders.countP (·.1 == key) = if c.isLoading key then 1 else 0 := by
  unfold isLoading
  split
  next a ha =>
    have hmem := (h.loading_iff key a).mp ha
    -- whoever leads the key leads the attempt in its slot, and that is one task
    have hone : ∀ l ∈ leaders, (l.1 == key) = true ↔ (l == (key, a)) = true := by
      rintro ⟨k, b⟩ hl
      constructor
      · intro hk
        obtain rfl := eq_of_beq hk
        have hb := (h.loading_iff k b).mpr hl
        rw [ha] at hb
        cases hb
        exact beq_self_eq_true _
      · intro hk
        cases eq_of_beq hk
        exact beq_self_eq_true _
    rw [List.countP_congr hone, if_pos rfl]
    exact List.count_eq_one_of_mem (h.nodup.of_map _) hmem
  next hnot =>
    rw [if_neg (by simp), List.countP_eq_zero]
    rintro ⟨k, b⟩ hl hk
    obtain rfl := eq_of_beq hk
    exact hnot b ((h.loading_iff k b).mpr hl)

end GrammarScopes.LoadCache
