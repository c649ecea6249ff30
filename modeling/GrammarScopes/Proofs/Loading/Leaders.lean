import GrammarScopes.Loading.Task
import GrammarScopes.Proofs.Loading.Slots

/-!
The tasks that lead attempts: a poll makes a leader only where it finds an empty slot, and only the
leader of a key changes a slot that is not empty, whatever the tasks load.
-/

namespace GrammarScopes

variable {σ κ ι α : Type}

/-- Loads leave alone the cache that their values are for. -/
structure Loader.Lawful (l : Loader σ κ ι α) : Prop where
  get_set : ∀ cache s, l.get (l.set cache s) = cache
  get_run : ∀ load s, l.get (l.run load s).1 = l.get s
  get_drop : ∀ load s, l.get (l.drop load s) = l.get s

def Task.led? : Task κ ι → Option (κ × AttemptId)
  | leading key a _ => some (key, a)
  | asked .. | waiting .. => none

def Poll.led? : Poll (Task κ ι) α → Option (κ × AttemptId)
  | pending t => t.led?
  | done _ => none

namespace Task

variable [BEq κ]

/-- The key whose slot a task finds empty when it is first polled. -/
def opens? (c : LoadCache κ α) : Task κ ι → Option κ
  | asked key _ => if (c.slot? key).isNone then some key else none
  | leading .. | waiting .. => none

variable {l : Loader σ κ ι α} {t : Task κ ι} {s : σ} {key k : κ} {a b : AttemptId} {load : ι}
  {others : List (κ × AttemptId)}

omit [BEq κ] in
theorem led?_await : (await l key a s).led? = none := by
  unfold await
  split <;> rfl

theorem poll_asked_of_empty (h : (l.get s).slot? key = none) :
    (asked key load).poll l s =
      lead l key (l.get s).attempts.length load (l.set ((l.get s).begin key).1 s) := by
  simp only [poll, h]
  rfl

theorem poll_asked_of_slot {slot : Slot α} (load : ι) (h : (l.get s).slot? key = some slot) :
    ((asked key load).poll l s).1 = s ∧ ((asked key load).poll l s).2.led? = none := by
  cases slot with
  | ready value => simp only [poll, h]; exact ⟨trivial, rfl⟩
  | loading a => simp only [poll, h]; exact ⟨trivial, led?_await⟩

theorem opens?_asked_of_empty {c : LoadCache κ α} (h : c.slot? key = none) :
    (asked key load).opens? c = some key := by
  simp [opens?, h]

theorem slot?_of_opens? {c : LoadCache κ α} (h : t.opens? c = some k) : c.slot? k = none := by
  cases t with
  | asked key load =>
    by_cases hs : (c.slot? key).isNone
    · rw [opens?, if_pos hs] at h
      cases h
      exact Option.isNone_iff_eq_none.mp hs
    · rw [opens?, if_neg hs] at h
      cases h
  | leading key a load => cases h
  | waiting key a => cases h

theorem led?_lead (h : (lead l key a load s).2.led? = some (k, b)) : (k, b) = (key, a) := by
  unfold lead at h
  split at h
  next => exact (Option.some.inj h).symm
  next => cases h

theorem led?_poll (h : (t.poll l s).2.led? = some (k, a)) :
    t.led? = some (k, a) ∨ t.opens? (l.get s) = some k ∧ a = (l.get s).attempts.length := by
  cases t with
  | asked key load =>
    cases hs : (l.get s).slot? key with
    | none =>
      rw [poll_asked_of_empty hs] at h
      cases led?_lead h
      exact .inr ⟨opens?_asked_of_empty hs, rfl⟩
    | some slot =>
      rw [(poll_asked_of_slot load hs).2] at h
      cases h
  | leading key b load =>
    cases led?_lead h
    exact .inl rfl
  | waiting key b =>
    rw [poll, led?_await] at h
    cases h

theorem lead_cases (hl : l.Lawful) (key : κ) (a : AttemptId) (load : ι) (s : σ) :
    (∃ load', (lead l key a load s).2 = .pending (leading key a load') ∧
      l.get (lead l key a load s).1 = l.get s) ∨
    ∃ result, (lead l key a load s).2 = .done result ∧
      l.get (lead l key a load s).1 = (l.get s).settle key a result := by
  have hget := hl.get_run load s
  unfold lead
  split
  next s' load' hrun =>
    rw [hrun] at hget
    exact .inl ⟨load', rfl, hget⟩
  next s' result hrun =>
    rw [hrun] at hget
    refine .inr ⟨result, rfl, ?_⟩
    rw [hl.get_set, hget]

theorem length_attempts_drop (hl : l.Lawful) (t : Task κ ι) (s : σ) :
    (l.get (t.drop l s)).attempts.length = (l.get s).attempts.length := by
  cases t with
  | asked key load => rfl
  | leading key a load => rw [drop, hl.get_set, hl.get_drop, LoadCache.length_attempts_abandon]
  | waiting key a => rfl

variable [LawfulBEq κ]

theorem lead_ledBy (hl : l.Lawful) (h : (l.get s).LedBy ((key, a) :: others)) :
    (l.get (lead l key a load s).1).LedBy ((lead l key a load s).2.led?.toList ++ others) := by
  rcases lead_cases hl key a load s with ⟨load', hp, hget⟩ | ⟨result, hp, hget⟩
  · rw [hp, hget]
    exact h
  · rw [hp, hget]
    exact h.settle result

theorem poll_ledBy (hl : l.Lawful) (h : (l.get s).LedBy (t.led?.toList ++ others)) :
    (l.get (t.poll l s).1).LedBy ((t.poll l s).2.led?.toList ++ others) := by
  cases t with
  | asked key load =>
    cases hs : (l.get s).slot? key with
    | none =>
      rw [poll_asked_of_empty hs]
      refine lead_ledBy hl ?_
      rw [hl.get_set]
      exact LoadCache.LedBy.begin h hs
    | some slot =>
      obtain ⟨hstate, hled⟩ := poll_asked_of_slot load hs
      rw [hstate, hled]
      exact h
  | leading key a load => exact lead_ledBy hl h
  | waiting key a =>
    rw [poll, led?_await]
    exact h

theorem drop_ledBy (hl : l.Lawful) (h : (l.get s).LedBy (t.led?.toList ++ others)) :
    (l.get (t.drop l s)).LedBy others := by
  cases t with
  | asked key load => exact h
  | leading key a load =>
    rw [drop, hl.get_set, hl.get_drop]
    exact LoadCache.LedBy.abandon h
  | waiting key a => exact h

theorem slot?_lead (hl : l.Lawful) (hk : k ≠ key) :
    (l.get (lead l key a load s).1).slot? k = (l.get s).slot? k := by
  rcases lead_cases hl key a load s with ⟨load', -, hget⟩ | ⟨result, -, hget⟩
  · rw [hget]
  · rw [hget, LoadCache.slot?_settle, if_neg (by simpa using hk)]

/-- A poll changes the slot of no key but one that it finds empty or one that the task leads. -/
theorem slot?_poll (hl : l.Lawful) (t : Task κ ι) (s : σ) (k : κ) :
    (l.get (t.poll l s).1).slot? k = (l.get s).slot? k ∨ t.opens? (l.get s) = some k ∨
      ∃ a, t.led? = some (k, a) := by
  cases t with
  | asked key load =>
    cases hs : (l.get s).slot? key with
    | none =>
      rw [poll_asked_of_empty hs, opens?_asked_of_empty hs]
      by_cases hk : k = key
      · exact .inr (.inl (congrArg some hk.symm))
      · rw [slot?_lead hl hk, hl.get_set, LoadCache.slot?_begin, if_neg (by simpa using hk)]
        exact .inl rfl
    | some slot =>
      rw [(poll_asked_of_slot load hs).1]
      exact .inl rfl
  | leading key a load =>
    by_cases hk : k = key
    · subst hk
      exact .inr (.inr ⟨a, rfl⟩)
    · exact .inl (slot?_lead hl hk)
  | waiting key a => exact .inl rfl

theorem slot?_drop (hl : l.Lawful) (t : Task κ ι) (s : σ) (k : κ) :
    (l.get (t.drop l s)).slot? k = (l.get s).slot? k ∨
      (l.get (t.drop l s)).slot? k = none ∧ ∃ a, t.led? = some (k, a) := by
  cases t with
  | asked key load => exact .inl rfl
  | leading key a load =>
    rw [drop, hl.get_set, hl.get_drop, LoadCache.slot?_abandon]
    by_cases hk : k = key
    · subst hk
      exact .inr ⟨if_pos (beq_self_eq_true k), a, rfl⟩
    · exact .inl (if_neg (by simpa using hk))
  | waiting key a => exact .inl rfl

end Task

end GrammarScopes
