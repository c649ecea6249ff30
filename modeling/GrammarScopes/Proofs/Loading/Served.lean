import GrammarScopes.Proofs.Loading.Leaders
import GrammarScopes.Proofs.Loading.Notes

/-!
Tasks and the notes of their cache: polling or dropping a task adds the notes that tell of it, and who
waits for an attempt is told what is noted of it.
-/

namespace GrammarScopes

variable {σ κ ι α : Type}

def Poll.task? {τ : Type} : Poll τ α → Option τ
  | pending t => some t
  | done _ => none

namespace Task

def key : Task κ ι → κ
  | asked key _ | leading key _ _ | waiting key _ => key

def endNotes (key : κ) (a : AttemptId) : Poll (Task κ ι) α → List (Note κ α)
  | .pending _ => []
  | .done result => [.finished key a result]

def pollNotes [BEq κ] (l : Loader σ κ ι α) (t : Task κ ι) (s : σ) : List (Note κ α) :=
  match t with
  | asked key _ =>
    if ((l.get s).slot? key).isNone then
      endNotes key (l.get s).attempts.length (t.poll l s).2 ++
        [.began key (l.get s).attempts.length]
    else []
  | leading key a _ => endNotes key a (t.poll l s).2
  | waiting .. => []

def dropNotes : Task κ ι → List (Note κ α)
  | leading key a _ => [.dropped key a]
  | asked .. | waiting .. => []

theorem dropped_of_mem_dropNotes {t : Task κ ι} {n : Note κ α} (h : n ∈ t.dropNotes) :
    ∃ key a, n = .dropped key a := by
  cases t with
  | asked => cases h
  | leading key a load => exact ⟨key, a, List.mem_singleton.mp h⟩
  | waiting => cases h

variable [BEq κ] {l : Loader σ κ ι α} {t t' : Task κ ι} {s : σ} {key k : κ} {a b : AttemptId} {load : ι}
  {notes : List (Note κ α)} {n : Note κ α} {value : α} {result : Except ScopeError α}

theorem pollNotes_of_empty (load : ι) (h : (l.get s).slot? key = none) :
    (asked key load).pollNotes l s =
      endNotes key (l.get s).attempts.length ((asked key load).poll l s).2 ++
        [.began key (l.get s).attempts.length] := by
  rw [pollNotes, h]
  exact if_pos rfl

theorem pollNotes_of_slot {slot : Slot α} (load : ι) (h : (l.get s).slot? key = some slot) :
    (asked key load).pollNotes l s = [] := by
  rw [pollNotes, h, if_neg (by simp)]

theorem poll_asked_of_ready (load : ι) (h : (l.get s).slot? key = some (.ready value)) :
    (asked key load).poll l s = (s, .done (.ok value)) := by
  simp only [poll, h]

theorem poll_asked_of_loading (load : ι) (h : (l.get s).slot? key = some (.loading a)) :
    (asked key load).poll l s = (s, await l key a s) := by
  simp only [poll, h]

section Await

omit [BEq κ]

theorem await_of_running (h : (l.get s).status? a = some .running) :
    (await l key a s : Poll (Task κ ι) α) = .pending (waiting key a) := by
  rw [await, h]

theorem running_of_await (h : (await l key a s : Poll (Task κ ι) α) = .pending t) :
    (l.get s).status? a = some .running ∧ t = waiting key a := by
  unfold await at h
  split at h
  next => cases h
  next hrun => exact ⟨hrun, (Poll.pending.inj h).symm⟩
  next => cases h
  next => cases h

theorem await_cases (l : Loader σ κ ι α) (key : κ) (a : AttemptId) (s : σ) :
    (∃ b, (await l key a s : Poll (Task κ ι) α) = .pending (waiting key b)) ∨
      ∃ result, (await l key a s : Poll (Task κ ι) α) = .done result := by
  cases h : (await l key a s : Poll (Task κ ι) α) with
  | pending t => exact .inl ⟨a, by rw [(running_of_await h).2]⟩
  | done result => exact .inr ⟨result, rfl⟩

end Await

section Runs

variable {s' : σ} {load' : ι}

/-- A poll in which a task runs its load for an attempt, from the state that comes last: it begins the
attempt, or has led it before. -/
inductive Runs (l : Loader σ κ ι α) (s : σ) : Task κ ι → AttemptId → ι → σ → Prop
  | opens {key : κ} {load : ι} (h : (l.get s).slot? key = none) :
      Runs l s (asked key load) (l.get s).attempts.length load (l.set ((l.get s).begin key).1 s)
  | leads {key : κ} {a : AttemptId} {load : ι} : Runs l s (leading key a load) a load s

theorem poll_of_runs (h : t.Runs l s a load s') : t.poll l s = lead l t.key a load s' := by
  cases h with
  | opens h => exact poll_asked_of_empty h
  | leads => rfl

theorem runs_or_idle (t : Task κ ι) (s : σ) :
    (∃ a load s', t.Runs l s a load s') ∨
      t.led? = none ∧ (t.poll l s).1 = s ∧ t.pollNotes l s = [] ∧
        ((∃ a, (t.poll l s).2 = .pending (waiting t.key a)) ∨ ∃ result, (t.poll l s).2 = .done result) := by
  cases t with
  | asked key load =>
    cases hs : (l.get s).slot? key with
    | none => exact .inl ⟨_, load, _, .opens hs⟩
    | some slot =>
      refine .inr ⟨rfl, (poll_asked_of_slot load hs).1, pollNotes_of_slot load hs, ?_⟩
      cases slot with
      | ready value =>
        rw [poll_asked_of_ready load hs]
        exact .inr ⟨_, rfl⟩
      | loading a =>
        rw [poll_asked_of_loading load hs]
        exact await_cases l key a s
  | leading key a load => exact .inl ⟨a, load, s, .leads⟩
  | waiting key a => exact .inr ⟨rfl, rfl, rfl, await_cases l key a s⟩

theorem lead_of_pending (h : (l.run load s).2 = .pending load') :
    lead l key a load s = ((l.run load s).1, .pending (leading key a load')) := by
  unfold lead
  split
  next s' load'' hrun => rw [hrun] at h ⊢; cases h; rfl
  next s' result hrun => rw [hrun] at h; cases h

theorem lead_of_done (h : (l.run load s).2 = .done result) :
    lead l key a load s =
      (l.set ((l.get (l.run load s).1).settle key a result) (l.run load s).1, .done result) := by
  unfold lead
  split
  next s' load' hrun => rw [hrun] at h; cases h
  next s' result' hrun => rw [hrun] at h ⊢; cases h; rfl

theorem lead_done_iff : (lead l key a load s).2 = .done result ↔ (l.run load s).2 = .done result := by
  cases h : (l.run load s).2 with
  | pending load' => simp [lead_of_pending h]
  | done result' => simp [lead_of_done h]

omit [BEq κ] in
theorem exists_of_mem_endNotes {p : Poll (Task κ ι) α} (h : n ∈ endNotes key a p) :
    ∃ result, n = .finished key a result ∧ p = .done result := by
  cases p with
  | pending => cases h
  | done result => exact ⟨result, List.mem_singleton.mp h, rfl⟩

theorem finished_of_mem_pollNotes (h : .finished k b result ∈ t.pollNotes l s) :
    k = t.key ∧ (t.poll l s).2 = .done result ∧
      ∃ load s', t.Runs l s b load s' ∧ (l.run load s').2 = .done result := by
  have hend : ∀ load s', t.Runs l s b load s' → (t.poll l s).2 = .done result →
      ∃ load s', t.Runs l s b load s' ∧ (l.run load s').2 = .done result := by
    intro load s' hruns hp
    rw [poll_of_runs hruns] at hp
    exact ⟨load, s', hruns, lead_done_iff.mp hp⟩
  cases t with
  | asked key load =>
    cases hs : (l.get s).slot? key with
    | none =>
      rw [pollNotes_of_empty load hs] at h
      rcases List.mem_append.mp h with h | h
      · obtain ⟨r, heq, hp⟩ := exists_of_mem_endNotes h
        cases heq
        exact ⟨rfl, hp, hend load _ (.opens hs) hp⟩
      · cases List.mem_singleton.mp h
    | some slot =>
      rw [pollNotes_of_slot load hs] at h
      cases h
  | leading key a load =>
    obtain ⟨r, heq, hp⟩ := exists_of_mem_endNotes h
    cases heq
    exact ⟨rfl, hp, hend load _ .leads hp⟩
  | waiting key a => cases h

theorem finished_mem_of_runs (h : t.Runs l s a load s') (hp : (t.poll l s).2 = .done result) :
    .finished t.key a result ∈ t.pollNotes l s := by
  cases h with
  | opens h =>
    rw [pollNotes_of_empty _ h, hp]
    exact List.mem_append_left _ List.mem_cons_self
  | leads =>
    rw [pollNotes, hp]
    exact List.mem_cons_self

theorem key_of_poll (h : (t.poll l s).2 = .pending t') : t'.key = t.key := by
  rcases runs_or_idle (l := l) t s with ⟨a, load, s', hruns⟩ | ⟨-, -, -, ⟨a, hp⟩ | ⟨result, hp⟩⟩
  · rw [poll_of_runs hruns] at h
    cases hrun : (l.run load s').2 with
    | pending load' => rw [lead_of_pending hrun] at h; cases h; rfl
    | done result => rw [lead_of_done hrun] at h; cases h
  · rw [hp] at h
    cases h
    rfl
  · rw [hp] at h
    cases h

end Runs

theorem pending_of_lead (h : (lead l key a load s).2 = .pending t) :
    ∃ load', t = leading key a load' := by
  unfold lead at h
  split at h
  next load' hrun => exact ⟨load', (Poll.pending.inj h).symm⟩
  next => cases h

theorem waiting_of_poll (h : (t.poll l s).2 = .pending (waiting k a)) :
    t = waiting k a ∨ ∃ load, t = asked k load ∧ (l.get s).slot? k = some (.loading a) := by
  cases t with
  | asked key load =>
    cases hs : (l.get s).slot? key with
    | none =>
      rw [poll_asked_of_empty hs] at h
      obtain ⟨load', hload⟩ := pending_of_lead h
      cases hload
    | some slot =>
      cases slot with
      | ready value =>
        rw [poll_asked_of_ready load hs] at h
        cases h
      | loading b =>
        rw [poll_asked_of_loading load hs] at h
        cases (running_of_await h).2
        exact .inr ⟨load, rfl, hs⟩
  | leading key b load =>
    obtain ⟨load', hload⟩ := pending_of_lead h
    cases hload
  | waiting key b => exact .inl (running_of_await h).2.symm

section Records

variable (hl : l.Lawful) (h : (l.get s).Records notes)

include hl h

theorem lead_records (hs : (l.get s).slot? key = some (.loading a)) :
    (l.get (lead l key a load s).1).Records (endNotes key a (lead l key a load s).2 ++ notes) := by
  rcases lead_cases hl key a load s with ⟨load', hp, hget⟩ | ⟨result, hp, hget⟩
  · rw [hp, hget]
    exact h
  · rw [hp, hget]
    exact .note (n := .finished key a result) h hs

theorem poll_records [LawfulBEq κ]
    (hled : ∀ key a, t.led? = some (key, a) → (l.get s).slot? key = some (.loading a)) :
    (l.get (t.poll l s).1).Records (t.pollNotes l s ++ notes) := by
  cases t with
  | asked key load =>
    cases hs : (l.get s).slot? key with
    | none =>
      rw [pollNotes_of_empty load hs, poll_asked_of_empty hs, List.append_assoc]
      refine lead_records hl ?_ ?_
      · rw [hl.get_set]
        exact .note (n := .began key _) h ⟨hs, rfl⟩
      · rw [hl.get_set, LoadCache.slot?_begin, if_pos (beq_self_eq_true key)]
    | some slot =>
      rw [pollNotes_of_slot load hs, (poll_asked_of_slot load hs).1]
      exact h
  | leading key a load => exact lead_records hl h (hled key a rfl)
  | waiting key a => exact h

theorem drop_records
    (hled : ∀ key a, t.led? = some (key, a) → (l.get s).slot? key = some (.loading a)) :
    (l.get (t.drop l s)).Records (t.dropNotes ++ notes) := by
  cases t with
  | asked key load => exact h
  | leading key a load =>
    rw [drop, hl.get_set, hl.get_drop]
    exact .note (n := .dropped key a) h (hled key a rfl)
  | waiting key a => exact h

end Records

end Task

/-- A cache with the tasks that ask it for values: it has one leader for each key that is being loaded,
and who waits does so for an attempt to load the key. -/
structure LoadCache.Serves [BEq κ] (c : LoadCache κ α) (tasks : List (Task κ ι))
    (notes : List (Note κ α)) : Prop where
  records : c.Records notes
  led : c.LedBy (tasks.filterMap Task.led?)
  awaited : ∀ key a, .waiting key a ∈ tasks → .began key a ∈ notes

namespace LoadCache.Serves

variable [BEq κ] {l : Loader σ κ ι α} {c : LoadCache κ α} {t : Task κ ι} {tasks others : List (Task κ ι)}
  {s : σ} {key k : κ} {a b : AttemptId} {load : ι} {notes : List (Note κ α)} {n : Note κ α}
  {value : α} {result : Except ScopeError α}

theorem empty : ({} : LoadCache κ α).Serves ([] : List (Task κ ι)) [] where
  records := .empty
  led := ledBy_empty
  awaited _ _ h := nomatch h

theorem perm (h : c.Serves tasks notes) (hp : tasks.Perm others) : c.Serves others notes where
  records := h.records
  led := h.led.perm (hp.filterMap _)
  awaited key a hmem := h.awaited key a (hp.mem_iff.mpr hmem)

theorem led_cons (h : c.Serves (t :: others) notes) :
    c.LedBy (t.led?.toList ++ others.filterMap Task.led?) :=
  Entries.filterMap_cons Task.led? t others ▸ h.led

theorem loading_of_led (h : c.Serves tasks notes) (ht : t ∈ tasks) (hled : t.led? = some (key, a)) :
    c.slot? key = some (.loading a) :=
  (h.led.loading_iff key a).mpr (List.mem_filterMap.mpr ⟨t, ht, hled⟩)

theorem asked_cons_iff : c.Serves (.asked key load :: others) notes ↔ c.Serves others notes := by
  constructor
  · intro h
    exact ⟨h.records, h.led, fun k a hmem => h.awaited k a (List.mem_cons_of_mem _ hmem)⟩
  · intro h
    refine ⟨h.records, h.led, fun k a hmem => h.awaited k a ?_⟩
    rcases List.mem_cons.mp hmem with hk | hmem
    · cases hk
    · exact hmem

variable [LawfulBEq κ]

theorem poll (hl : l.Lawful) (h : (l.get s).Serves (t :: others) notes) :
    (l.get (t.poll l s).1).Serves ((t.poll l s).2.task?.toList ++ others)
      (t.pollNotes l s ++ notes) where
  records := Task.poll_records hl h.records fun _ _ hled =>
    h.loading_of_led List.mem_cons_self hled
  led := by
    have hled := Task.poll_ledBy hl h.led_cons
    cases hp : (t.poll l s).2 with
    | pending t' =>
      rw [hp] at hled
      exact (Entries.filterMap_cons Task.led? t' others).symm ▸ hled
    | done result =>
      rw [hp] at hled
      exact hled
  awaited k a hmem := by
    rcases List.mem_append.mp hmem with hmem | hmem
    · -- the task itself: it has waited before, or has found the attempt under way
      have hp : (t.poll l s).2 = .pending (.waiting k a) := by
        cases hq : (t.poll l s).2 with
        | pending t' =>
          rw [hq] at hmem
          rw [List.mem_singleton.mp hmem]
        | done result =>
          rw [hq] at hmem
          cases hmem
      rcases Task.waiting_of_poll hp with rfl | ⟨load, rfl, hs⟩
      · exact List.mem_append_right _ (h.awaited k a List.mem_cons_self)
      · exact List.mem_append_right _ (h.records.began_of_loading hs)
    · exact List.mem_append_right _ (h.awaited k a (List.mem_cons_of_mem _ hmem))

theorem drop (hl : l.Lawful) (h : (l.get s).Serves (t :: others) notes) :
    (l.get (t.drop l s)).Serves others (t.dropNotes ++ notes) where
  records := Task.drop_records hl h.records fun _ _ hled =>
    h.loading_of_led List.mem_cons_self hled
  led := Task.drop_ledBy hl h.led_cons
  awaited k a hmem := List.mem_append_right _ (h.awaited k a (List.mem_cons_of_mem _ hmem))

theorem value?_poll (hl : l.Lawful) (h : (l.get s).Serves (t :: others) notes)
    (hv : (l.get s).value? k = some value) : (l.get (t.poll l s).1).value? k = some value := by
  rw [value?_eq_some_iff] at hv ⊢
  obtain ⟨a, hmem⟩ := h.records.ready_iff.mp hv
  exact (h.poll hl).records.slot?_of_finished_ok (List.mem_append_right _ hmem)

theorem value?_drop (hl : l.Lawful) (h : (l.get s).Serves (t :: others) notes)
    (hv : (l.get s).value? k = some value) : (l.get (t.drop l s)).value? k = some value := by
  rw [value?_eq_some_iff] at hv ⊢
  obtain ⟨a, hmem⟩ := h.records.ready_iff.mp hv
  exact (h.drop hl).records.slot?_of_finished_ok (List.mem_append_right _ hmem)

theorem await_pending_iff (h : (l.get s).Serves tasks notes) (hbegan : .began key a ∈ notes) :
    (Task.await l key a s : Poll (Task κ ι) α) = .pending (.waiting key a) ↔
      ∃ t ∈ tasks, t.led? = some (key, a) := by
  constructor
  · intro hp
    have hrun := (Task.running_of_await hp).1
    -- a running attempt is led for some key, and that is the key for which it was begun
    obtain ⟨⟨k, b⟩, hmem, rfl⟩ := List.mem_map.mp ((h.led.running_iff a).mp hrun)
    have hloading := (h.led.loading_iff k b).mpr hmem
    have hk : k = key := h.records.key_eq (h.records.began_of_loading hloading) hbegan rfl
    rw [← hk]
    exact List.mem_filterMap.mp hmem
  · rintro ⟨t, ht, hled⟩
    have hmem : (key, a) ∈ tasks.filterMap Task.led? := List.mem_filterMap.mpr ⟨t, ht, hled⟩
    exact Task.await_of_running ((h.led.running_iff a).mpr (List.mem_map_of_mem hmem))

theorem await_done_iff (h : (l.get s).Serves tasks notes) (hbegan : .began key a ∈ notes) :
    (Task.await l key a s : Poll (Task κ ι) α) = .done result ↔
      Note.Tells l.describe notes key a result := by
  have hfinished : ∀ r, (l.get s).status? a = some (.finished r) ↔ .finished key a r ∈ notes :=
    fun _ => h.records.status?_finished_iff hbegan
  have habandoned := h.records.status?_abandoned_iff hbegan
  constructor
  · intro hp
    unfold Task.await at hp
    split at hp
    next r hs =>
      cases hp
      exact .inl ((hfinished _).mp hs)
    next => cases hp
    next hs =>
      cases hp
      exact .inr ⟨habandoned.mp hs, rfl⟩
    next hs => exact absurd (h.records.status?_isSome hbegan) (by simp [hs])
  · rintro (hmem | ⟨hmem, rfl⟩)
    · rw [Task.await, (hfinished result).mpr hmem]
    · rw [Task.await, habandoned.mpr hmem]

omit [LawfulBEq κ] in
theorem value?_of_runs {s' : σ} (h : (l.get s).Serves (t :: others) notes) (hruns : t.Runs l s a load s') :
    (l.get s).value? t.key = none := by
  unfold value?
  cases hruns with
  | opens hs => rw [Task.key, hs]
  | leads => rw [Task.key, h.loading_of_led List.mem_cons_self rfl]

theorem finished_or_dropped (h : (l.get s).Serves (t :: others) notes)
    (hp : (t.poll l s).2 = .done result) :
    (∃ a, .finished t.key a result ∈ t.pollNotes l s ++ notes) ∨
      ∃ a, t = .waiting t.key a ∧ (l.get s).status? a = some .abandoned ∧
        result = .error (.abandoned (l.describe t.key)) := by
  cases t with
  | asked key load =>
    cases hs : (l.get s).slot? key with
    | none =>
      exact .inl ⟨_, List.mem_append_left _ (Task.finished_mem_of_runs (.opens hs) hp)⟩
    | some slot =>
      cases slot with
      | ready value =>
        rw [Task.poll_asked_of_ready load hs] at hp
        cases hp
        obtain ⟨a, hmem⟩ := h.records.ready_iff.mp hs
        exact .inl ⟨a, List.mem_append_right _ hmem⟩
      | loading a =>
        have hawait : (Task.await l key a s : Poll (Task κ ι) α) = .pending (.waiting key a) :=
          Task.await_of_running (h.records.running_of_loading hs)
        rw [Task.poll_asked_of_loading load hs, hawait] at hp
        cases hp
  | leading key a load =>
    exact .inl ⟨a, List.mem_append_left _ (Task.finished_mem_of_runs .leads hp)⟩
  | waiting key a =>
    have hbegan := h.awaited key a List.mem_cons_self
    rcases (h.await_done_iff (l := l) hbegan).mp hp with hmem | ⟨hmem, rfl⟩
    · exact .inl ⟨a, List.mem_append_right _ hmem⟩
    · exact .inr ⟨a, rfl, (h.records.status?_abandoned_iff hbegan).mpr hmem, rfl⟩

theorem value?_of_done (hl : l.Lawful) (h : (l.get s).Serves (t :: others) notes)
    (hp : (t.poll l s).2 = .done (.ok value)) : (l.get (t.poll l s).1).value? t.key = some value := by
  rcases h.finished_or_dropped hp with ⟨a, hmem⟩ | ⟨a, -, -, heq⟩
  · exact value?_eq_some_iff.mpr ((h.poll hl).records.slot?_of_finished_ok hmem)
  · cases heq

end LoadCache.Serves

end GrammarScopes
