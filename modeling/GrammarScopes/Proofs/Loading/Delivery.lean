import GrammarScopes.Proofs.Loading.History

/-!
Delivery: however tasks are created, polled and dropped, each is told the outcome of the one attempt that
it belongs to.
-/

namespace GrammarScopes.LoadSession

open SharedLoads

variable {α : Type}

/-- The name of a task that an event polls for the first time, and the attempt that is then under way for
its key. -/
def joins? (s : LoadSession α) (e : LoadEvent α) : Option (String × String × AttemptId) :=
  match s.polled? e with
  | some (id, .asked key _, loads) =>
    match loads.cache.slot? key with
    | some (.loading a) => some (id, key, a)
    | _ => none
  | _ => none

/-- The attempt was under way when the task of that name was first polled, and the task has not been
dropped since. -/
def Joined (events : List (LoadEvent α)) (id key : String) (a : AttemptId) : Prop :=
  ∃ before e later, events = before ++ e :: later ∧ (after before).joins? e = some (id, key, a) ∧
    ∀ e' ∈ later, e'.drops? ≠ some id

/-- What a task is told that an event polls after the others: one that finds a value gets it, one that
leads gets what its own load gives, and one that waits gets what has been noted of the attempt it has
joined, once no task leads that attempt. -/
def Delivered (events : List (LoadEvent α)) (e : LoadEvent α) (id : String) (loads : SharedLoads α) :
    SharedTask α → Prop
  | .asked key load =>
    let reply := ((after events).step e).2
    match loads.cache.slot? key with
    | some (.ready value) =>
      reply = .done (.ok value) ∧ ∃ a, .finished key a (.ok value) ∈ history events
    | some (.loading a) =>
      reply = .pending ∧ ((after events).step e).1.task? id = some (.waiting key a) ∧
        ∃ leader, leader ≠ id ∧ (after events).led? leader = some (key, a)
    | none =>
      reply = .ofOutcome load.outcome ∧
        .began key loads.cache.attempts.length ∈ (after events).notes e
  | .leading key a load =>
    ((after events).step e).2 = .ofOutcome load.outcome ∧ .began key a ∈ history events
  | .waiting key a =>
    let reply := ((after events).step e).2
    Joined events id key a ∧
      (reply = .pending ↔ ∃ leader, (after events).led? leader = some (key, a)) ∧
      ∀ result, reply = .done result ↔ Note.Tells Text.quoted (history events) key a result

variable {s : LoadSession α} {e : LoadEvent α} {events : List (LoadEvent α)} {id k key : String}
  {t : SharedTask α} {loads : SharedLoads α} {n : Note String α} {notes : List (Note String α)}
  {a : AttemptId} {load : OwnLoad α}

theorem ofPoll_eq_pending {p : Poll (SharedTask α) α} (h : LoadReply.ofPoll p = .pending) :
    ∃ t, p = .pending t := by
  cases p with
  | pending t => exact ⟨t, rfl⟩
  | done result => cases h

theorem ofPoll_eq_done_iff {p : Poll (SharedTask α) α} {result : Except ScopeError α} :
    LoadReply.ofPoll p = .done result ↔ p = .done result := by
  cases p with
  | pending t => exact ⟨nofun, nofun⟩
  | done r => exact ⟨fun h => by cases h; rfl, fun h => by cases h; rfl⟩

theorem ofPoll_lead (key : String) (a : AttemptId) (load : OwnLoad α) (loads : SharedLoads α) :
    LoadReply.ofPoll (Task.lead loader key a load loads).2 = .ofOutcome load.outcome := by
  unfold Task.lead
  cases ho : load.outcome with
  | none =>
    have hrun : (run load loads).2 = .pending { load with isStarted := true } := by
      unfold run
      rw [ho]
    split
    next => rfl
    next heq => cases hrun.symm.trans (congrArg (·.2) heq)
  | some result =>
    have hrun : (run load loads).2 = .done result := by
      unfold run
      rw [ho]
    split
    next heq => cases hrun.symm.trans (congrArg (·.2) heq)
    next heq =>
      cases hrun.symm.trans (congrArg (·.2) heq)
      rfl

theorem mem_of_mem_dropNotes_append (h : n ∈ s.dropNotes e ++ notes)
    (hn : ∀ key a, n ≠ .dropped key a) : n ∈ notes := by
  rcases List.mem_append.mp h with h | h
  · obtain ⟨key, a, rfl⟩ := dropped_of_mem_dropNotes h
    exact absurd rfl (hn key a)
  · exact h

theorem exists_leader_iff (hinv : s.Inv) (id : String) :
    (∃ t ∈ (s.remove id).tasks.map (·.2), t.led? = some (key, a)) ↔
      ∃ leader, leader ≠ id ∧ s.led? leader = some (key, a) := by
  constructor
  · rintro ⟨t, ht, hled⟩
    obtain ⟨⟨leader, t⟩, hmem, rfl⟩ := List.mem_map.mp ht
    obtain ⟨hmem, hne⟩ := List.mem_filter.mp hmem
    refine ⟨leader, by simpa using hne, ?_⟩
    rw [led?, task?, Entries.lookup_of_mem hinv.names hmem]
    exact hled
  · rintro ⟨leader, hne, hled⟩
    obtain ⟨t, ht, hled⟩ := Option.bind_eq_some_iff.mp hled
    refine ⟨t, List.mem_map.mpr ⟨(leader, t), List.mem_filter.mpr ⟨?_, by simpa using hne⟩, rfl⟩, hled⟩
    exact Entries.mem_of_lookup ht

theorem exists_leader_iff_of_idle (hinv : s.Inv) (ht : s.task? id = some t) (hidle : t.led? = none) :
    (∃ t' ∈ t :: (s.remove id).tasks.map (·.2), t'.led? = some (key, a)) ↔
      ∃ leader, s.led? leader = some (key, a) := by
  constructor
  · rintro ⟨t', hmem, hled⟩
    rcases List.mem_cons.mp hmem with rfl | hmem
    · rw [hidle] at hled
      cases hled
    · obtain ⟨leader, -, hled⟩ := (exists_leader_iff hinv id).mp ⟨t', hmem, hled⟩
      exact ⟨leader, hled⟩
  · rintro ⟨leader, hled⟩
    have hne : leader ≠ id := by
      rintro rfl
      rw [led?, ht, Option.bind_some, hidle] at hled
      cases hled
    obtain ⟨t', hmem, hled⟩ := (exists_leader_iff hinv id).mpr ⟨leader, hne, hled⟩
    exact ⟨t', List.mem_cons_of_mem _ hmem, hled⟩

section Joining

theorem task?_of_tasks {p : Poll (SharedTask α) α} {s' : LoadSession α}
    (h : s'.tasks = p.task?.toList.map (id, ·) ++ (s.remove id).tasks) (k : String) :
    s'.task? k = if k == id then p.task? else s.task? k := by
  have hremove := s.task?_remove id k
  rw [task?, h]
  cases p with
  | pending t => exact s.task?_put id k t
  | done result => exact hremove

theorem drops?_of_polled (hp : s.polled? e = some (id, t, loads)) (hk : k ≠ id) : e.drops? ≠ some k := by
  rcases polled_cases hp with ⟨key, outcome, rfl, -, -⟩ | ⟨rfl, -, -⟩
  · exact fun heq => hk (Option.some.inj heq).symm
  · exact nofun

theorem waiting_of_polled (hp : s.polled? e = some (id, t, loads))
    (h : (s.step e).1.task? k = some (.waiting key a)) :
    s.joins? e = some (k, key, a) ∨ s.task? k = some (.waiting key a) ∧ e.drops? ≠ some k := by
  obtain ⟨-, htasks, -⟩ := step_of_polled hp
  rw [task?_of_tasks htasks] at h
  by_cases hk : k = id
  · subst hk
    rw [if_pos (beq_self_eq_true k)] at h
    have hpoll : (t.poll loader loads).2 = .pending (.waiting key a) := by
      cases hq : (t.poll loader loads).2 with
      | pending t' => rw [hq] at h; cases h; rfl
      | done result => rw [hq] at h; cases h
    rcases Task.waiting_of_poll hpoll with rfl | ⟨load, rfl, hs⟩
    · -- it is no new task, so it has been kept under this name
      rcases polled_cases hp with ⟨key, outcome, rfl, ht, rfl⟩ | ⟨rfl, ht, rfl⟩
      · cases ht
      · exact .inr ⟨ht, nofun⟩
    · have hs' : loads.cache.slot? key = some (.loading a) := hs
      exact .inl (by simp only [joins?, hp, hs'])
  · rw [if_neg (by simpa using hk)] at h
    exact .inr ⟨h, drops?_of_polled hp hk⟩

theorem waiting_of_not_polled (hp : s.polled? e = none)
    (h : (s.step e).1.task? k = some (.waiting key a)) :
    s.task? k = some (.waiting key a) ∧ e.drops? ≠ some k := by
  cases e with
  | start id key' isLazy outcome =>
    cases isLazy with
    | true =>
      change ((s.vacate id key').put id (.asked key' { outcome := outcome })).task? k = _ at h
      rw [task?_put] at h
      by_cases hk : k = id
      -- the name belongs to the new task, which has not been polled
      · rw [if_pos (beq_iff_eq.mpr hk)] at h
        cases h
      · rw [if_neg (by simpa using hk)] at h
        have hkept : (s.drop id).task? k = some (.waiting key a) := h
        rw [task?_drop] at hkept
        exact ⟨(Option.ite_none_left_eq_some.mp hkept).2, fun heq => hk (Option.some.inj heq).symm⟩
    | false => cases hp
  | poll id =>
    have hid : s.task? id = none := Option.map_eq_none_iff.mp hp
    simp only [step, hid] at h
    exact ⟨h, (Option.some_ne_none k).symm⟩
  | decide id outcome =>
    refine ⟨?_, (Option.some_ne_none k).symm⟩
    cases ht : s.task? id with
    | none => simpa only [step, ht] using h
    | some t =>
      simp only [step, ht] at h
      rw [task?_put] at h
      by_cases hk : k = id
      · subst hk
        rw [if_pos (beq_self_eq_true k)] at h
        cases t with
        | asked => cases h
        | leading => cases h
        | waiting => rw [ht]; exact h
      · rwa [if_neg (by simpa using hk)] at h
  | drop id =>
    rw [step_drop, task?_drop] at h
    obtain ⟨hk, hkept⟩ := Option.ite_none_left_eq_some.mp h
    exact ⟨hkept, fun heq => hk (beq_iff_eq.mpr (Option.some.inj heq).symm)⟩
  | value | isLoading => exact ⟨h, (Option.some_ne_none k).symm⟩

theorem step_waiting (h : (s.step e).1.task? k = some (.waiting key a)) :
    s.joins? e = some (k, key, a) ∨
      s.task? k = some (.waiting key a) ∧ e.drops? ≠ some k := by
  cases hp : s.polled? e with
  | some p => exact waiting_of_polled hp h
  | none => exact .inr (waiting_of_not_polled hp h)

theorem joined_of_waiting (events : List (LoadEvent α))
    (h : (after events).task? id = some (.waiting key a)) : Joined events id key a := by
  -- from the last event back to the one at which the task began to wait
  induction events using List.reverseRecOn with
  | nil => cases h
  | append_singleton events e ih =>
    rw [after_concat] at h
    rcases step_waiting h with hjoins | ⟨hbefore, hdrops⟩
    · exact ⟨events, e, [], rfl, hjoins, List.forall_mem_nil _⟩
    · obtain ⟨before, e₀, later, rfl, hjoins, hlater⟩ := ih hbefore
      refine ⟨before, e₀, later ++ [e], by simp, hjoins, fun e' he' => ?_⟩
      rcases List.mem_append.mp he' with he' | he'
      · exact hlater e' he'
      · rw [List.mem_singleton.mp he']
        exact hdrops

end Joining

section Polled

variable (hp : (after events).polled? e = some (id, t, loads))

include hp

theorem delivered_asked (ht : t = .asked key load) :
    Delivered events e id loads (.asked key load) := by
  subst ht
  have hserves := polled_serves (after_inv events) (after_serves events) hp
  obtain ⟨-, htasks, hreply⟩ := step_of_polled hp
  cases hs : loads.cache.slot? key with
  | none =>
    simp only [Delivered, hs]
    rw [Task.poll_asked_of_empty hs, ofPoll_lead] at hreply
    refine ⟨hreply, ?_⟩
    rw [notes_of_polled hp, Task.pollNotes_of_empty load hs]
    exact List.mem_append_left _ (List.mem_append_right _ List.mem_cons_self)
  | some slot =>
    cases slot with
    | ready value =>
      simp only [Delivered, hs]
      rw [Task.poll_asked_of_ready load hs] at hreply
      refine ⟨hreply, ?_⟩
      obtain ⟨a, hmem⟩ := hserves.records.ready_iff.mp hs
      exact ⟨a, mem_of_mem_dropNotes_append hmem nofun⟩
    | loading a =>
      simp only [Delivered, hs]
      have hawait : Task.await loader key a loads = .pending (.waiting key a) :=
        Task.await_of_running (hserves.records.running_of_loading hs)
      rw [Task.poll_asked_of_loading load hs, hawait] at hreply htasks
      refine ⟨hreply, ?_, (exists_leader_iff (after_inv events) id).mp ?_⟩
      · rw [task?_of_tasks htasks, if_pos (beq_self_eq_true id)]
        rfl
      · obtain ⟨t, ht, hled⟩ := List.mem_filterMap.mp ((hserves.led.loading_iff key a).mp hs)
        rcases List.mem_cons.mp ht with rfl | ht
        · cases hled
        · exact ⟨t, ht, hled⟩

theorem delivered_leading (ht : t = .leading key a load) :
    Delivered events e id loads (.leading key a load) := by
  subst ht
  have hserves := polled_serves (after_inv events) (after_serves events) hp
  obtain ⟨-, -, hreply⟩ := step_of_polled hp
  refine ⟨hreply.trans (ofPoll_lead key a load loads), ?_⟩
  have hloading := hserves.loading_of_led List.mem_cons_self rfl
  exact mem_of_mem_dropNotes_append (hserves.records.began_of_loading hloading) nofun

theorem delivered_waiting (ht : t = .waiting key a) :
    Delivered events e id loads (.waiting key a) := by
  subst ht
  obtain ⟨-, -, hreply⟩ := step_of_polled hp
  rcases polled_cases hp with ⟨key, outcome, -, ht, -⟩ | ⟨rfl, ht, rfl⟩
  · cases ht
  · have hput := serves_put (after_inv events) (after_serves events) ht
    have hbegan := hput.awaited key a List.mem_cons_self
    refine ⟨joined_of_waiting events ht, ?_, fun result => ?_⟩
    · rw [← exists_leader_iff_of_idle (after_inv events) ht rfl,
        ← hput.await_pending_iff (l := loader) hbegan, hreply]
      constructor
      · intro h
        obtain ⟨t, hpoll⟩ := ofPoll_eq_pending h
        have hawait : Task.await loader key a (after events).loads = .pending t := hpoll
        rw [hawait, (Task.running_of_await hawait).2]
      · intro h
        rw [Task.poll, h]
        rfl
    · rw [hreply, ofPoll_eq_done_iff]
      exact hput.await_done_iff (l := loader) hbegan

end Polled

/-- After any events, and whatever event comes next: only a task that it polls may be done; each task is
told the outcome of the one attempt that it belongs to; and no attempt is made for two keys. -/
theorem outcome_delivery (events : List (LoadEvent α)) (e : LoadEvent α) :
    (match (after events).polled? e with
      | some (id, t, loads) => Delivered events e id loads t
      | none => ∀ result, ((after events).step e).2 ≠ .done result) ∧
    ∀ n ∈ history events, ∀ m ∈ history events, n.attempt = m.attempt → n.key = m.key := by
  refine ⟨?_, fun n hn m hm => (after_serves events).records.key_eq hn hm⟩
  cases hp : (after events).polled? e with
  | none => exact done_of_not_polled hp
  | some p =>
    obtain ⟨id, t, loads⟩ := p
    cases t with
    | asked key load => exact delivered_asked hp rfl
    | leading key a load => exact delivered_leading hp rfl
    | waiting key a => exact delivered_waiting hp rfl

/-- The attempt that `y` waits for has failed, and another one is under way. -/
def lateWaiter : List (LoadEvent Nat) :=
  [.start "x" "k" false none, .start "y" "k" false none,
    .decide "x" (.error (.unmappedScope "s")), .poll "x", .start "z" "k" false none]

theorem outcome_delivery_late_waiter :
    (after lateWaiter).led? "z" = some ("k", 1) ∧
    ((after lateWaiter).step (.poll "y")).2 = .done (.error (.unmappedScope "s")) := by
  refine ⟨by decide +kernel, ?_⟩
  have hpolled : (after lateWaiter).polled? (.poll "y") =
      some ("y", .waiting "k" 0, (after lateWaiter).loads) := rfl
  have hhistory : history lateWaiter =
      [.began "k" 1, .finished "k" 0 (.error (.unmappedScope "s")), .began "k" 0] := rfl
  have h := (outcome_delivery lateWaiter (.poll "y")).1
  rw [hpolled] at h
  refine (h.2.2 _).mpr (.inl ?_)
  rw [hhistory]
  simp

end GrammarScopes.LoadSession
