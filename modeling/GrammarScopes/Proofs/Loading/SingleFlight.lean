import GrammarScopes.Loading.Session
import GrammarScopes.Proofs.Loading.Leaders

/-!
Single flight: however tasks are created, polled and dropped, a key is loaded by one task at a time.
-/

namespace GrammarScopes

variable {α : Type}

namespace SharedLoads

theorem loader_lawful : (loader : Loader (SharedLoads α) String (OwnLoad α) α).Lawful where
  get_set _ _ := rfl
  get_run load s := by
    change (run load s).1.cache = s.cache
    unfold run
    cases load.outcome <;> cases load.isStarted <;> rfl
  get_drop _ _ := rfl

theorem runs_run (load : OwnLoad α) (s : SharedLoads α) :
    (run load s).1.runs = s.runs + if load.isStarted then 0 else 1 := by
  unfold run
  cases load.outcome <;> cases load.isStarted <;> rfl

theorem isStarted_run {load load' : OwnLoad α} {s : SharedLoads α}
    (h : (run load s).2 = .pending load') : load'.isStarted = true := by
  unfold run at h
  cases ho : load.outcome with
  | none =>
    rw [ho] at h
    cases h
    rfl
  | some result =>
    rw [ho] at h
    cases h

end SharedLoads

namespace Task

open SharedLoads

variable {t t' : SharedTask α} {s : SharedLoads α} {key : String} {a : AttemptId} {load : OwnLoad α}

/-- The load of a task has been started just when the task leads. -/
def Timely : SharedTask α → Prop
  | asked _ load => load.isStarted = false
  | leading _ _ load => load.isStarted = true
  | waiting .. => True

theorem led?_decide (t : SharedTask α) (outcome : Except ScopeError α) :
    (t.decide outcome).led? = t.led? := by
  cases t <;> rfl

theorem timely_decide (ht : t.Timely) (outcome : Except ScopeError α) :
    (t.decide outcome).Timely := by
  cases t <;> exact ht

theorem runs_lead : (lead loader key a load s).1.runs = s.runs + if load.isStarted then 0 else 1 := by
  rw [← runs_run load s]
  unfold lead
  split
  next s' load' hrun => exact (congrArg (·.1.runs) hrun).symm
  next s' result hrun => exact (congrArg (·.1.runs) hrun).symm

theorem timely_lead (h : (lead loader key a load s).2 = .pending t') : t'.Timely := by
  unfold lead at h
  split at h
  next s' load' hrun =>
    cases h
    exact isStarted_run (congrArg (·.2) hrun)
  next => cases h

theorem timely_await (h : await loader key a s = .pending t') : t'.Timely := by
  unfold await at h
  split at h
  next => cases h
  next => cases h; trivial
  next => cases h
  next => cases h

theorem runs_poll (ht : t.Timely) :
    (t.poll loader s).1.runs = s.runs + if (t.opens? s.cache).isSome then 1 else 0 := by
  cases t with
  | asked key load =>
    have hload : load.isStarted = false := ht
    cases hs : s.cache.slot? key with
    | none =>
      rw [poll_asked_of_empty hs, runs_lead, opens?_asked_of_empty hs, hload]
      rfl
    | some slot =>
      rw [(poll_asked_of_slot load hs).1, opens?, hs]
      rfl
  | leading key a load =>
    have hload : load.isStarted = true := ht
    rw [poll, runs_lead, hload]
    rfl
  | waiting key a => rfl

theorem timely_poll (h : (t.poll loader s).2 = .pending t') : t'.Timely := by
  cases t with
  | asked key load =>
    cases hs : (loader.get s).slot? key with
    | none =>
      rw [poll_asked_of_empty hs] at h
      exact timely_lead h
    | some slot =>
      cases slot with
      | ready value => simp only [poll, hs] at h; cases h
      | loading a => simp only [poll, hs] at h; exact timely_await h
  | leading key a load => exact timely_lead h
  | waiting key a => exact timely_await h

theorem runs_drop (t : SharedTask α) (s : SharedLoads α) : (t.drop loader s).runs = s.runs := by
  cases t <;> rfl

end Task

namespace LoadEvent

def subject? : LoadEvent α → Option String
  | start id .. | decide id _ | poll id | drop id => some id
  | value _ | isLoading _ => none

end LoadEvent

namespace LoadSession

open SharedLoads

def after (events : List (LoadEvent α)) : LoadSession α :=
  events.foldl (fun s e => (s.step e).1) {}

def led? (s : LoadSession α) (id : String) : Option (String × AttemptId) :=
  (s.task? id).bind Task.led?

def leaders (s : LoadSession α) : List (String × AttemptId) := s.tasks.filterMap (·.2.led?)

def leaderCount (s : LoadSession α) (key : String) : Nat :=
  s.tasks.countP fun e => e.2.led?.any (·.1 == key)

/-- The key whose slot an event finds empty as it polls a task for the first time. -/
def opens? (s : LoadSession α) : LoadEvent α → Option String
  | .start id key false outcome =>
    (Task.asked key { outcome := outcome } : SharedTask α).opens? (s.drop id).loads.cache
  | .poll id => (s.task? id).bind (·.opens? s.loads.cache)
  | _ => none

/-- What an event may do to the slot of a key: it keeps the slot, or finds it empty and fills it, or ends
the attempt in it, with the task that leads this attempt. -/
inductive SlotStep (s : LoadSession α) (e : LoadEvent α) (s' : LoadSession α) (key : String) : Prop
  | kept (h : s'.loads.cache.slot? key = s.loads.cache.slot? key)
  | opened (hslot : s.loads.cache.slot? key = none) (h : s.opens? e = some key)
  | ended (id : String) (a : AttemptId) (hid : e.subject? = some id)
      (hled : s.led? id = some (key, a)) (hslot : s.loads.cache.slot? key = some (.loading a))

def vacate (s : LoadSession α) (id key : String) : LoadSession α :=
  { s.drop id with keys := Dictionary.insertWord key s.keys }

inductive Takes (s : LoadSession α) : LoadEvent α → LoadSession α → Prop
  | idle {e : LoadEvent α} (h : s.opens? e = none) : Takes s e s
  | create (id key : String) (outcome : Option (Except ScopeError α)) :
      Takes s (.start id key true outcome)
        ((s.vacate id key).put id (.asked key { outcome := outcome }))
  | start (id key : String) (outcome : Option (Except ScopeError α)) :
      Takes s (.start id key false outcome)
        ((s.vacate id key).poll id (.asked key { outcome := outcome })).1
  | decide {id : String} {t : SharedTask α} (h : s.task? id = some t)
      (outcome : Except ScopeError α) : Takes s (.decide id outcome) (s.put id (t.decide outcome))
  | poll {id : String} {t : SharedTask α} (h : s.task? id = some t) :
      Takes s (.poll id) (s.poll id t).1
  | drop {id : String} {t : SharedTask α} (h : s.task? id = some t) : Takes s (.drop id) (s.drop id)

structure Inv (s : LoadSession α) : Prop where
  names : (s.tasks.map (·.1)).Nodup
  led : s.loads.cache.LedBy s.leaders
  timely : ∀ e ∈ s.tasks, e.2.Timely

variable {s s' : LoadSession α} {e : LoadEvent α} {id k key : String} {t t' : SharedTask α}
  {a : AttemptId}

theorem step_takes (s : LoadSession α) (e : LoadEvent α) : s.Takes e (s.step e).1 := by
  cases e with
  | start id key isLazy outcome =>
    cases isLazy with
    | true => exact .create id key outcome
    | false => exact .start id key outcome
  | decide id outcome =>
    cases ht : s.task? id with
    | none => simp only [step, ht]; exact .idle rfl
    | some t => simp only [step, ht]; exact .decide ht outcome
  | poll id =>
    cases ht : s.task? id with
    | none => simp only [step, ht]; exact .idle (by rw [opens?, ht]; rfl)
    | some t => simp only [step, ht]; exact .poll ht
  | drop id =>
    cases ht : s.task? id with
    | none => simp only [step, ht]; exact .idle rfl
    | some t => simp only [step, ht]; exact .drop ht
  | value key => exact .idle rfl
  | isLoading key => exact .idle rfl

section Tasks

theorem task?_remove (s : LoadSession α) (id k : String) :
    (s.remove id).task? k = if k == id then none else s.task? k :=
  Entries.lookup_filter_ne id k s.tasks

theorem task?_put (s : LoadSession α) (id k : String) (t : SharedTask α) :
    (s.put id t).task? k = if k == id then some t else s.task? k := by
  have h := s.task?_remove id k
  rw [task?, put, List.lookup_cons]
  by_cases hk : k == id
  · simp [hk]
  · simp only [hk, Bool.false_eq_true, ↓reduceIte] at h ⊢
    exact h

theorem led?_remove (s : LoadSession α) (id k : String) :
    (s.remove id).led? k = if k == id then none else s.led? k := by
  rw [led?, task?_remove]
  split <;> rfl

theorem led?_put (s : LoadSession α) (id k : String) (t : SharedTask α) :
    (s.put id t).led? k = if k == id then t.led? else s.led? k := by
  rw [led?, task?_put]
  split <;> rfl

theorem drop_of_none (h : s.task? id = none) : s.drop id = s := by
  rw [drop, h]

theorem drop_of_some (h : s.task? id = some t) :
    s.drop id = { s.remove id with loads := t.drop loader s.loads } := by
  rw [drop, h]

theorem tasks_drop (s : LoadSession α) (id : String) : (s.drop id).tasks = (s.remove id).tasks := by
  cases ht : s.task? id with
  | none =>
    rw [drop_of_none ht]
    exact (Entries.filter_ne_eq_self (Entries.not_mem_keys_of_lookup ht)).symm
  | some t => rw [drop_of_some ht]

theorem task?_drop (s : LoadSession α) (id k : String) :
    (s.drop id).task? k = if k == id then none else s.task? k := by
  rw [task?, tasks_drop]
  exact s.task?_remove id k

theorem led?_drop (h : (s.drop id).led? k = some (key, a)) : s.led? k = some (key, a) := by
  rw [led?, task?_drop] at h
  split at h
  next => cases h
  next => exact h

theorem loads_poll (s : LoadSession α) (id : String) (t : SharedTask α) :
    (s.poll id t).1.loads = (t.poll loader s.loads).1 := by
  unfold poll
  split
  next hp => rw [hp]; rfl
  next hp => rw [hp]; rfl

theorem led?_poll (s : LoadSession α) (id k : String) (t : SharedTask α) :
    (s.poll id t).1.led? k = if k == id then (t.poll loader s.loads).2.led? else s.led? k := by
  unfold poll
  split
  next hp => rw [hp]; exact led?_put _ id k _
  next hp => rw [hp]; exact led?_remove _ id k

end Tasks

section Invariant

theorem inv_empty : ({} : LoadSession α).Inv where
  names := List.nodup_nil
  led := LoadCache.ledBy_empty
  timely _ he := nomatch he

theorem nodup_put (h : (s.tasks.map (·.1)).Nodup) (id : String) (t : SharedTask α) :
    ((s.put id t).tasks.map (·.1)).Nodup :=
  List.nodup_cons.mpr ⟨by simp [remove], Entries.nodup_keys_filter _ h⟩

theorem leaders_put (s : LoadSession α) (id : String) (t : SharedTask α) :
    (s.put id t).leaders = t.led?.toList ++ (s.remove id).leaders := by
  rw [leaders, put, List.filterMap_cons]
  cases t.led? <;> rfl

theorem Inv.put_self (h : s.Inv) (ht : s.task? id = some t) : (s.put id t).Inv := by
  have hperm : s.tasks.Perm (s.put id t).tasks := Entries.perm_of_lookup h.names ht
  exact ⟨nodup_put h.names id t, h.led.perm (hperm.filterMap _),
    fun e he => h.timely e (hperm.mem_iff.mpr he)⟩

theorem Inv.put_new (h : s.Inv) (hid : s.task? id = none) (hled : t.led? = none) (ht : t.Timely) :
    (s.put id t).Inv := by
  have hothers : (s.remove id).tasks = s.tasks :=
    Entries.filter_ne_eq_self (Entries.not_mem_keys_of_lookup hid)
  refine ⟨nodup_put h.names id t, ?_, fun e he => ?_⟩
  · rw [leaders_put, hled, leaders, hothers]
    exact h.led
  · rcases List.mem_cons.mp he with rfl | he
    · exact ht
    · exact h.timely e (hothers ▸ he)

theorem Inv.put_instead (h : (s.put id t).Inv) (hled : t'.led? = t.led?) (ht : t'.Timely) :
    (s.put id t').Inv := by
  refine ⟨h.names, ?_, fun e he => ?_⟩
  · have hl := h.led
    rw [leaders_put, ← hled, ← leaders_put] at hl
    exact hl
  · rcases List.mem_cons.mp he with rfl | he
    · exact ht
    · exact h.timely e (List.mem_cons_of_mem _ he)

theorem poll_inv (h : (s.put id t).Inv) : (s.poll id t).1.Inv := by
  have hled : (loader.get s.loads).LedBy (t.led?.toList ++ (s.remove id).leaders) :=
    s.leaders_put id t ▸ h.led
  have hpoll := Task.poll_ledBy loader_lawful hled
  have hothers : ∀ e ∈ (s.remove id).tasks, e.2.Timely :=
    fun e he => h.timely e (List.mem_cons_of_mem _ he)
  unfold poll
  split
  next loads t' hp =>
    rw [hp] at hpoll
    refine ⟨h.names, ?_, fun e he => ?_⟩
    · rw [leaders_put]
      exact hpoll
    · rcases List.mem_cons.mp he with rfl | he
      · exact Task.timely_poll (congrArg (·.2) hp)
      · exact hothers e he
  next loads result hp =>
    rw [hp] at hpoll
    exact ⟨(List.nodup_cons.mp h.names).2, hpoll, hothers⟩

theorem drop_inv (h : s.Inv) (id : String) : (s.drop id).Inv := by
  cases ht : s.task? id with
  | none => rwa [drop_of_none ht]
  | some t =>
    have hput := h.put_self ht
    have hled : (loader.get s.loads).LedBy (t.led?.toList ++ (s.remove id).leaders) :=
      s.leaders_put id t ▸ hput.led
    rw [drop_of_some ht]
    exact ⟨(List.nodup_cons.mp hput.names).2, Task.drop_ledBy loader_lawful hled,
      fun e he => hput.timely e (List.mem_cons_of_mem _ he)⟩

theorem vacate_inv (h : s.Inv) (id key : String) : (s.vacate id key).Inv :=
  ⟨(drop_inv h id).names, (drop_inv h id).led, (drop_inv h id).timely⟩

theorem start_inv (h : s.Inv) (id key : String) (outcome : Option (Except ScopeError α)) :
    ((s.vacate id key).put id (.asked key { outcome := outcome })).Inv :=
  (vacate_inv h id key).put_new ((s.task?_drop id id).trans (if_pos (beq_self_eq_true id))) rfl rfl

theorem Takes.inv (h : s.Inv) (ht : s.Takes e s') : s'.Inv := by
  cases ht with
  | idle => exact h
  | create id key outcome => exact start_inv h id key outcome
  | start id key outcome => exact poll_inv (start_inv h id key outcome)
  | decide hid outcome =>
    have hput := h.put_self hid
    exact hput.put_instead (Task.led?_decide _ outcome)
      (Task.timely_decide (hput.timely _ List.mem_cons_self) outcome)
  | poll hid => exact poll_inv (h.put_self hid)
  | drop => exact drop_inv h _

theorem foldl_inv (h : s.Inv) (events : List (LoadEvent α)) :
    (events.foldl (fun s e => (s.step e).1) s).Inv := by
  induction events generalizing s with
  | nil => exact h
  | cons e events ih => exact ih (Takes.inv h (s.step_takes e))

theorem after_inv (events : List (LoadEvent α)) : (after events).Inv := foldl_inv inv_empty events

end Invariant

theorem runs_drop (s : LoadSession α) (id : String) : (s.drop id).loads.runs = s.loads.runs := by
  cases ht : s.task? id with
  | none => rw [drop_of_none ht]
  | some t =>
    rw [drop_of_some ht]
    exact t.runs_drop s.loads

theorem length_attempts_drop (s : LoadSession α) (id : String) :
    (s.drop id).loads.cache.attempts.length = s.loads.cache.attempts.length := by
  cases ht : s.task? id with
  | none => rw [drop_of_none ht]
  | some t =>
    rw [drop_of_some ht]
    exact t.length_attempts_drop loader_lawful s.loads

theorem slot?_drop (s : LoadSession α) (id key : String) :
    (s.drop id).loads.cache.slot? key = s.loads.cache.slot? key ∨
      (s.drop id).loads.cache.slot? key = none ∧ ∃ a, s.led? id = some (key, a) := by
  cases ht : s.task? id with
  | none =>
    rw [drop_of_none ht]
    exact .inl rfl
  | some t =>
    rw [drop_of_some ht, led?, ht]
    exact t.slot?_drop loader_lawful s.loads key

theorem slot?_poll (s : LoadSession α) (id key : String) (t : SharedTask α) :
    (s.poll id t).1.loads.cache.slot? key = s.loads.cache.slot? key ∨
      t.opens? s.loads.cache = some key ∨ ∃ a, t.led? = some (key, a) := by
  rw [loads_poll]
  exact t.slot?_poll loader_lawful s.loads key

theorem Takes.runs (h : s.Inv) (ht : s.Takes e s') :
    s'.loads.runs = s.loads.runs + if (s.opens? e).isSome then 1 else 0 := by
  cases ht with
  | idle ho => rw [ho]; rfl
  | create id key outcome => exact s.runs_drop id
  | start id key outcome =>
    rw [loads_poll, ← s.runs_drop id]
    exact Task.runs_poll rfl
  | decide => rfl
  | poll hid =>
    rw [loads_poll, opens?, hid]
    exact Task.runs_poll ((h.put_self hid).timely _ List.mem_cons_self)
  | drop => exact s.runs_drop _

theorem Takes.led? (ht : s.Takes e s') (hk : s'.led? k = some (key, a)) :
    s.led? k = some (key, a) ∨
      e.subject? = some k ∧ s.opens? e = some key ∧ a = s.loads.cache.attempts.length := by
  cases ht with
  | idle => exact .inl hk
  | create id key' outcome =>
    rw [led?_put] at hk
    split at hk
    next => cases hk
    next => exact .inl (led?_drop hk)
  | start id key' outcome =>
    rw [led?_poll] at hk
    split at hk
    next hid =>
      rcases Task.led?_poll hk with hled | ⟨ho, ha⟩
      · cases hled
      · rw [eq_of_beq hid]
        exact .inr ⟨rfl, ho, ha.trans (s.length_attempts_drop id)⟩
    next => exact .inl (led?_drop hk)
  | @decide id t hid outcome =>
    rw [led?_put] at hk
    split at hk
    next hk' =>
      rw [Task.led?_decide] at hk
      rw [eq_of_beq hk', LoadSession.led?, hid]
      exact .inl hk
    next => exact .inl hk
  | @poll id t hid =>
    rw [led?_poll] at hk
    split at hk
    next hk' =>
      obtain rfl := eq_of_beq hk'
      rw [LoadSession.led?, opens?, hid]
      rcases Task.led?_poll hk with hled | hbegun
      · exact .inl hled
      · exact .inr ⟨rfl, hbegun⟩
    next => exact .inl hk
  | drop => exact .inl (led?_drop hk)

theorem Inv.slot?_of_led (h : s.Inv) (hled : s.led? id = some (key, a)) :
    s.loads.cache.slot? key = some (.loading a) := by
  obtain ⟨t, hid, ht⟩ := Option.bind_eq_some_iff.mp hled
  refine (h.led.loading_iff key a).mpr (List.mem_filterMap.mpr ⟨(id, t), ?_, ht⟩)
  exact (Entries.perm_of_lookup h.names hid).mem_iff.mpr List.mem_cons_self

theorem SlotStep.of_drop (h : s.Inv) (hid : e.subject? = some id)
    (hs' : s'.loads.cache.slot? key = (s.drop id).loads.cache.slot? key) : SlotStep s e s' key := by
  rcases s.slot?_drop id key with hkept | ⟨-, a, hled⟩
  · exact .kept (hs'.trans hkept)
  · exact .ended id a hid hled (h.slot?_of_led hled)

theorem Takes.slotStep (h : s.Inv) (ht : s.Takes e s') (key : String) : SlotStep s e s' key := by
  cases ht with
  | idle => exact .kept rfl
  | create id key' outcome => exact .of_drop h rfl rfl
  | start id key' outcome =>
    rcases (s.vacate id key').slot?_poll id key _ with hkept | ho | ⟨a, hled⟩
    · exact .of_drop h rfl hkept
    -- the name may have belonged to the leader of the key, whose slot is emptied first
    · rcases s.slot?_drop id key with hdrop | ⟨-, a, hled⟩
      · exact .opened (hdrop.symm.trans (Task.slot?_of_opens? ho)) ho
      · exact .ended id a rfl hled (h.slot?_of_led hled)
    · cases hled
  | decide => exact .kept rfl
  | @poll id t hid =>
    rcases s.slot?_poll id key t with hkept | ho | ⟨a, hled⟩
    · exact .kept hkept
    · refine .opened (Task.slot?_of_opens? ho) ?_
      rw [opens?, hid]
      exact ho
    · have hled' : s.led? id = some (key, a) := by rw [LoadSession.led?, hid]; exact hled
      exact .ended id a rfl hled' (h.slot?_of_led hled')
  | drop => exact .of_drop h rfl rfl

theorem Inv.leaderCount_eq (h : s.Inv) (key : String) :
    s.leaderCount key = if s.loads.cache.isLoading key then 1 else 0 := by
  rw [← h.led.countP_eq key, leaders, List.countP_filterMap, leaderCount]
  congr
  funext e
  cases e.2.led? <;> rfl

theorem Inv.leaderCount_of_value (h : s.Inv) (hv : (s.loads.cache.value? key).isSome) :
    s.leaderCount key = 0 := by
  have hnot : s.loads.cache.isLoading key = false := by
    unfold LoadCache.value? at hv
    unfold LoadCache.isLoading
    split at hv
    next value hslot => rw [hslot]
    next => cases hv
  rw [h.leaderCount_eq, hnot]
  rfl

/-- In every session that events lead to, a key is being loaded just when one task leads it, and a key
that has a value is led by none; and whatever event comes next starts a load just when it first polls a
task that finds the slot of its key empty, and ends no attempt but one that its own task has begun. -/
theorem single_flight (events : List (LoadEvent α)) (key : String) :
    let s := after events
    (s.loads.cache.isLoading key ↔ s.leaderCount key = 1) ∧ s.leaderCount key ≤ 1 ∧
    ((s.loads.cache.value? key).isSome → s.leaderCount key = 0) ∧
    (∀ id a, s.led? id = some (key, a) → s.loads.cache.slot? key = some (.loading a)) ∧
    ∀ e, let s' := (s.step e).1
      s'.loads.runs = s.loads.runs + (if (s.opens? e).isSome then 1 else 0) ∧
      SlotStep s e s' key ∧
      ∀ id a, s'.led? id = some (key, a) → s.led? id = some (key, a) ∨
        e.subject? = some id ∧ s.opens? e = some key ∧ a = s.loads.cache.attempts.length := by
  intro s
  have h : s.Inv := after_inv events
  have hcount := h.leaderCount_eq key
  refine ⟨?_, ?_, h.leaderCount_of_value, fun id a => h.slot?_of_led, fun e => ?_⟩
  · rw [hcount]
    split
    next hl => exact iff_of_true hl rfl
    next hl => exact iff_of_false hl (by decide)
  · rw [hcount]
    split <;> decide
  · have ht := s.step_takes e
    exact ⟨ht.runs h, ht.slotStep h key, fun id a => ht.led?⟩

def twoCallers : List (LoadEvent Nat) := [.start "x" "k" false none, .start "y" "k" false none]

theorem single_flight_two_callers :
    (after twoCallers).leaderCount "k" = 1 ∧
    (after twoCallers).loads.cache.slot? "k" = some (.loading 0) ∧
    SlotStep (after twoCallers) (.drop "x") ((after twoCallers).step (.drop "x")).1 "k" ∧
    (after (twoCallers ++ [.decide "x" (.ok 7), .poll "x"])).leaderCount "k" = 0 ∧
    (after twoCallers).opens? (.start "z" "m" false none) = some "m" := by
  obtain ⟨hone, -, -, hslot, hnext⟩ := single_flight twoCallers "k"
  obtain ⟨-, -, hready, -, -⟩ :=
    single_flight (twoCallers ++ [.decide "x" (.ok 7), .poll "x"]) "k"
  obtain ⟨-, -, -, -, hbegun⟩ := single_flight twoCallers "m"
  refine ⟨hone.mp (by decide +kernel), hslot "x" 0 (by decide +kernel), (hnext _).2.1,
    hready (by decide +kernel), ?_⟩
  rcases (hbegun (.start "z" "m" false none)).2.2 "z" 1 (by decide +kernel) with hled | ho
  · exact absurd hled (by decide +kernel)
  · exact ho.2.1

end LoadSession

end GrammarScopes
