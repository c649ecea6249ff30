import GrammarScopes.Proofs.Loading.Served
import GrammarScopes.Proofs.Loading.SingleFlight
import Mathlib.Data.List.Induction

/-!
The history of a session: the notes of all attempts that its events have begun and ended.
-/

namespace GrammarScopes

variable {α : Type}

def LoadEvent.drops? : LoadEvent α → Option String
  | start id .. | drop id => some id
  | decide .. | poll _ | value _ | isLoading _ => none

namespace LoadReply

def ofPoll : Poll (SharedTask α) α → LoadReply α
  | .pending _ => pending
  | .done result => done result

def ofOutcome : Option (Except ScopeError α) → LoadReply α
  | some result => done result
  | none => pending

end LoadReply

namespace LoadSession

open SharedLoads

/-- The task that an event polls, with its name, and the loads as it finds them. -/
def polled? (s : LoadSession α) : LoadEvent α → Option (String × SharedTask α × SharedLoads α)
  | .start id key false outcome => some (id, .asked key { outcome := outcome }, (s.drop id).loads)
  | .poll id => (s.task? id).map fun t => (id, t, s.loads)
  | _ => none

def pollNotes (s : LoadSession α) (e : LoadEvent α) : List (Note String α) :=
  match s.polled? e with
  | some (_, t, loads) => t.pollNotes loader loads
  | none => []

def dropNotes (s : LoadSession α) (e : LoadEvent α) : List (Note String α) :=
  match e.drops?.bind s.task? with
  | some t => t.dropNotes
  | none => []

/-- What is noted, the latest first, at an event; a task that is dropped is dropped first. -/
def notes (s : LoadSession α) (e : LoadEvent α) : List (Note String α) := s.pollNotes e ++ s.dropNotes e

def historyFrom (s : LoadSession α) : List (LoadEvent α) → List (Note String α)
  | [] => []
  | e :: events => historyFrom (s.step e).1 events ++ s.notes e

def history (events : List (LoadEvent α)) : List (Note String α) := historyFrom {} events

variable {s : LoadSession α} {e : LoadEvent α} {id k key : String} {t t' : SharedTask α}
  {loads : SharedLoads α} {notes : List (Note String α)} {n : Note String α} {a : AttemptId}

theorem after_concat (events : List (LoadEvent α)) (e : LoadEvent α) :
    after (events ++ [e]) = ((after events).step e).1 := by
  simp [after]

theorem historyFrom_append (s : LoadSession α) (events later : List (LoadEvent α)) :
    historyFrom s (events ++ later) =
      historyFrom (events.foldl (fun s e => (s.step e).1) s) later ++ historyFrom s events := by
  induction events generalizing s with
  | nil => simp [historyFrom]
  | cons e events ih => simp [historyFrom, ih]

theorem history_append (events later : List (LoadEvent α)) :
    history (events ++ later) = historyFrom (after events) later ++ history events :=
  historyFrom_append {} events later

theorem history_concat (events : List (LoadEvent α)) (e : LoadEvent α) :
    history (events ++ [e]) = (after events).notes e ++ history events :=
  history_append events [e]

theorem dropped_of_mem_dropNotes (h : n ∈ s.dropNotes e) : ∃ key a, n = .dropped key a := by
  unfold dropNotes at h
  split at h
  next => exact Task.dropped_of_mem_dropNotes h
  next => cases h

section Steps

theorem tasks_remove_drop (s : LoadSession α) (id : String) :
    ((s.drop id).remove id).tasks = (s.remove id).tasks := by
  change (s.drop id).tasks.filter (·.1 != id) = (s.remove id).tasks
  rw [tasks_drop]
  exact List.filter_filter.trans (by simp [remove])

theorem poll_eq (s : LoadSession α) (id : String) (t : SharedTask α) :
    (s.poll id t).1.loads = (t.poll loader s.loads).1 ∧
    (s.poll id t).1.tasks =
      (t.poll loader s.loads).2.task?.toList.map (id, ·) ++ (s.remove id).tasks ∧
    (s.poll id t).2 = .ofPoll (t.poll loader s.loads).2 := by
  unfold poll
  split
  next loads t' hp => rw [hp]; exact ⟨rfl, rfl, rfl⟩
  next loads result hp => rw [hp]; exact ⟨rfl, rfl, rfl⟩

theorem polled_cases (h : s.polled? e = some (id, t, loads)) :
    (∃ key outcome, e = .start id key false outcome ∧ t = .asked key { outcome := outcome } ∧
      loads = (s.drop id).loads) ∨
    e = .poll id ∧ s.task? id = some t ∧ loads = s.loads := by
  cases e with
  | start id' key isLazy outcome =>
    cases isLazy with
    | true => cases h
    | false =>
      cases h
      exact .inl ⟨key, outcome, rfl, rfl, rfl⟩
  | poll id' =>
    obtain ⟨t', ht', heq⟩ := Option.map_eq_some_iff.mp h
    cases heq
    exact .inr ⟨rfl, ht', rfl⟩
  | decide => cases h
  | drop => cases h
  | value => cases h
  | isLoading => cases h

theorem step_of_polled (h : s.polled? e = some (id, t, loads)) :
    (s.step e).1.loads = (t.poll loader loads).1 ∧
    (s.step e).1.tasks = (t.poll loader loads).2.task?.toList.map (id, ·) ++ (s.remove id).tasks ∧
    (s.step e).2 = .ofPoll (t.poll loader loads).2 := by
  rcases polled_cases h with ⟨key, outcome, rfl, rfl, rfl⟩ | ⟨rfl, ht, rfl⟩
  · have heq := (s.vacate id key).poll_eq id (.asked key { outcome := outcome })
    have htasks : ((s.vacate id key).remove id).tasks = (s.remove id).tasks :=
      s.tasks_remove_drop id
    rw [htasks] at heq
    exact heq
  · have hstep : s.step (.poll id) = s.poll id t := by simp only [step, ht]
    rw [hstep]
    exact s.poll_eq id t

theorem notes_of_polled (h : s.polled? e = some (id, t, loads)) :
    s.notes e = t.pollNotes loader loads ++ s.dropNotes e := by
  rw [LoadSession.notes, pollNotes, h]

theorem notes_of_not_polled (h : s.polled? e = none) : s.notes e = s.dropNotes e := by
  rw [LoadSession.notes, pollNotes, h]
  rfl

theorem step_drop (s : LoadSession α) (id : String) : (s.step (.drop id)).1 = s.drop id := by
  cases ht : s.task? id with
  | none =>
    simp only [step, ht]
    exact (drop_of_none ht).symm
  | some t => simp only [step, ht]

theorem done_of_not_polled (h : s.polled? e = none) (result : Except ScopeError α) :
    (s.step e).2 ≠ .done result := by
  cases e with
  | start id key isLazy outcome =>
    cases isLazy with
    | true => exact fun heq => by cases heq
    | false => cases h
  | poll id =>
    have hid : s.task? id = none := Option.map_eq_none_iff.mp h
    simp [step, hid]
  | decide id outcome => cases ht : s.task? id <;> simp [step, ht]
  | drop id => cases ht : s.task? id <;> simp [step, ht]
  | value | isLoading =>
    intro heq
    cases heq

end Steps

section Serves

theorem serves_instead {c : LoadCache String α} {others : List (SharedTask α)}
    (h : c.Serves (t :: others) notes) (hled : t'.led? = t.led?)
    (hwaiting : ∀ key a, t' = .waiting key a → t = .waiting key a) :
    c.Serves (t' :: others) notes where
  records := h.records
  led := by
    have hled' := h.led_cons
    rw [← hled] at hled'
    exact (Entries.filterMap_cons Task.led? t' others).symm ▸ hled'
  awaited k a hmem := by
    rcases List.mem_cons.mp hmem with heq | hmem
    · rw [hwaiting k a heq.symm] at h
      exact h.awaited k a List.mem_cons_self
    · exact h.awaited k a (List.mem_cons_of_mem _ hmem)

variable (hinv : s.Inv) (h : s.loads.cache.Serves (s.tasks.map (·.2)) notes)

include hinv h

theorem serves_put (ht : s.task? id = some t) :
    s.loads.cache.Serves (t :: (s.remove id).tasks.map (·.2)) notes :=
  h.perm ((Entries.perm_of_lookup hinv.names ht).map (·.2))

theorem drop_serves (id : String) :
    (s.drop id).loads.cache.Serves ((s.remove id).tasks.map (·.2)) (s.dropNotes (.drop id) ++ notes) := by
  cases ht : s.task? id with
  | none =>
    have hnotes : s.dropNotes (.drop id) = [] := by simp [dropNotes, LoadEvent.drops?, ht]
    rw [hnotes, ← tasks_drop, drop_of_none ht]
    exact h
  | some t =>
    have hnotes : s.dropNotes (.drop id) = t.dropNotes := by simp [dropNotes, LoadEvent.drops?, ht]
    rw [hnotes, drop_of_some ht]
    exact (serves_put hinv h ht).drop loader_lawful

theorem polled_serves (hp : s.polled? e = some (id, t, loads)) :
    loads.cache.Serves (t :: (s.remove id).tasks.map (·.2)) (s.dropNotes e ++ notes) := by
  rcases polled_cases hp with ⟨key, outcome, rfl, rfl, rfl⟩ | ⟨rfl, ht, rfl⟩
  · exact LoadCache.Serves.asked_cons_iff.mpr (drop_serves hinv h id)
  · exact serves_put hinv h ht

theorem serves_of_polled (hp : s.polled? e = some (id, t, loads)) :
    (s.step e).1.loads.cache.Serves ((s.step e).1.tasks.map (·.2)) (s.notes e ++ notes) := by
  obtain ⟨hloads, htasks, -⟩ := step_of_polled hp
  have hpoll := (polled_serves hinv h hp).poll loader_lawful
  have hmap : (s.step e).1.tasks.map (·.2) =
      (t.poll loader loads).2.task?.toList ++ (s.remove id).tasks.map (·.2) := by
    rw [htasks, List.map_append]
    cases (t.poll loader loads).2.task? <;> rfl
  rw [hloads, hmap, notes_of_polled hp, List.append_assoc]
  exact hpoll

theorem decide_serves (id : String) (outcome : Except ScopeError α) :
    (s.step (.decide id outcome)).1.loads.cache.Serves ((s.step (.decide id outcome)).1.tasks.map (·.2))
      notes := by
  cases ht : s.task? id with
  | none =>
    simp only [step, ht]
    exact h
  | some t =>
    simp only [step, ht]
    refine serves_instead (serves_put hinv h ht) (t.led?_decide outcome) fun k a heq => ?_
    cases t with
    | asked => cases heq
    | leading => cases heq
    | waiting => exact heq

theorem step_serves (e : LoadEvent α) :
    (s.step e).1.loads.cache.Serves ((s.step e).1.tasks.map (·.2)) (s.notes e ++ notes) := by
  cases hp : s.polled? e with
  | some p => exact serves_of_polled hinv h hp
  | none =>
    rw [notes_of_not_polled hp]
    cases e with
    | start id key isLazy outcome =>
      cases isLazy with
      | true =>
        have hput : ((s.vacate id key).put id (.asked key { outcome := outcome })).tasks =
            (id, .asked key { outcome := outcome }) :: (s.remove id).tasks := by
          rw [← s.tasks_remove_drop id]
          rfl
        change LoadCache.Serves _ (((s.vacate id key).put id _).tasks.map _) _
        rw [hput]
        exact LoadCache.Serves.asked_cons_iff.mpr (drop_serves hinv h id)
      | false => cases hp
    | poll id =>
      have hid : s.task? id = none := Option.map_eq_none_iff.mp hp
      simp only [step, hid]
      exact h
    | decide id outcome => exact decide_serves hinv h id outcome
    | drop id =>
      have hdrop := drop_serves hinv h id
      rwa [← tasks_drop, ← step_drop] at hdrop
    | value => exact h
    | isLoading => exact h

end Serves

theorem after_serves (events : List (LoadEvent α)) :
    (after events).loads.cache.Serves ((after events).tasks.map (·.2)) (history events) := by
  induction events using List.reverseRecOn with
  | nil => exact .empty
  | append_singleton events e ih =>
    rw [after_concat, history_concat]
    exact step_serves (after_inv events) ih e

end LoadSession

end GrammarScopes
