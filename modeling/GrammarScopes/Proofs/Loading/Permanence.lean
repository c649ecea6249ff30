import GrammarScopes.Proofs.Loading.History

/-!
Permanence and rollback: a value that is loaded stays, and an attempt that gives none leaves no trace.
-/

namespace GrammarScopes

variable {κ α : Type}

def Slot.isReady : Slot α → Bool
  | ready _ => true
  | loading _ => false

namespace Note

variable [BEq κ] [LawfulBEq κ] {key : κ} {a : AttemptId} {n : Note κ α}
  {before middle : List (Note κ α)}

theorem slotOf?_filter_ne (notes : List (Note κ α)) {k : κ} (hk : key ≠ k) :
    slotOf? (notes.filter (·.key != key) ++ before) k = slotOf? (notes ++ before) k := by
  induction notes with
  | nil => rfl
  | cons n notes ih =>
    by_cases hn : n.key = key
    · have hne : ¬ n.key == k := by simpa [hn] using hk
      rw [List.filter_cons_of_neg (by simp [hn]), List.cons_append, slotOf?_cons, if_neg hne, ih]
    · rw [List.filter_cons_of_pos (by simp [hn]), List.cons_append, List.cons_append, slotOf?_cons,
        slotOf?_cons, ih]

omit [LawfulBEq κ] in
theorem slotOf?_skip (others notes : List (Note κ α)) {k : κ} (hn : ¬ n.key == k) :
    slotOf? (others ++ n :: notes) k = slotOf? (others ++ notes) k := by
  unfold slotOf?
  rw [List.find?_append, List.find?_append, List.find?_cons]
  simp [hn]

/-- After an attempt that gives no value, every slot is as it were without what is noted of its key. -/
theorem slotOf?_rollback (hn : n.key = key) (hslot : n.slot? = none) (hbefore : slotOf? before key = none)
    (k : κ) :
    slotOf? (n :: middle ++ began key a :: before) k =
      slotOf? (middle.filter (·.key != key) ++ before) k := by
  by_cases hk : key = k
  · -- the slot is empty as it was before the attempt, since nothing else is left that is about the key
    subst hk
    have hother : ∀ m ∈ middle.filter (·.key != key), ¬ m.key == key := by
      intro m hm
      simpa using (List.mem_filter.mp hm).2
    rw [slotOf?_append_of_forall hother, hbefore, List.cons_append, slotOf?_cons,
      if_pos (beq_iff_eq.mpr hn), hslot]
  · have hskip : ∀ m : Note κ α, m.key = key → ¬ m.key == k := fun m hm => by simpa [hm] using hk
    have hbegan := slotOf?_skip middle before (hskip (began key a) rfl)
    rw [List.cons_append, slotOf?_cons, if_neg (hskip n hn), hbegan, slotOf?_filter_ne middle hk]

end Note

namespace LoadCache

variable [BEq κ] {c : LoadCache κ α} {notes : List (Note κ α)} {key : κ} {value : α}

theorem Records.readyCount_eq [LawfulBEq κ] (h : c.Records notes) :
    ∃ keys : List κ, keys.Nodup ∧
      (∀ k, k ∈ keys ↔ ∃ a value, .finished k a (.ok value) ∈ notes) ∧
      c.readyCount = keys.length := by
  refine ⟨(c.slots.filter (·.2.isReady)).map (·.1), Entries.nodup_keys_filter _ h.nodup_keys, fun k => ?_, ?_⟩
  · constructor
    · intro hk
      obtain ⟨⟨k, slot⟩, hmem, rfl⟩ := List.mem_map.mp hk
      obtain ⟨hmem, hready⟩ := List.mem_filter.mp hmem
      cases slot with
      | loading a => cases hready
      | ready value =>
        obtain ⟨a, hfinished⟩ := h.ready_iff.mp (Entries.lookup_of_mem h.nodup_keys hmem)
        exact ⟨a, value, hfinished⟩
    · rintro ⟨a, value, hmem⟩
      have hslot := Entries.mem_of_lookup (h.slot?_of_finished_ok hmem)
      exact List.mem_map.mpr ⟨(k, .ready value), List.mem_filter.mpr ⟨hslot, rfl⟩, rfl⟩
  · have hcount : c.readyCount = (c.slots.filter (·.2.isReady)).length := List.countP_eq_length_filter
    rw [hcount, List.length_map]

end LoadCache

namespace Task

variable {σ ι : Type} [BEq κ] {l : Loader σ κ ι α} {s : σ}

omit [BEq κ] in
theorem countP_endNotes (key : κ) (a : AttemptId) (p : Poll (Task κ ι) α) :
    (endNotes key a p).countP Note.isBegan = 0 := by
  cases p <;> rfl

theorem countP_pollNotes (t : Task κ ι) (s : σ) :
    (t.pollNotes l s).countP Note.isBegan = if (t.opens? (l.get s)).isSome then 1 else 0 := by
  cases t with
  | asked key load =>
    cases hs : (l.get s).slot? key with
    | none =>
      rw [pollNotes_of_empty load hs, opens?_asked_of_empty hs, List.countP_append, countP_endNotes]
      rfl
    | some slot =>
      rw [pollNotes_of_slot load hs, opens?, hs]
      rfl
  | leading key a load => exact countP_endNotes key a _
  | waiting key a => rfl

end Task

namespace LoadSession

open SharedLoads

variable {s : LoadSession α} {e : LoadEvent α} {events : List (LoadEvent α)} {id key : String}
  {loads : SharedLoads α} {load : OwnLoad α} {value : α}

theorem countP_notes (s : LoadSession α) (e : LoadEvent α) :
    (s.notes e).countP Note.isBegan = if (s.opens? e).isSome then 1 else 0 := by
  have hdrop : (s.dropNotes e).countP Note.isBegan = 0 := by
    refine List.countP_eq_zero.mpr fun n hn => ?_
    obtain ⟨k, a, rfl⟩ := dropped_of_mem_dropNotes hn
    exact nofun
  cases hp : s.polled? e with
  | some p =>
    obtain ⟨id, t, loads⟩ := p
    have hopens : s.opens? e = t.opens? loads.cache := by
      rcases polled_cases hp with ⟨key, outcome, rfl, rfl, rfl⟩ | ⟨rfl, ht, rfl⟩
      · rfl
      · rw [opens?, ht]
        rfl
    rw [notes_of_polled hp, List.countP_append, hdrop, hopens]
    exact Task.countP_pollNotes t loads
  | none =>
    have hnone : s.opens? e = none := by
      cases e with
      | start id key isLazy outcome =>
        cases isLazy with
        | true => rfl
        | false => cases hp
      | poll id =>
        have hid : s.task? id = none := Option.map_eq_none_iff.mp hp
        rw [opens?, hid]
        rfl
      | decide => rfl
      | drop => rfl
      | value => rfl
      | isLoading => rfl
    have hpoll : s.pollNotes e = [] := by rw [pollNotes, hp]
    rw [LoadSession.notes, hpoll, hnone]
    exact hdrop

theorem runs_eq (events : List (LoadEvent α)) :
    (after events).loads.runs = (history events).countP Note.isBegan := by
  induction events using List.reverseRecOn with
  | nil => rfl
  | append_singleton events e ih =>
    have hruns := ((after events).step_takes e).runs (after_inv events)
    rw [after_concat, history_concat, List.countP_append, countP_notes, hruns, ih, Nat.add_comm]

section Polled

variable (hp : (after events).polled? e = some (id, .asked key load, loads))

include hp

theorem done_of_value (hv : (after events).loads.cache.value? key = some value) :
    ((after events).step e).2 = .done (.ok value) := by
  have hserves := polled_serves (after_inv events) (after_serves events) hp
  have hslot := LoadCache.value?_eq_some_iff.mp hv
  obtain ⟨a, hmem⟩ := (after_serves events).records.ready_iff.mp hslot
  have hready := hserves.records.slot?_of_finished_ok (List.mem_append_right _ hmem)
  have hreply := (step_of_polled hp).2.2
  rwa [Task.poll_asked_of_ready load hready] at hreply

theorem began_of_empty (hs : (after events).loads.cache.slot? key = none) :
    .began key loads.cache.attempts.length ∈ (after events).notes e := by
  have hempty : loads.cache.slot? key = none := by
    rcases polled_cases hp with ⟨key, outcome, rfl, ht, rfl⟩ | ⟨rfl, -, rfl⟩
    · cases ht
      rcases (after events).slot?_drop id key with hkept | ⟨hdropped, -⟩
      · exact hkept.trans hs
      · exact hdropped
    · exact hs
  rw [notes_of_polled hp, Task.pollNotes_of_empty load hempty]
  exact List.mem_append_left _ (List.mem_append_right _ List.mem_cons_self)

end Polled

section Ended

variable {later middle before : List (Note String α)} {n : Note String α} {a : AttemptId}

theorem value_kept (hv : (after events).loads.cache.value? key = some value) (later : List (LoadEvent α)) :
    (after (events ++ later)).loads.cache.value? key = some value ∧
      ∀ n ∈ historyFrom (after events) later, n.key ≠ key := by
  have hrecords := (after_serves events).records
  have hlater := (after_serves (events ++ later)).records
  have hslot := LoadCache.value?_eq_some_iff.mp hv
  obtain ⟨a, hmem⟩ := hrecords.ready_iff.mp hslot
  rw [history_append] at hlater
  have hslot' := hlater.slot?_of_finished_ok (List.mem_append_right _ hmem)
  exact ⟨LoadCache.value?_eq_some_iff.mpr hslot', fun n hn => hrecords.key_ne_of_ready_append hlater hslot hn⟩

theorem rolled_back (hhistory : history events = later ++ (n :: middle ++ .began key a :: before))
    (hkey : n.key = key) (hslot : n.slot? = none) :
    Note.slotOf? before key = none ∧
    (∀ k, Note.slotOf? (n :: middle ++ .began key a :: before) k =
      Note.slotOf? (middle.filter (·.key != key) ++ before) k) ∧
    ((∀ m ∈ later, m.key ≠ key) → (after events).loads.cache.slot? key = none) := by
  have hrecords := (after_serves events).records
  rw [hhistory] at hrecords
  obtain ⟨c, hended⟩ := hrecords.of_append
  have hbefore := hended.slotOf?_before_began
  refine ⟨hbefore, Note.slotOf?_rollback hkey hslot hbefore, fun hlater => ?_⟩
  have hother : ∀ m ∈ later, ¬ m.key == key := fun m hm => by simpa using hlater m hm
  rw [hrecords.slot?_eq, Note.slotOf?_append_of_forall hother, List.cons_append, Note.slotOf?_cons,
    if_pos (beq_iff_eq.mpr hkey), hslot]

end Ended

/-- After any events: the history tells every slot, how many loads have been started, and which values
are kept.  A key with a value keeps it, whatever comes later: nothing is noted about the key any more, and
who asks for it gets the value at once.  An attempt that fails or is dropped leaves every slot as it were
had nothing been noted of its key since the attempt began, when the slot was empty; and as long as nothing
else is noted of the key, who asks for it begins an attempt. -/
theorem permanence_and_rollback (events : List (LoadEvent α)) (key : String) :
    let s := after events
    (∀ k, s.loads.cache.slot? k = Note.slotOf? (history events) k) ∧
    s.loads.runs = (history events).countP Note.isBegan ∧
    (∃ keys : List String, keys.Nodup ∧
      (∀ k, k ∈ keys ↔ ∃ a value, .finished k a (.ok value) ∈ history events) ∧
      s.loads.cache.readyCount = keys.length) ∧
    (∀ value, s.loads.cache.value? key = some value → ∀ later,
      let s' := after (events ++ later)
      s'.loads.cache.value? key = some value ∧
      (∀ n ∈ historyFrom s later, n.key ≠ key) ∧
      ∀ e id load loads, s'.polled? e = some (id, .asked key load, loads) →
        (s'.step e).2 = .done (.ok value)) ∧
    ∀ later n middle a before,
      history events = later ++ (n :: middle ++ .began key a :: before) →
      (n = .dropped key a ∨ ∃ error, n = .finished key a (.error error)) →
      Note.slotOf? before key = none ∧
      (∀ k, Note.slotOf? (n :: middle ++ .began key a :: before) k =
        Note.slotOf? (middle.filter (·.key != key) ++ before) k) ∧
      ((∀ m ∈ later, m.key ≠ key) →
        ∀ e id load loads, s.polled? e = some (id, .asked key load, loads) →
          .began key loads.cache.attempts.length ∈ s.notes e) := by
  intro s
  have hrecords := (after_serves events).records
  refine ⟨hrecords.slot?_eq, runs_eq events, hrecords.readyCount_eq, fun value hv later => ?_,
    fun later n middle a before hhistory hfailed => ?_⟩
  · obtain ⟨hvalue, hnotes⟩ := value_kept hv later
    exact ⟨hvalue, hnotes, fun e id load loads hp => done_of_value hp hvalue⟩
  · obtain ⟨hkey, hnone⟩ : n.key = key ∧ n.slot? = none := by
      rcases hfailed with rfl | ⟨error, rfl⟩ <;> exact ⟨rfl, rfl⟩
    obtain ⟨hbefore, hslots, hempty⟩ := rolled_back hhistory hkey hnone
    exact ⟨hbefore, hslots, fun hlater e id load loads hp => began_of_empty hp (hempty hlater)⟩

def droppedLoad : List (LoadEvent Nat) := [.start "x" "k" false none, .drop "x"]

def retriedLoad : List (LoadEvent Nat) := droppedLoad ++ [.start "y" "k" false (some (.ok 7))]

theorem permanence_and_rollback_retry :
    .began "k" 1 ∈ (after droppedLoad).notes (.start "y" "k" false (some (.ok 7))) ∧
    ((after (retriedLoad ++ [.drop "x"])).step (.start "z" "k" false none)).2 = .done (.ok 7) := by
  obtain ⟨-, -, -, -, hrollback⟩ := permanence_and_rollback droppedLoad "k"
  obtain ⟨-, -, -, hpermanence, -⟩ := permanence_and_rollback retriedLoad "k"
  constructor
  · have hhistory : history droppedLoad = [] ++ (.dropped "k" 0 :: [] ++ .began "k" 0 :: []) := rfl
    obtain ⟨-, -, hbegins⟩ := hrollback [] _ [] 0 [] hhistory (.inl rfl)
    exact hbegins (fun m hm => nomatch hm) (.start "y" "k" false (some (.ok 7))) "y" _ _ rfl
  · obtain ⟨-, -, hdone⟩ := hpermanence 7 (by decide +kernel) [.drop "x"]
    exact hdone (.start "z" "k" false none) "z" _ _ rfl

end LoadSession

end GrammarScopes
