import GrammarScopes.Proofs.Loading.Slots

/-!
Notes of what happens to the attempts of a cache.  The latest note about a key tells its slot, and what
is noted of an attempt tells how it stands.
-/

namespace GrammarScopes

variable {κ α : Type}

inductive Note (κ α : Type)
  | began (key : κ) (attempt : AttemptId)
  | finished (key : κ) (attempt : AttemptId) (result : Except ScopeError α)
  | dropped (key : κ) (attempt : AttemptId)

namespace Note

def key : Note κ α → κ
  | began key _ | finished key _ _ | dropped key _ => key

def attempt : Note κ α → AttemptId
  | began _ a | finished _ a _ | dropped _ a => a

def isBegan : Note κ α → Bool
  | began .. => true
  | finished .. | dropped .. => false

def slot? : Note κ α → Option (Slot α)
  | began _ a => some (.loading a)
  | finished _ _ result => LoadCache.resultSlot result
  | dropped .. => none

def status : Note κ α → AttemptStatus α
  | began .. => .running
  | finished _ _ result => .finished result
  | dropped .. => .abandoned

/-- What the notes, the latest first, say of the slot of a key. -/
def slotOf? [BEq κ] (notes : List (Note κ α)) (key : κ) : Option (Slot α) :=
  (notes.find? (·.key == key)).bind slot?

/-- What those are told who wait for an attempt that has ended. -/
def Tells (describe : κ → String) (notes : List (Note κ α)) (key : κ) (a : AttemptId)
    (result : Except ScopeError α) : Prop :=
  finished key a result ∈ notes ∨
    dropped key a ∈ notes ∧ result = .error (.abandoned (describe key))

variable {n : Note κ α} {notes : List (Note κ α)} {k : κ} {a : AttemptId} {value : α}

theorem eq_began_of_slot? (h : n.slot? = some (.loading a)) : n = began n.key a := by
  cases n with
  | began key b => cases h; rfl
  | finished key b result => cases result <;> cases h
  | dropped key b => cases h

theorem eq_finished_of_slot? (h : n.slot? = some (.ready value)) :
    n = finished n.key n.attempt (.ok value) := by
  cases n with
  | began key b => cases h
  | finished key b result =>
    cases result with
    | ok w => cases h; rfl
    | error e => cases h
  | dropped key b => cases h

theorem eq_finished_of_status {result : Except ScopeError α} (h : n.status = .finished result) :
    n = finished n.key n.attempt result := by
  cases n with
  | began key b => cases h
  | finished key b r => cases h; rfl
  | dropped key b => cases h

theorem eq_dropped_of_status (h : n.status = .abandoned) : n = dropped n.key n.attempt := by
  cases n with
  | began key b => cases h
  | finished key b r => cases h
  | dropped key b => rfl

variable [BEq κ]

theorem slotOf?_cons (n : Note κ α) (notes : List (Note κ α)) (k : κ) :
    slotOf? (n :: notes) k = if n.key == k then n.slot? else slotOf? notes k := by
  unfold slotOf?
  rw [List.find?_cons]
  by_cases h : n.key == k <;> simp [h]

theorem slotOf?_append_of_forall {others : List (Note κ α)} (h : ∀ n ∈ others, ¬ n.key == k) :
    slotOf? (others ++ notes) k = slotOf? notes k := by
  have hnone : others.find? (·.key == k) = none := List.find?_eq_none.mpr h
  simp [slotOf?, List.find?_append, hnone]

theorem exists_of_slotOf? [LawfulBEq κ] {slot : Slot α} (h : slotOf? notes k = some slot) :
    ∃ n ∈ notes, n.key = k ∧ n.slot? = some slot := by
  obtain ⟨n, hn, hslot⟩ := Option.bind_eq_some_iff.mp h
  have hkey := List.find?_some hn
  exact ⟨n, List.mem_of_find?_eq_some hn, eq_of_beq hkey, hslot⟩

theorem began_mem_of_slotOf? [LawfulBEq κ] (h : slotOf? notes k = some (.loading a)) :
    began k a ∈ notes := by
  obtain ⟨n, hn, rfl, hslot⟩ := exists_of_slotOf? h
  exact eq_began_of_slot? hslot ▸ hn

end Note

namespace LoadCache

variable [BEq κ]

def note (c : LoadCache κ α) : Note κ α → LoadCache κ α
  | .began key _ => (c.begin key).1
  | .finished key a result => c.settle key a result
  | .dropped key a => c.abandon key a

/-- Whether a note is what may happen next: an attempt begins in an empty slot, and ends in its own. -/
def Admits (c : LoadCache κ α) : Note κ α → Prop
  | .began key a => c.slot? key = none ∧ a = c.attempts.length
  | .finished key a _ | .dropped key a => c.slot? key = some (.loading a)

/-- The notes, the latest first, of all that has happened to a cache. -/
inductive Records : LoadCache κ α → List (Note κ α) → Prop
  | empty : Records {} []
  | note {c : LoadCache κ α} {notes : List (Note κ α)} {n : Note κ α} (h : Records c notes)
      (hn : c.Admits n) : Records (c.note n) (n :: notes)

variable {c : LoadCache κ α} {notes : List (Note κ α)} {n m : Note κ α} {key k : κ} {a : AttemptId}
  {value : α} {result : Except ScopeError α}

theorem nodup_keys_put (h : (c.slots.map (·.1)).Nodup) [LawfulBEq κ] (key : κ) (slot : Slot α) :
    ((c.put key slot).slots.map (·.1)).Nodup := by
  refine List.nodup_cons.mpr ⟨?_, Entries.nodup_keys_filter _ h⟩
  simp [erase]

theorem value?_eq_some_iff : c.value? key = some value ↔ c.slot? key = some (.ready value) := by
  unfold value?
  constructor
  · intro h
    split at h
    next hs => cases h; exact hs
    next => cases h
  · intro h
    rw [h]

theorem Admits.loading (hn : c.Admits n) (hbegan : n.isBegan = false) :
    c.slot? n.key = some (.loading n.attempt) := by
  cases n with
  | began => cases hbegan
  | finished => exact hn
  | dropped => exact hn

theorem Admits.attempt_eq (hn : c.Admits n) (hbegan : n.isBegan = true) :
    n.attempt = c.attempts.length := by
  cases n with
  | began => exact hn.2
  | finished => cases hbegan
  | dropped => cases hbegan

theorem length_attempts_note (c : LoadCache κ α) (n : Note κ α) :
    (c.note n).attempts.length = c.attempts.length + if n.isBegan then 1 else 0 := by
  cases n with
  | began => exact List.length_append
  | finished => exact List.length_set
  | dropped => exact List.length_set

theorem Admits.key_ne_of_ready (hn : c.Admits n) (hs : c.slot? key = some (.ready value)) :
    n.key ≠ key := by
  rintro rfl
  cases n with
  | began =>
    have hnone : c.slot? _ = none := hn.1
    exact nomatch hs.symm.trans hnone
  | finished =>
    have hloading : c.slot? _ = some (.loading _) := hn
    exact nomatch hs.symm.trans hloading
  | dropped =>
    have hloading : c.slot? _ = some (.loading _) := hn
    exact nomatch hs.symm.trans hloading

theorem status?_note_of_ne (hn : c.Admits n) (ha : a ≠ n.attempt) :
    (c.note n).status? a = c.status? a := by
  cases n with
  | began key b => exact (c.status?_begin key a).trans (if_neg (hn.2 ▸ ha))
  | finished key b result => exact c.status?_settle key b a ha
  | dropped key b => exact c.status?_abandon key b a ha

theorem status?_note_self (hn : c.Admits n) (hlt : n.isBegan = false → n.attempt < c.attempts.length) :
    (c.note n).status? n.attempt = some n.status := by
  cases n with
  | began key b => exact (c.status?_begin key b).trans (if_pos hn.2)
  | finished key b result =>
    have hb : b < c.attempts.length := hlt rfl
    cases result <;> simp [note, settle, status?, Note.attempt, Note.status, hb]
  | dropped key b =>
    have hb : b < c.attempts.length := hlt rfl
    simp [note, abandon, status?, Note.attempt, Note.status, hb]

variable [LawfulBEq κ]

theorem slot?_note (hn : c.Admits n) (k : κ) :
    (c.note n).slot? k = if n.key == k then n.slot? else c.slot? k := by
  have hcomm : (n.key == k) = (k == n.key) := BEq.comm
  rw [hcomm]
  cases n with
  | began key b => rw [note, slot?_begin, ← hn.2]; rfl
  | finished key b result => exact c.slot?_settle key k b result
  | dropped key b => exact c.slot?_abandon key k b

namespace Records

theorem slot?_eq (h : c.Records notes) (k : κ) : c.slot? k = Note.slotOf? notes k := by
  induction h with
  | empty => rfl
  | note h hn ih => rw [slot?_note hn, Note.slotOf?_cons, ih]

theorem began_of_loading (h : c.Records notes) (hs : c.slot? key = some (.loading a)) :
    .began key a ∈ notes :=
  Note.began_mem_of_slotOf? (h.slot?_eq key ▸ hs)

theorem attempt_lt (h : c.Records notes) (hm : m ∈ notes) : m.attempt < c.attempts.length := by
  induction h generalizing m with
  | empty => cases hm
  | @note c notes n h hn ih =>
    rw [length_attempts_note]
    rcases List.mem_cons.mp hm with rfl | hm
    · cases hb : m.isBegan with
      | true => simp [hn.attempt_eq hb]
      | false =>
        have hlt := ih (h.began_of_loading (hn.loading hb))
        exact Nat.lt_add_right _ hlt
    · exact Nat.lt_add_right _ (ih hm)

theorem attempt_lt_of_admits (h : c.Records notes) (hn : c.Admits n) (hb : n.isBegan = false) :
    n.attempt < c.attempts.length := by
  have hlt := h.attempt_lt (h.began_of_loading (hn.loading hb))
  exact hlt

theorem key_eq_of_admits (h : c.Records notes) (hn : c.Admits n) (hm : m ∈ notes)
    (hunique : ∀ m' ∈ notes, m'.attempt = m.attempt → m'.key = m.key)
    (ha : n.attempt = m.attempt) : n.key = m.key := by
  cases hb : n.isBegan with
  | true =>
    have hlt := h.attempt_lt hm
    rw [← ha, hn.attempt_eq hb] at hlt
    exact absurd hlt (Nat.lt_irrefl _)
  | false =>
    exact hunique (.began n.key n.attempt) (h.began_of_loading (hn.loading hb)) ha

theorem key_eq (h : c.Records notes) (hn : n ∈ notes) (hm : m ∈ notes)
    (ha : n.attempt = m.attempt) : n.key = m.key := by
  induction h generalizing n m with
  | empty => cases hn
  | note h hadmits ih =>
    rcases List.mem_cons.mp hn with rfl | hn'
    · rcases List.mem_cons.mp hm with rfl | hm
      · rfl
      · exact h.key_eq_of_admits hadmits hm (fun m' hm' => ih hm' hm) ha
    · rcases List.mem_cons.mp hm with rfl | hm'
      · exact (h.key_eq_of_admits hadmits hn' (fun m' hm' => ih hm' hn') ha.symm).symm
      · exact ih hn' hm' ha

theorem running_of_loading (h : c.Records notes) (hs : c.slot? key = some (.loading a)) :
    c.status? a = some .running := by
  induction h generalizing key a with
  | empty => cases hs
  | @note c notes n h hn ih =>
    rw [slot?_note hn] at hs
    split at hs
    next hk =>
      obtain rfl := eq_of_beq hk
      have hbegan := Note.eq_began_of_slot? hs
      rw [hbegan] at hn ⊢
      exact (c.status?_begin _ a).trans (if_pos hn.2)
    next hk =>
      -- the note is about another attempt, since that one is made for another key
      have ha : a ≠ n.attempt := by
        intro ha
        refine hk (beq_iff_eq.mpr ?_)
        have hm := h.began_of_loading hs
        exact h.key_eq_of_admits hn hm (fun m' hm' => h.key_eq hm' hm) ha.symm
      rw [status?_note_of_ne hn ha, ih hs]

theorem attempt_ne_of_ended (h : c.Records notes) (hn : c.Admits n)
    (hm : c.status? m.attempt = some m.status) (hmem : m ∈ notes) (hended : m.isBegan = false) :
    m.attempt ≠ n.attempt := by
  intro ha
  cases hb : n.isBegan with
  | true =>
    -- an attempt that begins is newer than those that are noted
    have hlt := h.attempt_lt hmem
    rw [ha, hn.attempt_eq hb] at hlt
    exact absurd hlt (Nat.lt_irrefl _)
  | false =>
    -- one that ends has been running until now
    have hrun := h.running_of_loading (hn.loading hb)
    rw [← ha, hm] at hrun
    cases m with
    | began => cases hended
    | finished => cases hrun
    | dropped => cases hrun

theorem status?_of_ended (h : c.Records notes) (hm : m ∈ notes) (hended : m.isBegan = false) :
    c.status? m.attempt = some m.status := by
  induction h with
  | empty => cases hm
  | @note c notes n h hn ih =>
    rcases List.mem_cons.mp hm with rfl | hm
    · exact status?_note_self hn fun hb => h.attempt_lt_of_admits hn hb
    · have hne := h.attempt_ne_of_ended hn (ih hm) hm hended
      rw [status?_note_of_ne hn hne, ih hm]

theorem exists_of_status? {status : AttemptStatus α} (h : c.Records notes)
    (hs : c.status? a = some status) : ∃ n ∈ notes, n.attempt = a ∧ n.status = status := by
  induction h with
  | empty => cases hs
  | @note c notes n h hn ih =>
    by_cases ha : a = n.attempt
    · subst ha
      have hself := status?_note_self hn fun hb => h.attempt_lt_of_admits hn hb
      rw [hself] at hs
      exact ⟨n, List.mem_cons_self, rfl, Option.some.inj hs⟩
    · rw [status?_note_of_ne hn ha] at hs
      obtain ⟨m, hm, hattempt, hstatus⟩ := ih hs
      exact ⟨m, List.mem_cons_of_mem _ hm, hattempt, hstatus⟩

theorem status?_finished_iff (h : c.Records notes) (hbegan : .began key a ∈ notes) :
    c.status? a = some (.finished result) ↔ .finished key a result ∈ notes := by
  constructor
  · intro hs
    obtain ⟨n, hn, rfl, hstatus⟩ := h.exists_of_status? hs
    have hkey : n.key = key := h.key_eq hn hbegan rfl
    rw [← hkey]
    exact Note.eq_finished_of_status hstatus ▸ hn
  · intro hmem
    exact h.status?_of_ended hmem rfl

theorem status?_abandoned_iff (h : c.Records notes) (hbegan : .began key a ∈ notes) :
    c.status? a = some .abandoned ↔ .dropped key a ∈ notes := by
  constructor
  · intro hs
    obtain ⟨n, hn, rfl, hstatus⟩ := h.exists_of_status? hs
    have hkey : n.key = key := h.key_eq hn hbegan rfl
    rw [← hkey]
    exact Note.eq_dropped_of_status hstatus ▸ hn
  · intro hmem
    exact h.status?_of_ended hmem rfl

theorem status?_isSome (h : c.Records notes) (hbegan : .began key a ∈ notes) :
    (c.status? a).isSome := by
  have hlt : a < c.attempts.length := h.attempt_lt hbegan
  simp [status?, hlt]

theorem slot?_of_finished_ok (h : c.Records notes) (hmem : .finished key a (.ok value) ∈ notes) :
    c.slot? key = some (.ready value) := by
  induction h with
  | empty => cases hmem
  | @note c notes n h hn ih =>
    rw [slot?_note hn]
    rcases List.mem_cons.mp hmem with rfl | hmem
    · exact if_pos (beq_self_eq_true key)
    · rw [if_neg (by simpa using hn.key_ne_of_ready (ih hmem)), ih hmem]

theorem ready_iff (h : c.Records notes) :
    c.slot? key = some (.ready value) ↔ ∃ a, .finished key a (.ok value) ∈ notes := by
  constructor
  · intro hs
    rw [h.slot?_eq] at hs
    obtain ⟨n, hn, rfl, hslot⟩ := Note.exists_of_slotOf? hs
    exact ⟨n.attempt, Note.eq_finished_of_slot? hslot ▸ hn⟩
  · rintro ⟨a, hmem⟩
    exact h.slot?_of_finished_ok hmem

omit [LawfulBEq κ] in
theorem of_append {others : List (Note κ α)} (h : c.Records (others ++ notes)) :
    ∃ c' : LoadCache κ α, c'.Records notes := by
  induction others generalizing c with
  | nil => exact ⟨c, h⟩
  | cons n others ih =>
    cases h with
    | note h hn => exact ih h

theorem slotOf?_before_began {between before : List (Note κ α)}
    (h : c.Records (between ++ .began key a :: before)) : Note.slotOf? before key = none := by
  obtain ⟨c', h'⟩ := h.of_append
  cases h' with
  | note h' hn =>
    rw [← h'.slot?_eq]
    exact hn.1

theorem key_ne_of_ready_append {c' : LoadCache κ α} {later : List (Note κ α)}
    (h : c.Records notes) (h' : c'.Records (later ++ notes))
    (hs : c.slot? key = some (.ready value)) (hn : n ∈ later) : n.key ≠ key := by
  obtain ⟨a, hmem⟩ := h.ready_iff.mp hs
  induction later generalizing c' with
  | nil => cases hn
  | cons m later ih =>
    cases h' with
    | note h' hm =>
      rcases List.mem_cons.mp hn with rfl | hn
      · exact hm.key_ne_of_ready (h'.slot?_of_finished_ok (List.mem_append_right _ hmem))
      · exact ih h' hn

theorem nodup_keys (h : c.Records notes) : (c.slots.map (·.1)).Nodup := by
  induction h with
  | empty => exact List.nodup_nil
  | @note c notes n h hn ih =>
    cases n with
    | began key a => exact nodup_keys_put ih key _
    | finished key a result =>
      cases result with
      | ok value => exact nodup_keys_put ih key _
      | error e => exact Entries.nodup_keys_filter _ ih
    | dropped key a => exact Entries.nodup_keys_filter _ ih

end Records

end LoadCache

end GrammarScopes
