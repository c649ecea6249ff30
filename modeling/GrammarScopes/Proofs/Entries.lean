import Mathlib.Data.List.Perm.Basic

/-!
Lists of entries by key: what is left when the entries of one key are taken out.
-/

namespace GrammarScopes.Entries

variable {κ β : Type}

theorem filterMap_cons {α : Type} (f : α → Option β) (a : α) (as : List α) :
    (a :: as).filterMap f = (f a).toList ++ as.filterMap f := by
  rw [List.filterMap_cons]
  cases f a <;> rfl

theorem nodup_keys_filter (p : κ × β → Bool) {es : List (κ × β)} (hes : (es.map (·.1)).Nodup) :
    ((es.filter p).map (·.1)).Nodup :=
  hes.sublist ((List.filter_sublist).map _)

variable [BEq κ] [LawfulBEq κ]

theorem lookup_filter_ne (key k : κ) (es : List (κ × β)) :
    (es.filter (·.1 != key)).lookup k = if k == key then none else es.lookup k := by
  induction es with
  | nil => simp
  | cons e es ih =>
    obtain ⟨k', v⟩ := e
    by_cases he : k' = key
    · subst he
      rw [List.filter_cons_of_neg (by simp), ih, List.lookup_cons]
      by_cases hk : k == k' <;> simp [hk]
    · rw [List.filter_cons_of_pos (by simpa using he), List.lookup_cons, ih, List.lookup_cons]
      by_cases hk : k == k'
      · rw [eq_of_beq hk]
        simp [he]
      · simp [hk]

theorem filter_ne_eq_self {key : κ} {es : List (κ × β)} (h : key ∉ es.map (·.1)) :
    es.filter (·.1 != key) = es := by
  rw [List.filter_eq_self]
  intro e he
  have hne : e.1 ≠ key := fun heq => h (heq ▸ List.mem_map.mpr ⟨e, he, rfl⟩)
  simpa using hne

theorem not_mem_keys_of_lookup {key : κ} {es : List (κ × β)} (h : es.lookup key = none) :
    key ∉ es.map (·.1) := by
  intro hmem
  obtain ⟨e, he, rfl⟩ := List.mem_map.mp hmem
  exact absurd (beq_self_eq_true e.1) (by simpa using List.lookup_eq_none_iff.mp h e he)

theorem mem_of_lookup {key : κ} {v : β} {es : List (κ × β)} (h : es.lookup key = some v) :
    (key, v) ∈ es := by
  obtain ⟨l₁, l₂, rfl, -⟩ := List.lookup_eq_some_iff.mp h
  exact List.mem_append_right _ List.mem_cons_self

theorem lookup_of_mem {key : κ} {v : β} {es : List (κ × β)} (hes : (es.map (·.1)).Nodup)
    (h : (key, v) ∈ es) : es.lookup key = some v := by
  induction es with
  | nil => cases h
  | cons e es ih =>
    obtain ⟨k, w⟩ := e
    obtain ⟨hnot, hnodup⟩ := List.nodup_cons.mp hes
    rcases List.mem_cons.mp h with heq | h
    · cases heq
      exact List.lookup_cons_self
    · have hne : key ≠ k := fun heq => hnot (List.mem_map.mpr ⟨_, h, heq⟩)
      rw [List.lookup_cons, beq_false_of_ne hne, ih hnodup h]

theorem perm_of_lookup {key : κ} {v : β} {es : List (κ × β)} (hes : (es.map (·.1)).Nodup)
    (h : es.lookup key = some v) : es.Perm ((key, v) :: es.filter (·.1 != key)) := by
  induction es with
  | nil => cases h
  | cons e es ih =>
    obtain ⟨k', w⟩ := e
    obtain ⟨hnot, hnodup⟩ := List.nodup_cons.mp hes
    by_cases hk : key = k'
    · subst hk
      rw [List.lookup_cons_self] at h
      cases h
      rw [List.filter_cons_of_neg (by simp), filter_ne_eq_self hnot]
    · rw [List.lookup_cons, beq_false_of_ne hk] at h
      rw [List.filter_cons_of_pos (by simpa using Ne.symm hk)]
      exact ((ih hnodup h).cons _).trans (List.Perm.swap _ _ _)

end GrammarScopes.Entries
