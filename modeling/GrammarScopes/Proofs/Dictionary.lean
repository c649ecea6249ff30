import GrammarScopes.Dictionary
import Mathlib.Data.List.Nodup
import Mathlib.Data.String.Basic

/-!
Dictionaries are sorted by their keys, and a sorted one is told by its entries.
-/

namespace GrammarScopes.Dictionary

variable {α : Type} {key k : String} {value v : α} {es es' : List (String × α)}

def Sorted (es : List (String × α)) : Prop := es.Pairwise (·.1 < ·.1)

theorem mem_insert {e : String × α} (h : e ∈ insert key value es) : e = (key, value) ∨ e ∈ es := by
  induction es with
  | nil => exact .inl (List.mem_singleton.mp h)
  | cons e' es ih =>
    unfold insert at h
    split at h
    next => exact List.mem_cons.mp h
    next =>
      split at h
      next => exact (List.mem_cons.mp h).imp_right (List.mem_cons_of_mem _)
      next =>
        rcases List.mem_cons.mp h with rfl | h
        · exact .inr List.mem_cons_self
        · exact (ih h).imp_right (List.mem_cons_of_mem _)

theorem Sorted.insert (h : Sorted es) : Sorted (insert key value es) := by
  induction es with
  | nil => exact List.pairwise_singleton _ _
  | cons e es ih =>
    obtain ⟨hlt, hes⟩ := List.pairwise_cons.mp h
    unfold Dictionary.insert
    split
    next hkey =>
      refine List.pairwise_cons.mpr ⟨fun e' he' => ?_, h⟩
      rcases List.mem_cons.mp he' with rfl | he'
      · exact hkey
      · exact hkey.trans (hlt e' he')
    next hkey =>
      split
      next heq => exact List.pairwise_cons.mpr ⟨heq ▸ hlt, hes⟩
      next hne =>
        refine List.pairwise_cons.mpr ⟨fun e' he' => ?_, ih hes⟩
        rcases mem_insert he' with rfl | he'
        · exact lt_of_le_of_ne (not_lt.mp hkey) (Ne.symm hne)
        · exact hlt e' he'

theorem insert_of_forall_lt (h : ∀ e ∈ es, e.1 < key) : insert key value es = es ++ [(key, value)] := by
  induction es with
  | nil => rfl
  | cons e es ih =>
    obtain ⟨hlt, hes⟩ := List.forall_mem_cons.mp h
    rw [insert, if_neg (lt_asymm hlt), if_neg (ne_of_gt hlt), ih hes, List.cons_append]

theorem find?_eq_none_of_forall_lt (h : ∀ e ∈ es, e.1 < key) : find? es key = none := by
  rw [find?, Option.map_eq_none_iff, List.find?_eq_none]
  intro e he
  simpa using ne_of_lt (h e he)

theorem sorted_foldl_insert {acc : List (String × α)} (h : Sorted acc) (es : List (String × α)) :
    Sorted (es.foldl (fun entries e => Dictionary.insert e.1 e.2 entries) acc) := by
  induction es generalizing acc with
  | nil => exact h
  | cons e es ih => exact ih h.insert

theorem foldl_insert_append (acc : List (String × α)) (h : Sorted (acc ++ es)) :
    es.foldl (fun entries e => insert e.1 e.2 entries) acc = acc ++ es := by
  induction es generalizing acc with
  | nil => exact (List.append_nil acc).symm
  | cons e es ih =>
    have hlt : ∀ e' ∈ acc, e'.1 < e.1 := fun e' he' =>
      (List.pairwise_append.mp h).2.2 e' he' e List.mem_cons_self
    rw [List.foldl_cons, insert_of_forall_lt hlt, ih _ (by simpa using h), List.append_assoc,
      List.singleton_append]

theorem foldl_insert (h : Sorted es) : es.foldl (fun entries e => insert e.1 e.2 entries) [] = es :=
  foldl_insert_append [] h

theorem Sorted.nodup_keys (h : Sorted es) : (es.map (·.1)).Nodup :=
  List.pairwise_map.mpr (h.imp ne_of_lt)

theorem Sorted.ext (h : Sorted es) (h' : Sorted es') (hmem : ∀ e, e ∈ es ↔ e ∈ es') : es = es' := by
  have hperm : es.Perm es' :=
    (List.perm_ext_iff_of_nodup h.nodup_keys.of_map h'.nodup_keys.of_map).mpr hmem
  refine hperm.eq_of_pairwise (fun a b _ _ hab hba => ?_) h h'
  exact absurd hba (lt_asymm hab)

theorem mem_of_find? (h : find? es key = some value) : (key, value) ∈ es := by
  obtain ⟨e, he, rfl⟩ := Option.map_eq_some_iff.mp h
  have hkey : e.1 = key := by simpa using List.find?_some he
  exact hkey ▸ List.mem_of_find?_eq_some he

theorem find?_of_mem (h : (es.map (·.1)).Nodup) (hmem : (key, value) ∈ es) : find? es key = some value := by
  obtain ⟨v, hv⟩ : ∃ v, find? es key = some v := by
    rw [← Option.isSome_iff_exists, find?, Option.isSome_map, List.find?_isSome]
    exact ⟨_, hmem, beq_self_eq_true key⟩
  have hsame := List.inj_on_of_nodup_map h (mem_of_find? hv) hmem rfl
  cases hsame
  exact hv

theorem perm_insert {key : String} {value : α} {es : List (String × α)} (h : key ∉ es.map (·.1)) :
    (insert key value es).Perm ((key, value) :: es) := by
  induction es with
  | nil => exact .refl _
  | cons e es ih =>
    obtain ⟨hne, hes⟩ := not_or.mp (List.mem_cons.not.mp h)
    unfold insert
    split
    next => exact .refl _
    next => exact ((ih hes).cons e).trans (List.Perm.swap _ _ _)

theorem mem_keys_of_find? {key : String} {es : List (String × α)} (h : (find? es key).isSome) :
    key ∈ es.map (·.1) := by
  rw [find?, Option.isSome_map, List.find?_isSome] at h
  obtain ⟨e, he, hkey⟩ := h
  exact List.mem_map.mpr ⟨e, he, eq_of_beq hkey⟩

end GrammarScopes.Dictionary
