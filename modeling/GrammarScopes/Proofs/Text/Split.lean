import GrammarScopes.Text.Split
import Mathlib.Data.List.Basic

/-!
Text that is cut at a mark: the pieces, and what they are pieces of.
-/

namespace GrammarScopes.Text

variable {mark : Char} {cs piece rest before after : List Char}

theorem splitOnce_eq_none : splitOnce mark cs = none ↔ mark ∉ cs := by
  induction cs with
  | nil => simp [splitOnce]
  | cons c cs ih =>
    by_cases hc : c = mark
    · simp [splitOnce, hc]
    · simp [splitOnce, hc, ih, Ne.symm hc]

theorem splitOnce_eq_some :
    splitOnce mark cs = some (before, after) ↔ mark ∉ before ∧ cs = before ++ mark :: after := by
  induction cs generalizing before with
  | nil => simp [splitOnce]
  | cons c cs ih =>
    rw [splitOnce]
    by_cases hc : c = mark
    · subst hc
      rw [if_pos rfl]
      constructor
      · intro h
        cases h
        exact ⟨List.not_mem_nil, rfl⟩
      · rintro ⟨hbefore, heq⟩
        cases before with
        | nil =>
          cases heq
          rfl
        | cons b bs =>
          cases heq
          exact absurd List.mem_cons_self hbefore
    · rw [if_neg hc, Option.map_eq_some_iff]
      constructor
      · rintro ⟨p, hp, heq⟩
        cases heq
        obtain ⟨hbefore, hcs⟩ := ih.mp hp
        exact ⟨List.not_mem_cons_of_ne_of_not_mem (Ne.symm hc) hbefore, congrArg (c :: ·) hcs⟩
      · rintro ⟨hbefore, heq⟩
        cases before with
        | nil => exact absurd (List.cons_eq_cons.mp heq).1 hc
        | cons b bs =>
          cases heq
          exact ⟨(bs, after), ih.mpr ⟨fun h => hbefore (List.mem_cons_of_mem _ h), rfl⟩, rfl⟩

theorem splitAll_of_not_mem (h : mark ∉ cs) : splitAll mark cs = [cs] := by
  induction cs with
  | nil => rfl
  | cons c cs ih =>
    simp only [List.mem_cons, not_or] at h
    rw [splitAll, if_neg (Ne.symm h.1), ih h.2]

theorem splitAll_append (h : mark ∉ piece) (rest : List Char) :
    splitAll mark (piece ++ mark :: rest) = piece :: splitAll mark rest := by
  induction piece with
  | nil => rw [List.nil_append, splitAll, if_pos rfl]
  | cons c piece ih =>
    simp only [List.mem_cons, not_or] at h
    rw [List.cons_append, splitAll, if_neg (Ne.symm h.1), ih h.2]

@[elab_as_elim]
theorem pieceInduction (mark : Char) {P : List Char → Prop} (last : ∀ piece, mark ∉ piece → P piece)
    (more : ∀ piece rest, mark ∉ piece → P rest → P (piece ++ mark :: rest)) (cs : List Char) : P cs := by
  have hlength : ∀ n (cs : List Char), cs.length ≤ n → P cs := by
    intro n
    induction n with
    | zero =>
      intro cs hcs
      apply last
      simp [List.eq_nil_of_length_eq_zero (Nat.le_zero.mp hcs)]
    | succ n ih =>
      intro cs hcs
      by_cases hmark : mark ∈ cs
      · obtain ⟨piece, rest, rfl, hpiece⟩ := List.eq_append_cons_of_mem hmark
        apply more piece rest hpiece
        apply ih
        simp only [List.length_append, List.length_cons] at hcs
        omega
      · exact last cs hmark
  exact hlength cs.length cs (Nat.le_refl _)

theorem splitAll_flatMap {pieces : List (List Char)} (h : ∀ piece ∈ pieces, mark ∉ piece) :
    splitAll mark (pieces.flatMap (· ++ [mark])) = pieces ++ [[]] := by
  induction pieces with
  | nil => rfl
  | cons piece pieces ih =>
    obtain ⟨hpiece, hpieces⟩ := List.forall_mem_cons.mp h
    rw [List.flatMap_cons, List.append_assoc, List.singleton_append, splitAll_append hpiece, ih hpieces,
      List.cons_append]

theorem splitAll_intercalate {pieces : List (List Char)} (hne : pieces ≠ [])
    (h : ∀ piece ∈ pieces, mark ∉ piece) : splitAll mark ([mark].intercalate pieces) = pieces := by
  induction pieces with
  | nil => exact absurd rfl hne
  | cons piece pieces ih =>
    obtain ⟨hpiece, hpieces⟩ := List.forall_mem_cons.mp h
    cases pieces with
    | nil => rw [List.intercalate_singleton, splitAll_of_not_mem hpiece]
    | cons next pieces =>
      rw [List.intercalate_cons_cons, List.append_assoc, List.singleton_append, splitAll_append hpiece,
        ih (by simp) hpieces]

theorem not_mem_intercalate {c : Char} (hc : c ≠ mark) {pieces : List (List Char)} (h : ∀ piece ∈ pieces, c ∉ piece) :
    c ∉ [mark].intercalate pieces := by
  induction pieces with
  | nil => simp [List.intercalate_nil]
  | cons piece pieces ih =>
    obtain ⟨hpiece, hpieces⟩ := List.forall_mem_cons.mp h
    cases pieces with
    | nil => rwa [List.intercalate_singleton]
    | cons next pieces =>
      rw [List.intercalate_cons_cons]
      simp [hpiece, hc, ih hpieces]

end GrammarScopes.Text
