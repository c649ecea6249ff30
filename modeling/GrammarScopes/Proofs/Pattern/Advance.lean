import GrammarScopes.Proofs.Pattern.Takes

/-!
Matching goes forward.  A way through a node leads at least as many characters further on as the node consumes at
least, and not beyond the end of the text.
-/

namespace GrammarScopes.Pattern

/-- At least `n` characters further on, but not beyond the end. -/
def Advances (t : Subject) (n : Nat) (s s' : Attempt) : Prop :=
  s.pos + n ≤ s'.pos ∧ (s.pos ≤ t.chars.size → s'.pos ≤ t.chars.size)

variable {t : Subject} {s s' s'' : Attempt} {called : GroupRef → Attempt → Attempt → Prop} {m n : Nat}

theorem Advances.refl (s : Attempt) : Advances t 0 s s := ⟨Nat.le_refl _, id⟩

theorem Advances.of_pos_eq (h : s'.pos = s.pos) : Advances t 0 s s' := ⟨Nat.le_of_eq h.symm, fun hs => h ▸ hs⟩

theorem Advances.moveTo {p : Nat} (hp : s.pos + n ≤ p) (hle : s.pos ≤ t.chars.size → p ≤ t.chars.size) :
    Advances t n s (s.moveTo p) := ⟨hp, hle⟩

theorem Advances.trans (h : Advances t m s s') (h' : Advances t n s' s'') : Advances t (m + n) s s'' := by
  obtain ⟨hm, hms⟩ := h
  obtain ⟨hn, hns⟩ := h'
  exact ⟨by omega, fun hs => hns (hms hs)⟩

theorem Advances.mono (h : Advances t n s s') (hmn : m ≤ n) : Advances t m s s' :=
  ⟨Nat.le_trans (Nat.add_le_add_left hmn _) h.1, h.2⟩

theorem Advances.one {c : Char} (h : t.at? s.pos = some c) : Advances t 1 s (s.moveTo (s.pos + 1)) := by
  have hlt : s.pos < t.chars.size := (Array.getElem?_eq_some_iff.mp h).1
  exact .moveTo (Nat.le_refl _) fun _ => hlt

theorem repeats_le {anyCase : Bool} {p q n : Nat} (hp : p ≤ t.chars.size)
    (h : t.repeats anyCase q n p = true) : p + n ≤ t.chars.size := by
  induction n generalizing p q with
  | zero => exact hp
  | succ n ih =>
    unfold Subject.repeats at h
    split at h
    next c d _ hd =>
      have hlt : p < t.chars.size := (Array.getElem?_eq_some_iff.mp hd).1
      have := ih (by omega) (Bool.and_eq_true_iff.mp h).2
      omega
    next => cases h

theorem Node.Takes.advances {n : Node} (h : n.Takes t called s s')
    (hcalled : ∀ r s s', called r s s' → Advances t 0 s s') : Advances t (n.least fun _ => 0) s s' := by
  induction h with
  | empty | notAhead | notBehind | assertion | isSet => exact .refl _
  | char hat | set hat _ => exact .one hat
  | seq _ _ ih ih' => exact ih.trans ih'
  | altLeft _ ih => exact ih.mono (Nat.min_le_left _ _)
  | altRight _ ih => exact ih.mono (Nat.min_le_right _ _)
  | @loopEnd most greedy body s =>
    rw [Node.least, Nat.zero_mul]
    exact .refl s
  | @loopNext least most greedy body s s' s'' _ _ ih ih' =>
    refine (ih.trans ih').mono ?_
    rw [Node.least, Node.least, Nat.add_comm, ← Nat.succ_mul]
    exact Nat.mul_le_mul_right _ (by omega)
  | @loopStill least most greedy body s s' s'' _ hpos _ ih ih' =>
    -- a copy that consumes nothing can only be one of a body that need not consume anything
    have hnone : body.least (fun _ => 0) = 0 := by
      have hleast := ih.1
      omega
    refine (ih.trans ih').mono ?_
    rw [Node.least, hnone, Nat.mul_zero]
    exact Nat.zero_le _
  | atomic _ ih => exact ih
  | group _ ih => exact ih
  | ahead => exact .of_pos_eq rfl
  | behind _ hpos => exact .of_pos_eq hpos
  | backReference hrepeats => exact .moveTo (Nat.le_add_right _ _) fun hs => repeats_le hs hrepeats
  | call hr => exact hcalled _ _ _ hr
  | keep => exact .of_pos_eq rfl
  | ifYes _ _ ih ih' => exact (ih.trans ih').mono (Nat.min_le_left _ _)
  | ifNo _ ih => exact ih.mono (Nat.min_le_right _ _)
  | absent hlow hhigh => exact .moveTo hlow fun hs => by omega

namespace Compiled

theorem advances_of_enters {c : Compiled} {r : GroupRef} (h : c.Enters t n r s s') : Advances t 0 s s' := by
  induction n generalizing r s s' with
  | zero => cases h
  | succ n ih =>
    obtain ⟨node, -, hnode⟩ := h
    exact (hnode.advances fun _ _ _ => ih).mono (Nat.zero_le _)

theorem matchAt_advances {c : Compiled} {p : Nat} {a : Attempt} (h : c.matchAt t p = some a) :
    Advances t (c.root.least fun _ => 0) (.start p c.groupCount) a :=
  (matchAt_takes h).advances fun _ _ _ => advances_of_enters

end Compiled

end GrammarScopes.Pattern
