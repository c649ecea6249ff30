import GrammarScopes.Proofs.Pattern.Advance

/-!
Where a reported match begins.  Matching does not move the beginning unless the pattern asks for it, so that without
such a request a match begins where it was looked for.
-/

namespace GrammarScopes.Pattern

def SameKeep (s s' : Attempt) : Prop := s'.keep = s.keep

variable {t : Subject} {s s' : Attempt} {called : GroupRef → Attempt → Attempt → Prop}

theorem Node.Takes.sameKeep {n : Node} (h : n.Takes t called s s') (hn : n.keeps = false)
    (hcalled : ∀ r s s', called r s s' → SameKeep s s') : SameKeep s s' := by
  induction h with
  | empty | char | set | loopEnd | notAhead | notBehind | assertion | backReference | isSet | absent => rfl
  | seq _ _ ih ih' =>
    obtain ⟨ha, hb⟩ := Bool.or_eq_false_iff.mp hn
    exact (ih' hb).trans (ih ha)
  | altLeft _ ih => exact ih (Bool.or_eq_false_iff.mp hn).1
  | altRight _ ih => exact ih (Bool.or_eq_false_iff.mp hn).2
  | loopNext _ _ ih ih' | loopStill _ _ _ ih ih' => exact (ih' hn).trans (ih hn)
  | atomic _ ih | group _ ih | ahead _ ih | behind _ _ ih => exact ih hn
  | call hr => exact hcalled _ _ _ hr
  | keep => cases hn
  | ifYes _ _ ih ih' =>
    obtain ⟨htest, hyes⟩ := Bool.or_eq_false_iff.mp (Bool.or_eq_false_iff.mp hn).1
    exact (ih' hyes).trans (ih htest)
  | ifNo _ ih => exact ih (Bool.or_eq_false_iff.mp hn).2

theorem Node.keeps_of_group? {n g : Node} {i : Nat} (hn : n.keeps = false) (h : n.group? i = some g) :
    g.keeps = false := by
  fun_induction Node.group? i n with
  | case1 =>
    cases h
    exact hn
  | case2 _ _ _ ih => exact ih hn h
  | case3 a b g' ha ih | case5 a b g' ha ih =>
    cases h
    exact ih (Bool.or_eq_false_iff.mp hn).1 ha
  | case4 a b _ _ ih | case6 a b _ _ ih => exact ih (Bool.or_eq_false_iff.mp hn).2 h
  | case7 a b c g' ha ih =>
    cases h
    exact ih (Bool.or_eq_false_iff.mp (Bool.or_eq_false_iff.mp hn).1).1 ha
  | case8 a b c _ g' hb _ ih =>
    cases h
    exact ih (Bool.or_eq_false_iff.mp (Bool.or_eq_false_iff.mp hn).1).2 hb
  | case9 a b c _ _ _ _ ih => exact ih (Bool.or_eq_false_iff.mp hn).2 h
  | case10 _ _ _ _ ih | case11 _ ih | case12 _ _ ih | case13 _ _ ih | case14 _ ih => exact ih hn h
  | case15 => cases h

namespace Compiled

theorem sameKeep_of_enters {c : Compiled} (hc : c.root.keeps = false) {n : Nat} {r : GroupRef}
    (h : c.Enters t n r s s') : SameKeep s s' := by
  induction n generalizing r s s' with
  | zero => cases h
  | succ n ih =>
    obtain ⟨node, hnode, htakes⟩ := h
    refine htakes.sameKeep ?_ fun _ _ _ => ih
    obtain ⟨i, -, hi⟩ := Option.bind_eq_some_iff.mp hnode
    split at hi
    · cases hi
      exact hc
    · exact Node.keeps_of_group? hc hi

/-- Without a request to move its beginning a match begins where it was looked for. -/
theorem matchAt_keep {c : Compiled} (hc : c.root.keeps = false) {p : Nat} {a : Attempt}
    (h : c.matchAt t p = some a) : min (a.keep.getD p) a.pos = p := by
  have hkeep : a.keep = none := (matchAt_takes h).sameKeep hc fun _ _ _ => sameKeep_of_enters hc
  have hfar : p + _ ≤ a.pos := (matchAt_advances h).1
  rw [hkeep, Option.getD_none]
  omega

end Compiled

end GrammarScopes.Pattern
