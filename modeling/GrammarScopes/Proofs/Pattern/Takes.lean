import GrammarScopes.Pattern.Matcher

/-!
Matching as a relation.  Whatever a node matches, it takes one attempt to another by a way through its tree, and what
follows is asked for from there.  In which order the ways are tried is left out.
-/

namespace GrammarScopes.Pattern

/-- How attempts are related to those with which what follows has been asked for. -/
def Step.Reaches (f : Step) (R : Attempt → Attempt → Prop) : Prop :=
  ∀ s k x, f s k = some x → ∃ s', R s s' ∧ k s' = some x

/-- The ways through a node, given those through the groups that it calls. -/
inductive Node.Takes (t : Subject) (called : GroupRef → Attempt → Attempt → Prop) : Node → Attempt → Attempt → Prop
  | empty {s : Attempt} : Takes t called .empty s s
  | char {s : Attempt} {c : Char} : t.at? s.pos = some c → Takes t called (.char c) s (s.moveTo (s.pos + 1))
  | set {s : Attempt} {c : Char} {cs : CharSet} : t.at? s.pos = some c → cs.contains c = true →
      Takes t called (.set cs) s (s.moveTo (s.pos + 1))
  | seq {a b : Node} {s s' s'' : Attempt} : Takes t called a s s' → Takes t called b s' s'' →
      Takes t called (.seq a b) s s''
  | altLeft {a b : Node} {s s' : Attempt} : Takes t called a s s' → Takes t called (.alt a b) s s'
  | altRight {a b : Node} {s s' : Attempt} : Takes t called b s s' → Takes t called (.alt a b) s s'
  | loopEnd {most : Option Nat} {greedy : Bool} {body : Node} {s : Attempt} :
      Takes t called (.loop 0 most greedy body) s s
  | loopNext {least : Nat} {most : Option Nat} {greedy : Bool} {body : Node} {s s' s'' : Attempt} :
      Takes t called body s s' → Takes t called (.loop (least - 1) most greedy body) s' s'' →
      Takes t called (.loop least most greedy body) s s''
  /-- A copy that consumes nothing stands for all that are left. -/
  | loopStill {least : Nat} {most : Option Nat} {greedy : Bool} {body : Node} {s s' s'' : Attempt} :
      Takes t called body s s' → s'.pos = s.pos → Takes t called (.loop 0 most greedy body) s' s'' →
      Takes t called (.loop least most greedy body) s s''
  | atomic {body : Node} {s s' : Attempt} : Takes t called body s s' → Takes t called (.atomic body) s s'
  | group {n : Nat} {body : Node} {s s' : Attempt} : Takes t called body s s' →
      Takes t called (.group n body) s (s'.setGroup n s.pos)
  | ahead {body : Node} {s s' : Attempt} : Takes t called body s s' →
      Takes t called (.ahead true body) s (s'.moveTo s.pos)
  | notAhead {body : Node} {s : Attempt} : Takes t called (.ahead false body) s s
  | behind {body : Node} {s s' : Attempt} {p : Nat} : Takes t called body (s.moveTo p) s' → s'.pos = s.pos →
      Takes t called (.behind true body) s s'
  | notBehind {body : Node} {s : Attempt} : Takes t called (.behind false body) s s
  | assertion {positive : Bool} {a : Assertion} {s : Attempt} : t.holds s.pos a = positive →
      Takes t called (.assertion positive a) s s
  | backReference {groups : List Nat} {anyCase : Bool} {s : Attempt} {i n : Nat} :
      t.repeats anyCase i n s.pos = true → Takes t called (.backReference groups anyCase) s (s.moveTo (s.pos + n))
  | call {r : GroupRef} {written : String} {s s' : Attempt} : called r s s' → Takes t called (.call r written) s s'
  | keep {s : Attempt} : Takes t called .keep s { s with keep := some s.pos }
  | isSet {groups : List Nat} {s : Attempt} : Takes t called (.isSet groups) s s
  | ifYes {test yes no : Node} {s s' s'' : Attempt} : Takes t called test s s' → Takes t called yes s' s'' →
      Takes t called (.ifElse test yes no) s s''
  | ifNo {test yes no : Node} {s s' : Attempt} : Takes t called no s s' → Takes t called (.ifElse test yes no) s s'
  | absent {body : Node} {s : Attempt} {p : Nat} : s.pos ≤ p → p ≤ max s.pos t.chars.size →
      Takes t called (.absent body) s (s.moveTo p)

variable {t : Subject} {f : Step} {s : Attempt} {k : Goal} {x : Attempt} {called : GroupRef → Attempt → Attempt → Prop}
  {body : Node} {most : Option Nat} {greedy : Bool}

theorem longestFirst_eq_some {low n : Nat} (h : longestFirst s k low n = some x) :
    ∃ p, low ≤ p ∧ p ≤ low + n ∧ k (s.moveTo p) = some x := by
  induction n with
  | zero => exact ⟨low, Nat.le_refl _, Nat.le_refl _, h⟩
  | succ n ih =>
    unfold longestFirst at h
    split at h
    next r hr =>
      cases h
      exact ⟨low + (n + 1), by omega, by omega, hr⟩
    next =>
      obtain ⟨p, hlow, hhigh, hp⟩ := ih h
      exact ⟨p, hlow, by omega, hp⟩

theorem shortestFirst_eq_some {low n : Nat} (h : shortestFirst s k low n = some x) :
    ∃ p, low ≤ p ∧ p ≤ low + n ∧ k (s.moveTo p) = some x := by
  induction n generalizing low with
  | zero => exact ⟨low, Nat.le_refl _, Nat.le_refl _, h⟩
  | succ n ih =>
    unfold shortestFirst at h
    split at h
    next r hr =>
      cases h
      exact ⟨low, by omega, by omega, hr⟩
    next =>
      obtain ⟨p, hlow, hhigh, hp⟩ := ih h
      exact ⟨p, by omega, by omega, hp⟩

theorem freeLength_le (s : Attempt) (n last : Nat) : freeLength f s n last ≤ n := by
  induction n generalizing last with
  | zero => exact Nat.le_refl _
  | succ n ih =>
    unfold freeLength
    split
    · omega
    · have := ih (last + 1)
      omega

theorem stepBack_eq_some {length n : Nat} (h : stepBack f s length n = some x) :
    ∃ p, f (s.moveTo p) (fun s' => if s'.pos == s.pos then some s' else none) = some x := by
  have hback {length : Nat} (h : stepBack.back f s length = some x) :
      ∃ p, f (s.moveTo p) (fun s' => if s'.pos == s.pos then some s' else none) = some x := by
    unfold stepBack.back at h
    split at h
    next => exact ⟨_, h⟩
    next => cases h
  induction n generalizing length with
  | zero => exact hback h
  | succ n ih =>
    unfold stepBack at h
    split at h
    next r hr =>
      cases h
      exact hback hr
    next => exact ih h

theorem test_of_lt_runEnd {test : Char → Bool} {n p q : Nat} (hp : p ≤ q) (hq : q < t.runEnd test n p) :
    ∃ c, t.at? q = some c ∧ test c = true := by
  induction n generalizing p with
  | zero =>
    unfold Subject.runEnd at hq
    omega
  | succ n ih =>
    unfold Subject.runEnd at hq
    split at hq
    next hlt =>
      split at hq
      next htest =>
        rcases Nat.eq_or_lt_of_le hp with rfl | hlt'
        · exact ⟨t.chars[p], Array.getElem?_eq_getElem hlt, htest⟩
        · exact ih hlt' hq
      next => omega
    next => omega

theorem takes_of_charTest {test : Char → Bool} (htest : body.charTest? = some test) {c : Char}
    (hat : t.at? s.pos = some c) (hc : test c = true) : body.Takes t called s (s.moveTo (s.pos + 1)) := by
  cases body with
  | char d =>
    cases htest
    obtain rfl : c = d := by simpa using hc
    exact .char hat
  | set cs =>
    cases htest
    exact .set hat hc
  | _ => cases htest

theorem takes_of_runEnd {test : Char → Bool} (htest : body.charTest? = some test) {n least p : Nat}
    (hcount : ¬ t.runEnd test n s.pos - s.pos < least) (hlow : s.pos + least ≤ p)
    (hhigh : p ≤ s.pos + least + (t.runEnd test n s.pos - s.pos - least)) :
    (Node.loop least most greedy body).Takes t called s (s.moveTo p) := by
  have hruns : ∀ q, s.pos ≤ q → q < p → ∃ c, t.at? q = some c ∧ test c = true :=
    fun q hq hlt => test_of_lt_runEnd (n := n) hq (by omega)
  clear hcount hhigh
  obtain ⟨d, rfl⟩ := Nat.exists_eq_add_of_le (Nat.le_trans (Nat.le_add_right _ least) hlow)
  induction d generalizing s least with
  | zero =>
    obtain rfl : least = 0 := by omega
    exact .loopEnd
  | succ d ih =>
    obtain ⟨c, hat, hc⟩ := hruns s.pos (Nat.le_refl _) (by omega)
    let s' := s.moveTo (s.pos + 1)
    have hend : s'.pos + d = s.pos + (d + 1) := by
      change s.pos + 1 + d = _
      omega
    have hrest : (Node.loop (least - 1) most greedy body).Takes t called s' (s.moveTo (s'.pos + d)) := by
      apply ih
      · omega
      · exact fun q hq hlt => hruns q (Nat.le_trans (Nat.le_succ _) hq) (hend ▸ hlt)
    rw [hend] at hrest
    exact .loopNext (takes_of_charTest htest hat hc) hrest

theorem moreCopies_takes (hf : f.Reaches (body.Takes t called)) (n : Nat) :
    Step.Reaches (moreCopies f greedy n) ((Node.loop 0 most greedy body).Takes t called) := by
  induction n with
  | zero => exact fun s k x h => ⟨s, .loopEnd, h⟩
  | succ n ih =>
    intro s k x h
    have hagain (h : (f s fun s' => if s'.pos == s.pos then k s' else moreCopies f greedy n s' k) = some x) :
        ∃ s', (Node.loop 0 most greedy body).Takes t called s s' ∧ k s' = some x := by
      obtain ⟨s', hs, h⟩ := hf _ _ _ h
      split at h
      · exact ⟨s', .loopNext hs .loopEnd, h⟩
      · obtain ⟨s'', hs', h⟩ := ih _ _ _ h
        exact ⟨s'', .loopNext hs hs', h⟩
    unfold moreCopies at h
    dsimp only at h
    split at h
    · split at h
      next r hr =>
        cases h
        exact hagain hr
      next => exact ⟨s, .loopEnd, h⟩
    · split at h
      next r hr =>
        cases h
        exact ⟨s, .loopEnd, hr⟩
      next => exact hagain h

theorem copies_takes (hf : f.Reaches (body.Takes t called)) (n : Nat) :
    Step.Reaches (copies f n) fun s s' => ∀ s'', (Node.loop 0 most greedy body).Takes t called s' s'' →
      (Node.loop n most greedy body).Takes t called s s'' := by
  induction n with
  | zero => exact fun s k x h => ⟨s, fun _ => id, h⟩
  | succ n ih =>
    intro s k x h
    obtain ⟨s', hs, h⟩ := hf _ _ _ h
    split at h
    next hpos => exact ⟨s', fun s'' hs' => .loopStill hs (by simpa using hpos) hs', h⟩
    next =>
      obtain ⟨s'', hs', h⟩ := ih _ _ _ h
      exact ⟨s'', fun r hr => .loopNext hs (hs' r hr), h⟩

/-- What follows a node is asked for only at the end of a way through it. -/
theorem run_takes {call : GroupRef → Step} (hcall : ∀ r, (call r).Reaches (called r)) (n : Node) :
    Step.Reaches (n.run t call) (n.Takes t called) := by
  induction n with
  | empty => exact fun s k x h => ⟨s, .empty, h⟩
  | fail => exact fun s k x h => nomatch h
  | char c =>
    intro s k x h
    unfold Node.run at h
    split at h
    next hat => exact ⟨_, .char (by simpa using hat), h⟩
    next => cases h
  | set cs =>
    intro s k x h
    unfold Node.run at h
    split at h
    next c hat =>
      split at h
      next hc => exact ⟨_, .set hat hc, h⟩
      next => cases h
    next => cases h
  | seq a b iha ihb =>
    intro s k x h
    obtain ⟨s', hs, h⟩ := iha _ _ _ h
    obtain ⟨s'', hs', h⟩ := ihb _ _ _ h
    exact ⟨s'', .seq hs hs', h⟩
  | alt a b iha ihb =>
    intro s k x h
    unfold Node.run at h
    split at h
    next r hr =>
      cases h
      obtain ⟨s', hs, h⟩ := iha _ _ _ hr
      exact ⟨s', .altLeft hs, h⟩
    next =>
      obtain ⟨s', hs, h⟩ := ihb _ _ _ h
      exact ⟨s', .altRight hs, h⟩
  | loop least most greedy body ih =>
    intro s k x h
    unfold Node.run at h
    split at h
    next test htest =>
      dsimp only at h
      split at h
      next => cases h
      next hcount =>
        split at h
        · obtain ⟨p, hlow, hhigh, h⟩ := longestFirst_eq_some h
          exact ⟨_, takes_of_runEnd htest hcount hlow hhigh, h⟩
        · obtain ⟨p, hlow, hhigh, h⟩ := shortestFirst_eq_some h
          exact ⟨_, takes_of_runEnd htest hcount hlow hhigh, h⟩
    next =>
      obtain ⟨s', hs, h⟩ := copies_takes ih least _ _ _ h
      obtain ⟨s'', hs', h⟩ := moreCopies_takes ih _ _ _ _ h
      exact ⟨s'', hs s'' hs', h⟩
  | atomic body ih =>
    intro s k x h
    obtain ⟨s', hrun, h⟩ := Option.bind_eq_some_iff.mp h
    obtain ⟨_, hs, heq⟩ := ih _ _ _ hrun
    cases heq
    exact ⟨s', .atomic hs, h⟩
  | group n body ih =>
    intro s k x h
    obtain ⟨s', hs, h⟩ := ih _ _ _ h
    exact ⟨_, .group hs, h⟩
  | ahead positive body ih =>
    intro s k x h
    unfold Node.run at h
    split at h
    next _ _ s' hrun =>
      obtain ⟨_, hs, heq⟩ := ih _ _ _ hrun
      cases heq
      exact ⟨_, .ahead hs, h⟩
    · exact ⟨s, .notAhead, h⟩
    · cases h
  | behind positive body ih =>
    intro s k x h
    unfold Node.run at h
    dsimp only at h
    split at h
    next s' hback =>
      obtain ⟨p, hrun⟩ := stepBack_eq_some hback
      obtain ⟨_, hs, hend⟩ := ih _ _ _ hrun
      split at hend
      next hpos =>
        cases hend
        exact ⟨s', .behind hs (by simpa using hpos), h⟩
      next => cases hend
    · exact ⟨s, .notBehind, h⟩
    · cases h
  | assertion positive a =>
    intro s k x h
    unfold Node.run at h
    split at h
    next hholds => exact ⟨s, .assertion (by simpa using hholds), h⟩
    next => cases h
  | backReference groups anyCase =>
    intro s k x h
    unfold Node.run at h
    dsimp only at h
    split at h
    next n hfound =>
      obtain ⟨g, -, hg⟩ := List.exists_of_findSome?_eq_some hfound
      split at hg
      · split at hg
        next hrepeats =>
          cases hg
          exact ⟨_, .backReference hrepeats, h⟩
        next => cases hg
      · cases hg
    next => cases h
  | call r written =>
    intro s k x h
    obtain ⟨s', hs, h⟩ := hcall r _ _ _ h
    exact ⟨s', .call hs, h⟩
  | keep => exact fun s k x h => ⟨_, .keep, h⟩
  | isSet groups =>
    intro s k x h
    unfold Node.run at h
    split at h
    · exact ⟨s, .isSet, h⟩
    · cases h
  | ifElse test yes no ihtest ihyes ihno =>
    intro s k x h
    unfold Node.run at h
    split at h
    next s' htest =>
      obtain ⟨_, hs, heq⟩ := ihtest _ _ _ htest
      cases heq
      obtain ⟨s'', hs', h⟩ := ihyes _ _ _ h
      exact ⟨s'', .ifYes hs hs', h⟩
    next =>
      obtain ⟨s', hs, h⟩ := ihno _ _ _ h
      exact ⟨s', .ifNo hs, h⟩
  | absent body ih =>
    intro s k x h
    unfold Node.run at h
    split at h
    next => cases h
    next n hn =>
      obtain ⟨p, hlow, hhigh, h⟩ := longestFirst_eq_some h
      have hle := freeLength_le (f := body.run t call) s (t.chars.size - s.pos + 1) s.pos
      exact ⟨_, .absent hlow (by omega), h⟩

namespace Compiled

/-- The ways through a group that is called, with at most `n` calls nested in it. -/
def Enters (c : Compiled) (t : Subject) : Nat → GroupRef → Attempt → Attempt → Prop
  | 0, _, _, _ => False
  | n + 1, r, s, s' => ∃ node, c.target? r = some node ∧ node.Takes t (c.Enters t n) s s'

theorem enter_takes (c : Compiled) (n : Nat) (r : GroupRef) : (c.enter t n r).Reaches (c.Enters t n r) := by
  induction n generalizing r with
  | zero => exact fun s k x h => nomatch h
  | succ n ih =>
    intro s k x h
    unfold enter at h
    split at h
    next node hnode =>
      obtain ⟨s', hs, h⟩ := run_takes ih node _ _ _ h
      exact ⟨s', ⟨node, hnode, hs⟩, h⟩
    next => cases h

theorem run_eq_none {c : Compiled} {n : Nat} {node : Node} (h : ∀ s', ¬ node.Takes t (c.Enters t n) s s') (k : Goal) :
    node.run t (c.enter t n) s k = none := by
  apply Option.eq_none_iff_forall_ne_some.mpr
  intro x hx
  obtain ⟨s', hs, -⟩ := run_takes (c.enter_takes n) node _ _ _ hx
  exact h s' hs

theorem matchAt_takes {c : Compiled} {p : Nat} {a : Attempt} (h : c.matchAt t p = some a) :
    c.root.Takes t (c.Enters t (c.callDepth t)) (.start p c.groupCount) a := by
  obtain ⟨s', hs, heq⟩ := run_takes (c.enter_takes _) c.root _ _ _ h
  cases heq
  exact hs

end Compiled

end GrammarScopes.Pattern
