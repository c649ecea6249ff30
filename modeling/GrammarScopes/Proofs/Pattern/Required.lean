import GrammarScopes.Grammar.Anchor
import GrammarScopes.Proofs.Pattern.Takes

/-!
What every way through a pattern passes.  A node that requires a character which stands nowhere in the text matches
nothing there, wherever the node stands and whatever is to follow it.
-/

namespace GrammarScopes.Pattern

/-- Every way through the node passes a leaf that satisfies the test, or the call of a group through which every way
does.  Of references it is not known what they match, and what may not match requires nothing. -/
def Node.requires (leaf : Node → Bool) (called : GroupRef → Bool) : Node → Bool
  | seq a b => a.requires leaf called || b.requires leaf called
  | alt a b => a.requires leaf called && b.requires leaf called
  | loop least _ _ body => 0 < least && body.requires leaf called
  | atomic body | group _ body | ahead true body | behind true body => body.requires leaf called
  | ifElse test yes no => (test.requires leaf called || yes.requires leaf called) && no.requires leaf called
  | call r _ => called r
  | n => leaf n

/-- Every way through the called group passes such a leaf, as can be seen from at most `n` calls. -/
def Compiled.requiresCall (c : Compiled) (leaf : Node → Bool) : Nat → GroupRef → Bool
  | 0, _ => false
  | n + 1, r => (c.target? r).any (·.requires leaf (c.requiresCall leaf n))

/-- Nothing matches the leaf where `neverChar` does not occur. -/
def Node.isNever : Node → Bool
  | fail => true
  | char c => c == neverChar
  | set (.oneOf cs) => cs.all (· == neverChar)
  | _ => false

variable {t : Subject} {called : GroupRef → Attempt → Attempt → Prop} {closed : GroupRef → Bool} {s s' : Attempt}

theorem ne_never_of_at? (ht : neverChar ∉ t.chars.toList) {p : Nat} {c : Char} (hc : t.at? p = some c) :
    c ≠ neverChar := by
  rintro rfl
  apply ht
  exact Array.mem_toList_iff.mpr (Array.mem_of_getElem? hc)

theorem not_takes_of_requires (ht : neverChar ∉ t.chars.toList)
    (hclosed : ∀ r, closed r = true → ∀ s s', ¬ called r s s') {n : Node}
    (hn : n.requires Node.isNever closed = true) : ¬ n.Takes t called s s' := by
  intro h
  induction h with
  | @char s c hat =>
    have hc : c = neverChar := by simpa [Node.requires, Node.isNever] using hn
    exact ne_never_of_at? ht hat hc
  | @set s c cs hat hc =>
    cases cs with
    | oneOf cs =>
      have hcs : ∀ d ∈ cs, d = neverChar := by simpa [Node.requires, Node.isNever] using hn
      exact ne_never_of_at? ht hat (hcs c (by simpa [CharSet.contains] using hc))
    | _ => cases hn
  | seq _ _ iha ihb =>
    rcases Bool.or_eq_true_iff.mp hn with ha | hb
    · exact iha ha
    · exact ihb hb
  | altLeft _ ih => exact ih (Bool.and_eq_true_iff.mp hn).1
  | altRight _ ih => exact ih (Bool.and_eq_true_iff.mp hn).2
  -- a loop that requires something passes its body at least once
  | loopEnd => cases hn
  | loopNext _ _ ih _ | loopStill _ _ _ ih _ => exact ih (Bool.and_eq_true_iff.mp hn).2
  | atomic _ ih | group _ ih | ahead _ ih | behind _ _ ih => exact ih hn
  | call hr => exact hclosed _ hn _ _ hr
  | ifYes _ _ ihtest ihyes =>
    rcases Bool.or_eq_true_iff.mp (Bool.and_eq_true_iff.mp hn).1 with htest | hyes
    · exact ihtest htest
    · exact ihyes hyes
  | ifNo _ ih => exact ih (Bool.and_eq_true_iff.mp hn).2
  | _ => cases hn

namespace Compiled

theorem not_enters_of_requiresCall {c : Compiled} (ht : neverChar ∉ t.chars.toList) {n : Nat} {r : GroupRef}
    (h : c.requiresCall Node.isNever n r = true) (depth : Nat) : ¬ c.Enters t depth r s s' := by
  -- the calls seen through and the calls that may nest are bounded apart from each other
  induction n generalizing r depth s s' with
  | zero => cases h
  | succ n ih =>
    cases depth with
    | zero => exact id
    | succ depth =>
      rintro ⟨node, hnode, htakes⟩
      obtain ⟨node', hnode', hrequires⟩ := (Option.any_eq_true _ _).mp h
      obtain rfl : node = node' := Option.some.inj (hnode.symm.trans hnode')
      exact not_takes_of_requires ht (fun _ hr _ _ => ih hr depth) hrequires htakes

theorem run_of_requires (c : Compiled) (ht : neverChar ∉ t.chars.toList) {n : Nat} {node : Node}
    (h : node.requires Node.isNever (c.requiresCall Node.isNever n) = true) (depth : Nat) (s : Attempt) (k : Goal) :
    node.run t (c.enter t depth) s k = none :=
  run_eq_none (fun _ => not_takes_of_requires ht (fun _ hr _ _ => not_enters_of_requiresCall ht hr depth) h) k

end Compiled

end GrammarScopes.Pattern
