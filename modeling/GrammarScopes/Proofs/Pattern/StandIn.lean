import GrammarScopes.Pattern.Parser
import GrammarScopes.Proofs.Pattern.Required
import Mathlib.Data.List.Forall2

/-!
The tree of a pattern in which some anchors are replaced by a character that occurs nowhere, beside the tree of the
pattern with its anchors.  Whatever requires one of these anchors has become something that requires the character,
and all around it the two trees have the same form and the same groups.
-/

namespace GrammarScopes

open Pattern

/-- The node is an anchor that does not hold. -/
def Anchoring.forbidsNode (a : Anchoring) : Pattern.Node → Bool
  | .assertion true .textStart => !a.textStart
  | .assertion true .searchStart => !a.searchStart
  | _ => false

/-- No such anchor is in the node, and no group, call or loop. -/
def Anchoring.spares (a : Anchoring) : Pattern.Node → Bool
  | .seq m n | .alt m n => a.spares m && a.spares n
  | .loop .. | .atomic _ | .group .. | .ahead .. | .behind .. | .ifElse .. | .absent _ | .call .. => false
  | n => !a.forbidsNode n

namespace Pattern

def Node.isLoop : Node → Bool
  | loop .. => true
  | _ => false

/-- What a node has become where the anchors that do not hold are replaced. -/
inductive StandsFor (a : Anchoring) : Node → Node → Prop
  /-- What requires such an anchor has become something that matches nothing. -/
  | disabled {n n' : Node} : (∀ called, n.requires a.forbidsNode called = true) → n.isLoop = false →
      (∀ called, n'.requires Node.isNever called = true) → n'.isLoop = false → StandsFor a n n'
  /-- Where no such anchor is, nothing is said of what characters there are. -/
  | other {n n' : Node} : a.spares n = true → a.spares n' = true → StandsFor a n n'
  | seq {m m' n n' : Node} : StandsFor a m m' → StandsFor a n n' → StandsFor a (.seq m n) (.seq m' n')
  | alt {m m' n n' : Node} : StandsFor a m m' → StandsFor a n n' → StandsFor a (.alt m n) (.alt m' n')
  | loop {least : Nat} {most : Option Nat} {greedy : Bool} {n n' : Node} : StandsFor a n n' →
      StandsFor a (.loop least most greedy n) (.loop least most greedy n')
  | atomic {n n' : Node} : StandsFor a n n' → StandsFor a (.atomic n) (.atomic n')
  | group {i : Nat} {n n' : Node} : StandsFor a n n' → StandsFor a (.group i n) (.group i n')
  | ahead {positive : Bool} {n n' : Node} : StandsFor a n n' → StandsFor a (.ahead positive n) (.ahead positive n')
  | behind {positive : Bool} {n n' : Node} : StandsFor a n n' → StandsFor a (.behind positive n) (.behind positive n')
  | call (r : GroupRef) (written : String) : StandsFor a (.call r written) (.call r written)
  | ifElse {test test' yes yes' no no' : Node} : StandsFor a test test' → StandsFor a yes yes' → StandsFor a no no' →
      StandsFor a (.ifElse test yes no) (.ifElse test' yes' no')
  | absent {n n' : Node} : StandsFor a n n' → StandsFor a (.absent n) (.absent n')

variable {a : Anchoring} {leaf : Node → Bool} {called called' : GroupRef → Bool} {m m' n n' : Node}

theorem not_requires_of_spares (h : a.spares n = true) : n.requires a.forbidsNode called = false := by
  induction n with
  | seq m n ihm ihn =>
    obtain ⟨hm, hn⟩ := Bool.and_eq_true_iff.mp h
    exact Bool.or_eq_false_iff.mpr ⟨ihm hm, ihn hn⟩
  | alt m n ihm _ => exact Bool.and_eq_false_iff.mpr (.inl (ihm (Bool.and_eq_true_iff.mp h).1))
  | assertion positive x => exact Bool.not_eq_true _ ▸ (Bool.not_eq_true' _).mp h
  | loop | atomic | group | ahead | behind | call | ifElse | absent => cases h
  | _ => rfl

theorem isLoop_of_spares (h : a.spares n = true) : n.isLoop = false := by
  cases n with
  | loop => cases h
  | _ => rfl

theorem group?_of_spares (h : a.spares n = true) (i : Nat) : n.group? i = none := by
  induction n with
  | seq m n ihm ihn | alt m n ihm ihn =>
    obtain ⟨hm, hn⟩ := Bool.and_eq_true_iff.mp h
    unfold Node.group?
    rw [ihm hm]
    exact ihn hn
  | loop | atomic | group | ahead | behind | call | ifElse | absent => cases h
  | _ => rfl

theorem StandsFor.requires (h : StandsFor a n n') (hcalled : ∀ r, called r = true → called' r = true)
    (hn : n.requires a.forbidsNode called = true) : n'.requires Node.isNever called' = true := by
  induction h with
  | disabled _ _ h _ => exact h called'
  | other h _ => cases (not_requires_of_spares h).symm.trans hn
  | call r _ => exact hcalled r hn
  | seq _ _ ihm ihn =>
    rcases Bool.or_eq_true_iff.mp hn with hm | hn
    · exact Bool.or_eq_true_iff.mpr (.inl (ihm hm))
    · exact Bool.or_eq_true_iff.mpr (.inr (ihn hn))
  | alt _ _ ihm ihn =>
    obtain ⟨hm, hn⟩ := Bool.and_eq_true_iff.mp hn
    exact Bool.and_eq_true_iff.mpr ⟨ihm hm, ihn hn⟩
  | loop _ ih =>
    obtain ⟨hleast, hbody⟩ := Bool.and_eq_true_iff.mp hn
    exact Bool.and_eq_true_iff.mpr ⟨hleast, ih hbody⟩
  | atomic _ ih | group _ ih => exact ih hn
  | @ahead positive n n' _ ih | @behind positive n n' _ ih =>
    cases positive with
    | true => exact ih hn
    | false => cases hn
  | ifElse _ _ _ ihtest ihyes ihno =>
    obtain ⟨hfirst, hno⟩ := Bool.and_eq_true_iff.mp hn
    refine Bool.and_eq_true_iff.mpr ⟨?_, ihno hno⟩
    rcases Bool.or_eq_true_iff.mp hfirst with htest | hyes
    · exact Bool.or_eq_true_iff.mpr (.inl (ihtest htest))
    · exact Bool.or_eq_true_iff.mpr (.inr (ihyes hyes))
  | absent => cases hn

/-! ### Sequences and alternatives -/

variable {ns ns' : List Node}

theorem requires_sequence : (Node.sequence ns).requires leaf called = true ↔
    (ns = [] ∧ leaf .empty = true) ∨ ∃ n ∈ ns, n.requires leaf called = true := by
  induction ns with
  | nil => simp [Node.sequence, Node.requires]
  | cons n ns ih =>
    cases ns with
    | nil => simp [Node.sequence]
    | cons m ns => simp [Node.sequence, Node.requires, ih]

theorem requires_choice (hleaf : leaf .fail = true) (hns : ∀ n ∈ ns, n.requires leaf called = true) :
    (Node.choice ns).requires leaf called = true := by
  induction ns with
  | nil => exact hleaf
  | cons n ns ih =>
    obtain ⟨hn, hrest⟩ := List.forall_mem_cons.mp hns
    cases ns with
    | nil => exact hn
    | cons m ns => exact Bool.and_eq_true_iff.mpr ⟨hn, ih hrest⟩

theorem spares_sequence (hns : ∀ n ∈ ns, a.spares n = true) : a.spares (Node.sequence ns) = true := by
  induction ns with
  | nil => rfl
  | cons n ns ih =>
    obtain ⟨hn, hrest⟩ := List.forall_mem_cons.mp hns
    cases ns with
    | nil => exact hn
    | cons m ns => exact Bool.and_eq_true_iff.mpr ⟨hn, ih hrest⟩

theorem spares_choice (hns : ∀ n ∈ ns, a.spares n = true) : a.spares (Node.choice ns) = true := by
  induction ns with
  | nil => rfl
  | cons n ns ih =>
    obtain ⟨hn, hrest⟩ := List.forall_mem_cons.mp hns
    cases ns with
    | nil => exact hn
    | cons m ns => exact Bool.and_eq_true_iff.mpr ⟨hn, ih hrest⟩

theorem StandsFor.sequence (h : List.Forall₂ (StandsFor a) ns ns') :
    StandsFor a (Node.sequence ns) (Node.sequence ns') := by
  induction h with
  | nil => exact .other rfl rfl
  | cons hn hrest ih =>
    cases hrest with
    | nil => exact hn
    | cons _ _ => exact .seq hn ih

theorem StandsFor.choice (h : List.Forall₂ (StandsFor a) ns ns') :
    StandsFor a (Node.choice ns) (Node.choice ns') := by
  induction h with
  | nil => exact .other rfl rfl
  | cons hn hrest ih =>
    cases hrest with
    | nil => exact hn
    | cons _ _ => exact .alt hn ih

/-! ### Quantifiers -/

theorem looped_of_not_isLoop (q : Quantifier) (hn : n.isLoop = false) :
    looped q n = .loop q.least q.most q.greedy n := by
  unfold looped
  split
  all_goals first
    | cases hn
    | rfl

theorem looped_loop (q : Quantifier) (least : Nat) (most : Option Nat) (greedy : Bool) :
    (∃ least', ∀ body, looped q (.loop least most greedy body) = .loop least' none true body) ∨
      ∀ body, looped q (.loop least most greedy body) =
        .loop q.least q.most q.greedy (.loop least most greedy body) := by
  by_cases hone : ∃ least', ∀ body, looped q (.loop least most greedy body) = .loop least' none true body
  · exact .inl hone
  · right
    intro body
    obtain ⟨qleast, qmost, qgreedy, qpossessive⟩ := q
    unfold looped
    split
    case h_9 => rfl
    all_goals
      next hg hl hm hn =>
        cases hg
        cases hl
        cases hm
        cases hn
        exact absurd ⟨_, fun _ => rfl⟩ hone

theorem StandsFor.looped (q : Quantifier) (h : StandsFor a n n') :
    StandsFor a (Pattern.looped q n) (Pattern.looped q n') := by
  have hplain (hn : n.isLoop = false) (hn' : n'.isLoop = false) :
      StandsFor a (Pattern.looped q n) (Pattern.looped q n') := by
    rw [looped_of_not_isLoop q hn, looped_of_not_isLoop q hn']
    exact .loop h
  cases h with
  | disabled _ hn _ hn' => exact hplain hn hn'
  | other hn hn' => exact hplain (isLoop_of_spares hn) (isLoop_of_spares hn')
  -- only a loop may be merged with the quantifier, and both sides are then merged alike
  | @loop least most greedy m m' hm =>
    rcases looped_loop q least most greedy with ⟨least', hloop⟩ | hloop
    · rw [hloop, hloop]
      exact .loop hm
    · rw [hloop, hloop]
      exact .loop (.loop hm)
  | _ => exact hplain rfl rfl

theorem StandsFor.onto (q : Quantifier) (h : StandsFor a n n') : StandsFor a (q.onto n) (q.onto n') := by
  unfold Quantifier.onto
  split
  · exact h
  · split
    · exact .atomic (h.looped q)
    · exact h.looped q

/-! ### Groups -/

structure Node.Becomes (a : Anchoring) (n n' : Node) : Prop where
  standsFor : StandsFor a n n'
  groups : ∀ i, Option.Rel (StandsFor a) (n.group? i) (n'.group? i)

theorem group?_sequence (i : Nat) : (Node.sequence ns).group? i = ns.findSome? (·.group? i) := by
  induction ns with
  | nil => rfl
  | cons n ns ih =>
    rw [List.findSome?_cons, ← ih]
    cases ns with
    | nil => cases h : n.group? i <;> exact h
    | cons m ns => cases h : n.group? i <;> simp [Node.sequence, Node.group?, h]

theorem group?_choice (i : Nat) : (Node.choice ns).group? i = ns.findSome? (·.group? i) := by
  induction ns with
  | nil => rfl
  | cons n ns ih =>
    rw [List.findSome?_cons, ← ih]
    cases ns with
    | nil => cases h : n.group? i <;> exact h
    | cons m ns => cases h : n.group? i <;> simp [Node.choice, Node.group?, h]

theorem group?_ifElse (test yes no : Node) (i : Nat) :
    (Node.ifElse test yes no).group? i = [test, yes, no].findSome? (·.group? i) := by
  rw [List.findSome?_cons, List.findSome?_cons, List.findSome?_cons, List.findSome?_nil]
  cases htest : test.group? i <;> cases hyes : yes.group? i <;> cases hno : no.group? i <;>
    simp [Node.group?, htest, hyes, hno]

theorem group?_looped (q : Quantifier) (n : Node) (i : Nat) : (looped q n).group? i = n.group? i := by
  unfold looped
  split <;> rfl

theorem group?_onto (q : Quantifier) (n : Node) (i : Nat) : (q.onto n).group? i = n.group? i := by
  unfold Quantifier.onto
  split
  · rfl
  · split <;> exact group?_looped q n i

theorem rel_findSome? {α β γ δ : Type} {R : α → β → Prop} {S : γ → δ → Prop} {f : α → Option γ} {g : β → Option δ}
    (hfg : ∀ x y, R x y → Option.Rel S (f x) (g y)) {xs : List α} {ys : List β} (h : List.Forall₂ R xs ys) :
    Option.Rel S (xs.findSome? f) (ys.findSome? g) := by
  induction h with
  | nil => exact .none
  | @cons x y _ _ hxy _ ih =>
    rw [List.findSome?_cons, List.findSome?_cons]
    have hfirst := hfg x y hxy
    revert hfirst
    generalize f x = u
    generalize g y = v
    rintro (h | _)
    · exact .some h
    · exact ih

namespace Node.Becomes

theorem other (hn : a.spares n = true) (hn' : a.spares n' = true) : n.Becomes a n' where
  standsFor := .other hn hn'
  groups i := by
    rw [group?_of_spares hn, group?_of_spares hn']
    exact .none

theorem call (r : GroupRef) (written : String) : (Node.call r written).Becomes a (.call r written) :=
  ⟨.call r written, fun _ => .none⟩

theorem atomic (h : n.Becomes a n') : (Node.atomic n).Becomes a (.atomic n') := ⟨.atomic h.standsFor, h.groups⟩

theorem ahead {positive : Bool} (h : n.Becomes a n') : (Node.ahead positive n).Becomes a (.ahead positive n') :=
  ⟨.ahead h.standsFor, h.groups⟩

theorem behind {positive : Bool} (h : n.Becomes a n') : (Node.behind positive n).Becomes a (.behind positive n') :=
  ⟨.behind h.standsFor, h.groups⟩

theorem absent (h : n.Becomes a n') : (Node.absent n).Becomes a (.absent n') := ⟨.absent h.standsFor, h.groups⟩

theorem group {i : Nat} (h : n.Becomes a n') : (Node.group i n).Becomes a (.group i n') where
  standsFor := .group h.standsFor
  groups j := by
    unfold Node.group?
    split
    · exact .some (.group h.standsFor)
    · exact h.groups j

theorem ifElse {no no' : Node} (hm : m.Becomes a m') (hn : n.Becomes a n') (hno : no.Becomes a no') :
    (Node.ifElse m n no).Becomes a (.ifElse m' n' no') where
  standsFor := .ifElse hm.standsFor hn.standsFor hno.standsFor
  groups i := by
    have hparts : List.Forall₂ (Node.Becomes a) [m, n, no] [m', n', no'] := .cons hm (.cons hn (.cons hno .nil))
    rw [group?_ifElse, group?_ifElse]
    exact rel_findSome? (fun _ _ h => h.groups i) hparts

theorem choice (h : List.Forall₂ (Node.Becomes a) ns ns') : (Node.choice ns).Becomes a (Node.choice ns') where
  standsFor := .choice (h.imp fun _ _ h => h.standsFor)
  groups i := by
    rw [group?_choice, group?_choice]
    exact rel_findSome? (fun _ _ h => h.groups i) h

theorem onto (q : Quantifier) (h : n.Becomes a n') : (q.onto n).Becomes a (q.onto n') where
  standsFor := h.standsFor.onto q
  groups i := by
    rw [group?_onto, group?_onto]
    exact h.groups i

end Node.Becomes

/-! ### Calls -/

structure Compiled.Becomes (a : Anchoring) (c c' : Compiled) : Prop where
  root : c.root.Becomes a c'.root
  names : c'.names = c.names

variable {c c' : Compiled}

theorem Compiled.Becomes.target (h : c.Becomes a c') (r : GroupRef) :
    Option.Rel (StandsFor a) (c.target? r) (c'.target? r) := by
  have hindex : c'.index? r = c.index? r := by
    unfold index? indices
    rw [h.names]
  unfold target?
  rw [hindex]
  cases c.index? r with
  | none => exact .none
  | some n =>
    simp only [Option.bind_eq_bind, Option.bind_some]
    split
    · exact .some h.root.standsFor
    · exact h.root.groups n

theorem Compiled.Becomes.requiresCall (h : c.Becomes a c') {calls : Nat} {r : GroupRef}
    (hr : c.requiresCall a.forbidsNode calls r = true) : c'.requiresCall Node.isNever calls r = true := by
  induction calls generalizing r with
  | zero => cases hr
  | succ calls ih =>
    unfold Compiled.requiresCall at hr ⊢
    have htarget := h.target r
    revert htarget hr
    generalize c.target? r = m
    generalize c'.target? r = m'
    rintro hr (hstands | _)
    · exact hstands.requires (fun _ => ih) hr
    · cases hr

end Pattern

end GrammarScopes
