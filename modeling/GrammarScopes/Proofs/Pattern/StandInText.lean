import GrammarScopes.Proofs.Pattern.StandIn

/-!
Literal text and branches in which anchors are replaced.  A literal in which the stand-in occurs requires it, in any
case too, since no other character is equal to it and no folding of several characters has it.
-/

namespace GrammarScopes.Pattern

variable {a : Anchoring} {o : Options} {cs : List Char} {called : GroupRef → Bool}

theorem foldChar_never : Text.foldChar neverChar = [neverChar] := by decide +kernel

theorem caseVariants_never : Text.caseVariants neverChar = [] := by decide +kernel

theorem never_not_mem_expansions : ∀ e ∈ Text.foldExpansions, neverChar ∉ e.2.map Char.ofNat := by decide +kernel

theorem unfold_of_never {c : Char} (hcs : cs ≠ []) (h : neverChar ∈ c :: cs) : Text.unfold (c :: cs) = [] := by
  obtain ⟨d, ds, rfl⟩ := List.exists_cons_of_ne_nil hcs
  have hnone : Text.foldExpansions.filter (fun e => e.2.map Char.ofNat == c :: d :: ds) = [] := by
    apply List.filter_eq_nil_iff.mpr
    intro e he heq
    apply never_not_mem_expansions e he
    rw [beq_iff_eq.mp heq]
    exact h
  rw [Text.unfold, hnone]
  · rfl
  · exact nofun
  · exact nofun

theorem mem_of_mapM {α β : Type} {f : α → Option β} {xs : List α} {ys : List β} (h : xs.mapM f = some ys) {x : α}
    (hx : x ∈ xs) {y : β} (hy : f x = some y) : y ∈ ys := by
  induction xs generalizing ys with
  | nil => cases hx
  | cons x' xs ih =>
    simp only [List.mapM_cons, Option.bind_eq_bind, Option.bind_eq_some_iff, Option.pure_def, Option.some.injEq] at h
    obtain ⟨y', hy', ys, hys, rfl⟩ := h
    rcases List.mem_cons.mp hx with rfl | hx
    · cases hy'.symm.trans hy
      exact List.mem_cons_self
    · exact List.mem_cons_of_mem _ (ih hys hx)

theorem folded_suffixes {i : Nat} (h : cs[i]? = some neverChar) :
    ∃ e, (suffixes cs)[i]? = some e ∧ e.folded = some neverChar := by
  induction cs generalizing i with
  | nil => cases h
  | cons c cs ih =>
    cases i with
    | zero =>
      cases h
      refine ⟨_, rfl, ?_⟩
      simp [prepend, foldChar_never]
    | succ i => exact ih h

/-- Where the stand-in is still to come, the rest of the literal requires it. -/
def SuffixesRequire (cs : List Char) : Prop :=
  ∀ i e, neverChar ∈ cs.drop i → (suffixes cs)[i]? = some e →
    ∀ called, e.node.requires Node.isNever called = true

theorem merged_requires {d : Char} {n : Nat} {node : Node} (hcs : SuffixesRequire cs)
    (hmem : d = neverChar ∨ neverChar ∈ cs) (h : merged d (suffixes cs) (n + 2) = some node) :
    node.requires Node.isNever called = true := by
  simp only [merged, Option.bind_eq_bind, Option.bind_eq_some_iff] at h
  obtain ⟨later, hlater, after, hafter, h⟩ := h
  have hnone (hnever : neverChar ∈ d :: later) : Text.unfold (d :: later) = [] := by
    apply unfold_of_never _ hnever
    rintro rfl
    cases hrest : suffixes cs with
    | nil =>
      rw [hrest] at hafter
      cases hafter
    | cons e rest =>
      rw [hrest, Nat.add_one_sub_one, List.take_succ_cons] at hlater
      simp [Option.bind_eq_some_iff] at hlater
  split at h
  next => cases h
  next hunfold =>
    cases h
    apply Bool.or_eq_true_iff.mpr
    by_cases hdrop : neverChar ∈ cs.drop (n + 1)
    · exact .inr (hcs (n + 1) after hdrop hafter called)
    -- otherwise it is among the characters that were merged into one, which no character folds to
    · exfalso
      apply hunfold
      apply hnone
      rcases hmem with rfl | hmem
      · exact List.mem_cons_self
      · apply List.mem_cons_of_mem
        have htake : neverChar ∈ cs.take (n + 1) := by
          rw [← List.take_append_drop (n + 1) cs] at hmem
          exact (List.mem_append.mp hmem).resolve_right hdrop
        obtain ⟨i, hlt, hi⟩ := List.mem_take_iff_getElem.mp htake
        obtain ⟨e, he, hfolded⟩ := folded_suffixes (List.getElem?_eq_some_iff.mpr ⟨_, hi⟩)
        apply mem_of_mapM hlater _ hfolded
        apply List.mem_of_getElem? (i := i)
        rw [List.getElem?_take_of_lt (by omega), he]

theorem prepend_requires {c : Char} (hcs : SuffixesRequire cs) (hmem : neverChar ∈ c :: cs) :
    (prepend c (suffixes cs)).node.requires Node.isNever called = true := by
  have hafter (h : neverChar ∈ cs) :
      (((suffixes cs).head?.map Suffix.node).getD Node.empty).requires Node.isNever called = true := by
    cases hhead : (suffixes cs).head? with
    | none => cases cs <;> simp [suffixes] at hhead
    | some e => exact hcs 0 e h (List.head?_eq_getElem?.symm.trans hhead) called
  unfold prepend
  dsimp only
  split
  next d hd =>
    apply requires_choice rfl
    intro node hnode
    rcases List.mem_append.mp hnode with hmerged | hsingle
    · have hfirst : d = neverChar ∨ neverChar ∈ cs := by
        rcases List.mem_cons.mp hmem with rfl | h
        · left
          cases foldChar_never.symm.trans hd
          rfl
        · exact .inr h
      obtain ⟨n, hn, hmerged⟩ := List.mem_filterMap.mp hmerged
      rcases List.mem_cons.mp hn with rfl | hn
      · exact merged_requires (n := 1) hcs hfirst hmerged
      · obtain rfl := List.mem_singleton.mp hn
        exact merged_requires (n := 0) hcs hfirst hmerged
    · obtain rfl := List.mem_singleton.mp hsingle
      apply Bool.or_eq_true_iff.mpr
      rcases List.mem_cons.mp hmem with rfl | h
      · rw [caseVariants_never]
        exact .inl rfl
      · exact .inr (hafter h)
  next hfold =>
    have hcs : neverChar ∈ cs := by
      rcases List.mem_cons.mp hmem with rfl | h
      · exact absurd foldChar_never (hfold _)
      · exact h
    apply Bool.and_eq_true_iff.mpr
    constructor
    · exact requires_sequence.mpr (.inr ⟨_, List.mem_append_right _ (List.mem_singleton_self _), hafter hcs⟩)
    · exact Bool.or_eq_true_iff.mpr (.inr (hafter hcs))

theorem suffixesRequire (cs : List Char) : SuffixesRequire cs := by
  induction cs with
  | nil =>
    intro i e hmem
    simp at hmem
  | cons c cs ih =>
    intro i e hmem he called
    cases i with
    | zero =>
      cases he
      exact prepend_requires ih hmem
    | succ i => exact ih i e hmem he called

theorem requires_literalNode (o : Options) (h : neverChar ∈ cs) :
    (literalNode o cs).requires Node.isNever called = true := by
  unfold literalNode
  split
  · cases hhead : (suffixes cs).head? with
    | none => cases cs <;> simp [suffixes] at hhead
    | some e =>
      rw [caseless, hhead]
      exact suffixesRequire cs 0 e h (List.head?_eq_getElem?.symm.trans hhead) called
  · exact requires_sequence.mpr (.inr ⟨_, List.mem_map_of_mem h, rfl⟩)

theorem spares_oneOf (cs : List Char) : a.spares (.oneOf cs) = true := by
  unfold Node.oneOf
  split <;> rfl

theorem spares_prepend {c : Char} {rest : List Suffix} (hrest : ∀ e ∈ rest, a.spares e.node = true) :
    a.spares (prepend c rest).node = true := by
  have hafter : a.spares ((rest.head?.map Suffix.node).getD .empty) = true := by
    cases rest with
    | nil => rfl
    | cons e rest => exact hrest e List.mem_cons_self
  have hsingle : a.spares (.seq (.oneOf (c :: Text.caseVariants c)) ((rest.head?.map Suffix.node).getD .empty)) =
      true := Bool.and_eq_true_iff.mpr ⟨spares_oneOf _, hafter⟩
  unfold prepend
  dsimp only
  split
  next d _ =>
    apply spares_choice
    intro node hnode
    rcases List.mem_append.mp hnode with hmerged | hnode
    · obtain ⟨n, -, hmerged⟩ := List.mem_filterMap.mp hmerged
      simp only [merged, Option.bind_eq_bind, Option.bind_eq_some_iff] at hmerged
      obtain ⟨later, -, after, hat, hmerged⟩ := hmerged
      split at hmerged
      next => cases hmerged
      next =>
        cases hmerged
        exact Bool.and_eq_true_iff.mpr ⟨spares_oneOf _, hrest after (List.mem_of_getElem? hat)⟩
    · obtain rfl := List.mem_singleton.mp hnode
      exact hsingle
  next =>
    refine Bool.and_eq_true_iff.mpr ⟨?_, hsingle⟩
    apply spares_sequence
    intro node hnode
    rcases List.mem_append.mp hnode with hspelled | hnode
    · obtain ⟨d, -, rfl⟩ := List.mem_map.mp hspelled
      exact spares_oneOf _
    · obtain rfl := List.mem_singleton.mp hnode
      exact hafter

theorem spares_suffixes (cs : List Char) : ∀ e ∈ suffixes cs, a.spares e.node = true := by
  induction cs with
  | nil =>
    intro e he
    obtain rfl := List.mem_singleton.mp he
    rfl
  | cons c cs ih => exact List.forall_mem_cons.mpr ⟨spares_prepend ih, ih⟩

theorem spares_literalNode (o : Options) (cs : List Char) : a.spares (literalNode o cs) = true := by
  unfold literalNode
  split
  · unfold caseless
    cases hhead : (suffixes cs).head? with
    | none => rfl
    | some e => exact spares_suffixes cs e (List.mem_of_mem_head? hhead)
  · apply spares_sequence
    intro node hnode
    obtain ⟨c, -, rfl⟩ := List.mem_map.mp hnode
    rfl

theorem isLoop_literalNode (o : Options) (cs : List Char) : (literalNode o cs).isLoop = false :=
  isLoop_of_spares (a := ⟨true, true⟩) (spares_literalNode o cs)

/-! ### Branches -/

def Piece.group? (i : Nat) : Piece → Option Node
  | literal _ => none
  | parsed p => p.node.group? i

structure Parsed.Becomes (a : Anchoring) (p p' : Parsed) : Prop where
  node : p.node.Becomes a p'.node
  branches : List.Forall₂ (Node.Becomes a) p.branches p'.branches

/-- A piece of a branch that is not such an anchor.  Of literal characters nothing is said. -/
inductive Piece.Kept (a : Anchoring) : Piece → Piece → Prop
  | literal (c c' : Char) : Kept a (.literal c) (.literal c')
  | parsed {p p' : Parsed} : p.Becomes a p' → Kept a (.parsed p) (.parsed p')

inductive Piece.Becomes (a : Anchoring) : Piece → Piece → Prop
  | kept {p p' : Piece} : p.Kept a p' → Becomes a p p'
  | replaced {x : Assertion} : a.forbidsNode (.assertion true x) = true →
      Becomes a (.parsed { node := .assertion true x, repeatable := false }) (.literal neverChar)

variable {ps ps' : List Piece} {run run' : List Char}

theorem Parsed.Becomes.literal (c c' : Char) :
    ((Piece.literal c).parsedWith o).Becomes a ((Piece.literal c').parsedWith o) :=
  ⟨.other (spares_literalNode o [c]) (spares_literalNode o [c']), .nil⟩

theorem Piece.Becomes.parsedWith {p p' : Piece} (h : p.Becomes a p') :
    (p.parsedWith o).Becomes a (p'.parsedWith o) := by
  cases h with
  | kept h =>
    cases h with
    | literal c c' => exact .literal c c'
    | parsed h => exact h
  | replaced h =>
    refine ⟨⟨.disabled (fun _ => h) rfl ?_ (isLoop_literalNode o _), fun i => ?_⟩, .nil⟩
    · exact fun called => requires_literalNode o (List.mem_singleton_self _)
    · change Option.Rel _ none ((literalNode o [neverChar]).group? i)
      rw [group?_of_spares (a := a) (spares_literalNode o _)]
      exact .none

theorem literalNodes_become (hrun : run.isEmpty = run'.isEmpty) : List.Forall₂ (StandsFor a)
    (if run.isEmpty then [] else [literalNode o run.reverse])
    (if run'.isEmpty then [] else [literalNode o run'.reverse]) := by
  rw [← hrun]
  split
  · exact .nil
  · exact .cons (.other (spares_literalNode o _) (spares_literalNode o _)) .nil

theorem branchNodes_become (h : List.Forall₂ (Piece.Kept a) ps ps') (hrun : run.isEmpty = run'.isEmpty) :
    List.Forall₂ (StandsFor a) (branchNodes o run ps) (branchNodes o run' ps') := by
  induction h generalizing run run' with
  | nil => exact literalNodes_become hrun
  | cons hp _ ih =>
    cases hp with
    | literal c c' => exact ih rfl
    | parsed hp => exact List.rel_append (literalNodes_become hrun) (.cons hp.node.standsFor (ih rfl))

theorem node_mem_branchNodes {p : Parsed} (hp : .parsed p ∈ ps) : p.node ∈ branchNodes o run ps := by
  induction ps generalizing run with
  | nil => cases hp
  | cons q ps ih =>
    cases q with
    | literal c =>
      rcases List.mem_cons.mp hp with hp | hp
      · cases hp
      · exact ih hp
    | parsed q =>
      apply List.mem_append_right
      rcases List.mem_cons.mp hp with hp | hp
      · cases hp
        exact List.mem_cons_self
      · exact List.mem_cons_of_mem _ (ih hp)

theorem exists_literal_never (h : neverChar ∈ run) : ∃ n ∈ (if run.isEmpty then [] else [literalNode o run.reverse]),
    n.requires Node.isNever called = true := by
  have hne : run.isEmpty = false := by
    cases run with
    | nil => cases h
    | cons _ _ => rfl
  rw [hne]
  exact ⟨_, List.mem_singleton_self _, requires_literalNode o (List.mem_reverse.mpr h)⟩

theorem exists_branchNodes_never (h : neverChar ∈ run ∨ .literal neverChar ∈ ps) :
    ∃ n ∈ branchNodes o run ps, n.requires Node.isNever called = true := by
  induction ps generalizing run with
  | nil => exact exists_literal_never (h.resolve_right List.not_mem_nil)
  | cons p ps ih =>
    rw [List.mem_cons] at h
    cases p with
    | literal c =>
      apply ih
      rcases h with hrun | hc | hps
      · exact .inl (List.mem_cons_of_mem _ hrun)
      · cases hc
        exact .inl List.mem_cons_self
      · exact .inr hps
    | parsed p =>
      rcases h with hrun | hp | hps
      · obtain ⟨n, hn, hrequires⟩ := exists_literal_never hrun
        exact ⟨n, List.mem_append_left _ hn, hrequires⟩
      · cases hp
      · have hrest : ∃ n ∈ branchNodes o [] ps, n.requires Node.isNever called = true := ih (.inr hps)
        obtain ⟨n, hn, hrequires⟩ := hrest
        exact ⟨n, List.mem_append_right _ (List.mem_cons_of_mem _ hn), hrequires⟩

theorem branchNodes_ne_nil (h : run ≠ [] ∨ ps ≠ []) : branchNodes o run ps ≠ [] := by
  induction ps generalizing run with
  | nil =>
    have hne : run.isEmpty = false := by simpa using h
    simp [branchNodes, hne]
  | cons p ps ih =>
    cases p with
    | literal c => exact ih (.inl (List.cons_ne_nil _ _))
    | parsed p => exact List.append_ne_nil_of_right_ne_nil _ (List.cons_ne_nil _ _)

theorem isLoop_branchNodes (h : run ≠ [] ∨ 2 ≤ ps.length) : (Node.sequence (branchNodes o run ps)).isLoop = false := by
  induction ps generalizing run with
  | nil =>
    have hne : run.isEmpty = false := by simpa using h
    simp [branchNodes, hne, Node.sequence, isLoop_literalNode]
  | cons p ps ih =>
    cases p with
    | literal c => exact ih (.inl (List.cons_ne_nil _ _))
    | parsed p =>
      cases run with
      | cons c run => rfl
      | nil =>
        have hps : ps ≠ [] := by
          rintro rfl
          simp at h
        have hrest : branchNodes o [] ps ≠ [] := branchNodes_ne_nil (.inr hps)
        obtain ⟨n, ns, hns⟩ := List.exists_cons_of_ne_nil hrest
        simp [branchNodes, hns, Node.sequence, Node.isLoop]

theorem kept_or_replaced (h : List.Forall₂ (Piece.Becomes a) ps ps') : List.Forall₂ (Piece.Kept a) ps ps' ∨
    (∃ p, .parsed p ∈ ps ∧ ∀ called, p.node.requires a.forbidsNode called = true) ∧ .literal neverChar ∈ ps' := by
  induction h with
  | nil => exact .inl .nil
  | cons hp _ ih =>
    cases hp with
    | kept hp =>
      rcases ih with hkept | ⟨⟨q, hq, hrequires⟩, hnever⟩
      · exact .inl (.cons hp hkept)
      · exact .inr ⟨⟨q, List.mem_cons_of_mem _ hq, hrequires⟩, List.mem_cons_of_mem _ hnever⟩
    | replaced hx => exact .inr ⟨⟨_, List.mem_cons_self, fun _ => hx⟩, List.mem_cons_self⟩

theorem group?_branchNodes (i : Nat) :
    (branchNodes o run ps).findSome? (·.group? i) = ps.findSome? (Piece.group? i) := by
  have hliteral (run : List Char) :
      (if run.isEmpty then [] else [literalNode o run.reverse]).findSome? (·.group? i) = none := by
    split
    · rfl
    · simp [group?_of_spares (a := ⟨true, true⟩) (spares_literalNode o run.reverse)]
  induction ps generalizing run with
  | nil => exact hliteral run
  | cons p ps ih =>
    cases p with
    | literal c => exact ih
    | parsed p =>
      unfold branchNodes
      rw [List.findSome?_append, hliteral, Option.none_or, List.findSome?_cons, List.findSome?_cons, ih]
      rfl

theorem Piece.Becomes.groups {p p' : Piece} (h : p.Becomes a p') (i : Nat) :
    Option.Rel (StandsFor a) (p.group? i) (p'.group? i) := by
  cases h with
  | kept h =>
    cases h with
    | literal => exact .none
    | parsed h => exact h.node.groups i
  | replaced => exact .none

theorem branch_becomes (o : Options) (h : List.Forall₂ (Piece.Becomes a) ps ps') :
    (branch o ps).Becomes a (branch o ps') := by
  have hstands (hlength : 2 ≤ ps.length) : StandsFor a (.sequence (branchNodes o [] ps))
      (.sequence (branchNodes o [] ps')) := by
    -- one replaced anchor disables the branch, however the literals around it are grouped
    rcases kept_or_replaced h with hkept | ⟨⟨p, hp, hrequires⟩, hnever⟩
    · exact .sequence (branchNodes_become hkept rfl)
    · apply StandsFor.disabled
      · exact fun called => requires_sequence.mpr (.inr ⟨_, node_mem_branchNodes hp, hrequires called⟩)
      · exact isLoop_branchNodes (.inr hlength)
      · exact fun called => requires_sequence.mpr (.inr (exists_branchNodes_never (.inr hnever)))
      · exact isLoop_branchNodes (.inr (h.length_eq ▸ hlength))
  have hgroups (i : Nat) : Option.Rel (StandsFor a) ((Node.sequence (branchNodes o [] ps)).group? i)
      ((Node.sequence (branchNodes o [] ps')).group? i) := by
    rw [group?_sequence, group?_sequence, group?_branchNodes, group?_branchNodes]
    exact rel_findSome? (fun _ _ h => h.groups i) h
  cases h with
  | nil => exact ⟨.other rfl rfl, .nil⟩
  | cons hp hps =>
    cases hps with
    | nil => exact hp.parsedWith
    | cons hq hps => exact ⟨⟨hstands (by simp), hgroups⟩, .nil⟩

end GrammarScopes.Pattern
