import GrammarScopes.Proofs.Pattern.Plain
import GrammarScopes.Proofs.Pattern.StandInText
import GrammarScopes.Proofs.Pattern.TracksClass

/-!
The tree of a pattern beside the tree of the pattern in which the anchors are replaced.
-/

namespace GrammarScopes.Pattern

open Anchoring

variable {a : Anchoring} {o : Options}

inductive Item.Becomes (a : Anchoring) : Item → Item → Prop
  | piece {p p' : Piece} : p.Becomes a p' → Becomes a (.piece p) (.piece p')
  | options (o : Options) : Becomes a (.options o) (.options o)

namespace Item.Becomes

variable {n n' : Node}

theorem literal (c c' : Char) : Item.Becomes a (.piece (.literal c)) (.piece (.literal c')) :=
  .piece (.kept (.literal c c'))

theorem solid (h : n.Becomes a n') : Item.Becomes a (solid n) (solid n') := .piece (.kept (.parsed ⟨h, .nil⟩))

theorem bare (h : n.Becomes a n') : Item.Becomes a (bare n) (bare n') := .piece (.kept (.parsed ⟨h, .nil⟩))

end Item.Becomes

/-! ### Escapes -/

theorem tracks_literalCode (n n' : Nat) : Tracks a (Item.Becomes a) (literalCode n) (literalCode n') := by
  unfold literalCode
  cases codeChar n with
  | error e => exact .throw_left
  | ok c =>
    cases codeChar n' with
    | error e => exact .throw_right
    | ok c' => exact .pure (.literal c c')

theorem tracks_readOctal (most : Nat) : Tracks a (Item.Becomes a) (readOctal most) (readOctal most) := by
  unfold readOctal
  apply (tracks_span (by decide) (by decide) most).bind_eq
  intro ds
  apply Tracks.guard
  intro _
  split
  · exact tracks_literalCode _ _
  · exact (tracks_completeBytes _ _).bind_eq fun _ => tracks_literalCode _ _

theorem tracks_readDigitEscape (o : Options) {c : Char} (hc : c.isDigit = true) (cs : List Char) :
    Tracks a (Item.Becomes a) (readDigitEscape o (c :: cs)) (readDigitEscape o (c :: a.apply cs)) := by
  have hne : c ≠ '\\' := by
    rintro rfl
    exact absurd hc (by decide)
  have hdigits : (c :: a.apply cs).takeWhile Char.isDigit = (c :: cs).takeWhile Char.isDigit := by
    rw [← apply_cons a hne, takeWhile_apply (by decide) (by decide)]
  have hdrop : (c :: a.apply cs).drop ((c :: cs).takeWhile Char.isDigit).length =
      a.apply ((c :: cs).drop ((c :: cs).takeWhile Char.isDigit).length) := by
    rw [← apply_cons a hne, apply_drop (not_mem_takeWhile (by decide) _) (List.takeWhile_prefix _)]
  unfold readDigitEscape
  dsimp only
  rw [hdigits]
  apply Tracks.groupCount
  intro n _ _ _
  apply Tracks.ite Iff.rfl
  · intro _
    exact .bind_setRest hdrop (.pure (.solid (.other rfl rfl)))
  intro _
  apply Tracks.ite Iff.rfl
  · intro _
    exact .bind_setRest rfl (.pure (.literal c c))
  · intro _
    exact .bind_setRest (apply_cons a hne cs).symm (tracks_readOctal 3)

theorem close_ne (c : Char) : (if c == '<' then '>' else '\'') ≠ '\\' := by
  split <;> decide

theorem tracks_readBackReference (o : Options) :
    Tracks a (Item.Becomes a) (readBackReference o) (readBackReference o) := by
  unfold readBackReference
  apply Tracks.bind_rest
  intro l l' _ hfronts
  cases hfronts with
  | @plain c cs _ =>
    dsimp only
    split
    · exact .pure (.literal _ _)
    refine .bind_setRest rfl ?_
    apply (tracks_readName (close_ne c) true).bind_eq
    rintro ⟨text, _ | n | d⟩
    · apply (tracks_groupsNamed text).bind_eq
      intro groups
      exact .guard fun _ => .pure (.solid (.other rfl rfl))
    · exact .guard fun _ => .pure (.solid (.other rfl rfl))
    · apply Tracks.groupCount
      intro n _ _ _
      exact .guard fun _ => .pure (.solid (.other rfl rfl))
  | nil | pair _ | last | anchor _ => exact .pure (.literal _ _)

theorem tracks_readCall : Tracks a (Item.Becomes a) readCall readCall := by
  unfold readCall
  apply Tracks.bind_rest
  intro l l' _ hfronts
  cases hfronts with
  | @plain c cs _ =>
    dsimp only
    split
    · exact .pure (.literal _ _)
    refine .bind_setRest rfl ?_
    apply (tracks_readName (close_ne c) true).bind_eq
    rintro ⟨text, _ | n | d⟩
    · exact .pure (.solid (.call _ _))
    · exact .pure (.solid (.call _ _))
    · apply Tracks.groupCount
      intro n _ _ _
      exact .guard fun _ => .pure (.solid (.call _ _))
  | nil | pair _ | last | anchor _ => exact .pure (.literal _ _)

theorem tracks_propertyItem (o : Options) (c : Char) : Tracks a (Item.Becomes a)
    (do
      match ← readProperty? c with
      | some s => return solid (.set (inAnyCase o s))
      | none => return .piece (.literal c))
    (do
      match ← readProperty? c with
      | some s => return solid (.set (inAnyCase o s))
      | none => return .piece (.literal c)) := by
  apply (tracks_readProperty? c).bind
  rintro (_ | s) (_ | s') hs
  · exact .pure (.literal c c)
  · cases hs
  · cases hs
  · exact .pure (.solid (.other rfl rfl))

theorem tracks_numericItem (c : Char) : Tracks a (Item.Becomes a)
    (do
      match ← readNumeric? c with
      | some (.code n) => literalCode n
      | some (.byte n _) => if n < 128 then literalCode n else literalCode (← completeBytes n none)
      | none => return .piece (.literal c))
    (do
      match ← readNumeric? c with
      | some (.code n) => literalCode n
      | some (.byte n _) => if n < 128 then literalCode n else literalCode (← completeBytes n none)
      | none => return .piece (.literal c)) := by
  apply (tracks_readNumeric? c).bind_eq
  rintro (_ | n | ⟨n, base⟩)
  · exact .pure (.literal c c)
  · exact tracks_literalCode n n
  · dsimp only
    split
    · exact tracks_literalCode n n
    · exact (tracks_completeBytes n none).bind_eq fun _ => tracks_literalCode _ _

/-- An anchor that is not replaced holds where it stands, and so is none of those that require the stand-in. -/
theorem spares_of_forbids {x : Assertion} {c : Char} (hc : a.forbids c = false)
    (hx : x = .textStart ∧ c = 'A' ∨ x = .searchStart ∧ c = 'G') : a.spares (.assertion true x) = true := by
  rcases hx with ⟨rfl, rfl⟩ | ⟨rfl, rfl⟩
  · simpa [forbids, spares, forbidsNode] using hc
  · simpa [forbids, spares, forbidsNode] using hc

theorem lineBreak_becomes : lineBreak.Becomes a lineBreak := .atomic (.other rfl rfl)

theorem textSegment_becomes : textSegment.Becomes a textSegment where
  standsFor := .atomic (.alt (.atomic (.other rfl rfl)) (.seq (.other rfl rfl) (.loop (.other rfl rfl))))
  groups _ := .none

theorem tracksAt_readEscapeItem (o : Options) {c : Char} (hc : a.forbids c = false) (cs : List Char) (n : Nat)
    (names : List (String × Nat)) : TracksAt a (Item.Becomes a) (readEscapeItem o) (readEscapeItem o)
      ⟨c :: cs, n, names⟩ ⟨c :: a.apply cs, n, names⟩ := by
  unfold readEscapeItem
  apply TracksAt.bind_rest
  apply TracksAt.bind_next
  dsimp only
  split
  · refine Tracks.at ?_ rfl
    exact .pure (.solid (.other rfl rfl))
  split
  · exact (tracks_readOctal 2).at rfl
  split
  next hdigit => exact (tracks_readDigitEscape o hdigit cs).at rfl
  have hsolid {m : Node} (h : m.Becomes a m) : TracksAt a (Item.Becomes a)
      (pure (solid m)) (pure (solid m)) ⟨cs, n, names⟩ ⟨a.apply cs, n, names⟩ := (Tracks.pure (.solid h)).at rfl
  have hbare {m : Node} (h : a.spares m = true) : TracksAt a (Item.Becomes a)
      (pure (bare m)) (pure (bare m)) ⟨cs, n, names⟩ ⟨a.apply cs, n, names⟩ :=
    (Tracks.pure (.bare (.other h h))).at rfl
  split
  case h_5 => exact hbare (spares_of_forbids hc (.inl ⟨rfl, rfl⟩))
  case h_8 => exact hbare (spares_of_forbids hc (.inr ⟨rfl, rfl⟩))
  case h_10 => exact hsolid lineBreak_becomes
  case h_11 | h_12 => exact hsolid (.other rfl rfl)
  case h_13 => exact hsolid textSegment_becomes
  case h_14 => exact (tracks_readBackReference o).at rfl
  case h_15 => exact tracks_readCall.at rfl
  case h_16 | h_17 => exact (tracks_propertyItem o _).at rfl
  case h_18 | h_19 | h_20 => exact (tracks_numericItem _).at rfl
  case h_21 =>
    apply TracksAt.bind_setRest
    exact (tracks_readEscape c cs n names).bind fun _ _ _ => tracks_literalCode _ _
  all_goals exact hbare rfl

theorem tracksEscape_readEscapeItem (o : Options) : TracksEscape a (Item.Becomes a) (readEscapeItem o)
    (readEscapeItem o) (pure (.piece (.literal neverChar))) where
  last n names := by
    intro u t v t' hu
    cases hu
  pair c cs n names hc := tracksAt_readEscapeItem o hc cs n names
  anchor c cs n names hc := by
    intro u t v t' hu hv
    cases hv
    simp only [forbids, Bool.or_eq_true, Bool.and_eq_true, beq_iff_eq] at hc
    rcases hc with ⟨rfl, hc⟩ | ⟨rfl, hc⟩
    · cases hu
      exact ⟨.piece (.replaced hc), rfl⟩
    · cases hu
      exact ⟨.piece (.replaced hc), rfl⟩

/-! ### Groups -/

theorem optionLetters_apply {on : Bool} {cs : List Char} {r r' : Options × Bool × List Char}
    (h : optionLetters o on cs = .ok r) (h' : optionLetters o on (a.apply cs) = .ok r') :
    r' = (r.1, r.2.1, a.apply r.2.2) := by
  induction cs using pair_cases generalizing o on with
  | nil | pair _ _ | last => cases h
  | other c cs hc ih =>
    rw [apply_cons a hc] at h'
    unfold optionLetters at h h'
    split at h
    case h_1 heq => cases heq
    case h_2 heq | h_3 heq =>
      cases heq
      cases h
      cases h'
      rfl
    case h_12 => cases h
    all_goals
      next heq =>
        cases heq
        exact ih h h'

section
variable {inner inner' : Alternatives}

/-- The groups of two patterns are read alongside, and a group ends before its closing parenthesis. -/
structure TracksGroups (a : Anchoring) (inner inner' : Alternatives) : Prop where
  tracks : ∀ o closed, Tracks a (Parsed.Becomes a) (inner o closed) (inner' o closed)
  closes : ∀ o s p t, (inner o true).run s = .ok (p, t) → t.rest.head? = some ')'

variable (h : TracksGroups a inner inner')
include h

theorem TracksGroups.readBody (o : Options) :
    Tracks a (Parsed.Becomes a) (Pattern.readBody inner o) (Pattern.readBody inner' o) := by
  intro s u t v t' hu hv
  unfold Pattern.readBody at hu hv
  rw [StateT.run_bind] at hu hv
  obtain ⟨⟨p, r⟩, hp, hu⟩ := bind_eq_ok.mp hu
  obtain ⟨⟨p', r'⟩, hp', hv⟩ := bind_eq_ok.mp hv
  obtain ⟨hbecomes, rfl⟩ := h.tracks o true s _ _ _ _ hp hp'
  obtain ⟨rest, hrest⟩ := List.head?_eq_some_iff.mp (h.closes o s p r hp)
  obtain ⟨l, n, names⟩ := r
  obtain rfl : l = ')' :: rest := hrest
  cases hu
  cases hv
  exact ⟨hbecomes, rfl⟩

omit h in
theorem tracks_openGroup : Tracks a (· = ·) openGroup openGroup := by
  unfold openGroup
  apply Tracks.groupCount
  intro n _ _ _
  exact .bind_modify (fun _ => rfl) (.pure rfl)

theorem TracksGroups.readNamedGroup (o : Options) {close : Char} (hclose : close ≠ '\\') :
    Tracks a (Item.Becomes a) (Pattern.readNamedGroup inner o close) (Pattern.readNamedGroup inner' o close) := by
  unfold Pattern.readNamedGroup
  apply (tracks_readName hclose false).bind_eq
  rintro ⟨name, _⟩
  apply tracks_openGroup.bind_eq
  intro n
  refine .bind_modify (fun _ => rfl) ?_
  exact (h.readBody o).bind fun _ _ hp => .pure (.solid (.group hp.node))

omit h in
theorem tracks_isNameSet (name : String × GroupName) :
    Tracks a (Node.Becomes a) (isNameSet name) (isNameSet name) := by
  rcases name with ⟨text, _ | n | d⟩
  · apply (tracks_groupsNamed text).bind_eq
    intro groups
    exact .guard fun _ => .pure (.other rfl rfl)
  · exact .pure (.other rfl rfl)
  · exact .groupCount fun _ _ _ _ => .pure (.other rfl rfl)

theorem TracksGroups.readCondition (o : Options) :
    Tracks a (Node.Becomes a) (Pattern.readCondition inner o) (Pattern.readCondition inner' o) := by
  have hbody : Tracks a (Node.Becomes a) (do return (← Pattern.readBody inner o).node)
      (do return (← Pattern.readBody inner' o).node) := (h.readBody o).bind fun _ _ hp => .pure hp.node
  unfold Pattern.readCondition
  apply Tracks.bind_rest
  intro l l' _ hfronts
  cases hfronts with
  | nil => exact .throw_left
  | @plain c cs _ =>
    dsimp only
    split
    · exact (tracks_readName (by decide) true).bind_eq tracks_isNameSet
    split
    · refine .bind_setRest rfl ?_
      apply (tracks_readName (close_ne c) true).bind_eq
      intro name
      apply (tracks_take (by decide) (by decide)).bind_eq
      intro closed
      exact .guard fun _ => tracks_isNameSet name
    · exact hbody
  | pair _ | last | anchor _ => exact hbody

theorem TracksGroups.readConditional (o : Options) :
    Tracks a (Item.Becomes a) (Pattern.readConditional inner o) (Pattern.readConditional inner' o) := by
  unfold Pattern.readConditional
  apply (h.readCondition o).bind
  intro test test' htest
  apply (h.readBody o).bind
  intro body body' hbody
  obtain ⟨hnode, hbranches⟩ := hbody
  generalize body.branches = ns at hbranches
  generalize body'.branches = ns' at hbranches
  cases hbranches with
  | nil => exact .pure (.solid (.ifElse htest hnode (.other rfl rfl)))
  | cons hyes hrest =>
    cases hrest with
    | nil => exact .throw_left
    | cons hno hrest =>
      cases hrest with
      | nil => exact .pure (.solid (.ifElse htest hyes hno))
      | cons _ _ => exact .throw_left

theorem TracksGroups.readBehindOrNamed (o : Options) : Tracks a (Item.Becomes a)
    (do
      match ← Read.rest with
      | [] => throw .unclosedGroup
      | '=' :: cs =>
        Read.setRest cs
        return Pattern.bare (.behind true (← Pattern.readBody inner o).node)
      | '!' :: cs =>
        Read.setRest cs
        return Pattern.bare (.behind false (← Pattern.readBody inner o).node)
      | _ => Pattern.readNamedGroup inner o '>')
    (do
      match ← Read.rest with
      | [] => throw .unclosedGroup
      | '=' :: cs =>
        Read.setRest cs
        return Pattern.bare (.behind true (← Pattern.readBody inner' o).node)
      | '!' :: cs =>
        Read.setRest cs
        return Pattern.bare (.behind false (← Pattern.readBody inner' o).node)
      | _ => Pattern.readNamedGroup inner' o '>') := by
  have hbehind (positive : Bool) : Tracks a (Item.Becomes a)
      (do return Pattern.bare (.behind positive (← Pattern.readBody inner o).node))
      (do return Pattern.bare (.behind positive (← Pattern.readBody inner' o).node)) :=
    (h.readBody o).bind fun _ _ hp => .pure (.bare (.behind hp.node))
  apply Tracks.bind_rest
  intro l l' _ hfronts
  cases hfronts with
  | nil => exact .throw_left
  | @plain c cs _ =>
    by_cases hequal : c = '='
    · subst hequal
      exact .bind_setRest rfl (hbehind true)
    by_cases hnot : c = '!'
    · subst hnot
      exact .bind_setRest rfl (hbehind false)
    split
    next h => cases h
    next h => exact absurd (List.cons.inj h).1 hequal
    next h => exact absurd (List.cons.inj h).1 hnot
    next =>
      split
      next h => cases h
      next h => exact absurd (List.cons.inj h).1 hequal
      next h => exact absurd (List.cons.inj h).1 hnot
      next => exact h.readNamedGroup o (by decide)
  | pair _ | last | anchor _ => exact h.readNamedGroup o (by decide)

theorem TracksGroups.readAbsent (o : Options) : Tracks a (Item.Becomes a)
    (do
      match ← Read.rest with
      | [] => throw .endInGroup
      | '|' :: _ => throw .invalidAbsent
      | _ => return Pattern.solid (.absent (← Pattern.readBody inner o).node))
    (do
      match ← Read.rest with
      | [] => throw .endInGroup
      | '|' :: _ => throw .invalidAbsent
      | _ => return Pattern.solid (.absent (← Pattern.readBody inner' o).node)) := by
  have habsent : Tracks a (Item.Becomes a) (do return Pattern.solid (.absent (← Pattern.readBody inner o).node))
      (do return Pattern.solid (.absent (← Pattern.readBody inner' o).node)) :=
    (h.readBody o).bind fun _ _ hp => .pure (.solid (.absent hp.node))
  apply Tracks.bind_rest
  intro l l' _ hfronts
  cases hfronts with
  | nil => exact .throw_left
  | plain _ =>
    split
    next => exact .throw_left
    next => exact .throw_left
    next =>
      split
      next => exact .throw_right
      next => exact .throw_right
      next => exact habsent
  | pair _ | last | anchor _ => exact habsent

theorem TracksGroups.readSpecialGroup (o : Options) :
    Tracks a (Item.Becomes a) (Pattern.readSpecialGroup inner o) (Pattern.readSpecialGroup inner' o) := by
  have hbody {f g : Node → Item} (hfg : ∀ n n', n.Becomes a n' → (f n).Becomes a (g n')) : Tracks a (Item.Becomes a)
      (do return f (← Pattern.readBody inner o).node) (do return g (← Pattern.readBody inner' o).node) :=
    (h.readBody o).bind fun _ _ hp => .pure (hfg _ _ hp.node)
  apply Tracks.of_fronts
  intro n names l l' hl hfronts
  unfold Pattern.readSpecialGroup
  apply TracksAt.bind_rest
  cases hfronts with
  | @plain c cs hc =>
    apply TracksAt.bind_next
    refine Tracks.at ?_ rfl
    split
    next h => cases h
    next => exact (h.readBody o).bind fun _ _ hp => .pure (.piece (.kept (.parsed hp)))
    next => exact hbody fun _ _ hn => .bare (.ahead hn)
    next => exact hbody fun _ _ hn => .bare (.ahead hn)
    next => exact hbody fun _ _ hn => .solid (.atomic hn)
    next => exact h.readNamedGroup o (by decide)
    next => exact h.readBehindOrNamed o
    next => exact h.readAbsent o
    next => exact h.readConditional o
    next => exact .throw_left
    next =>
      dsimp only
      cases hletters : optionLetters o true (c :: cs) with
      | error e => exact .throw_left
      | ok r =>
        cases hletters' : optionLetters o true (c :: a.apply cs) with
        | error e => exact .throw_right
        | ok r' =>
          obtain rfl := optionLetters_apply hletters (apply_cons a hc cs ▸ hletters')
          obtain ⟨o', _ | _, rest⟩ := r
          · exact .bind_setRest rfl (.pure (.options o'))
          · exact .bind_setRest rfl ((h.readBody o').bind fun _ _ hp => .pure (.solid hp.node))
  | nil | pair _ | last | anchor _ =>
    intro u t v t' hu
    cases hu

omit h in
theorem tracks_readCallout : Tracks a (Item.Becomes a) readCallout readCallout := by
  unfold readCallout
  apply bind_span_rest (by decide) (by decide)
  intro name
  apply Tracks.guard
  intro _
  apply (tracks_take (by decide) (by decide)).bind_eq
  intro closed
  apply Tracks.guard
  intro _
  split
  · exact .pure (.solid (.other rfl rfl))
  · exact .throw_left

theorem TracksGroups.readGroup (o : Options) :
    Tracks a (Item.Becomes a) (Pattern.readGroup inner o) (Pattern.readGroup inner' o) := by
  have hgroup : Tracks a (Item.Becomes a)
      (do let n ← openGroup; return Pattern.solid (.group n (← Pattern.readBody inner o).node))
      (do let n ← openGroup; return Pattern.solid (.group n (← Pattern.readBody inner' o).node)) := by
    apply tracks_openGroup.bind_eq
    intro n
    exact (h.readBody o).bind fun _ _ hp => .pure (.solid (.group hp.node))
  unfold Pattern.readGroup
  apply Tracks.bind_rest
  intro l l' _ hfronts
  cases hfronts with
  | nil => exact .throw_left
  | @plain c cs _ =>
    by_cases hspecial : c = '?'
    · subst hspecial
      exact .bind_setRest rfl (h.readSpecialGroup o)
    by_cases hcallout : c = '*'
    · subst hcallout
      exact .bind_setRest rfl tracks_readCallout
    split
    next h => cases h
    next h => exact absurd (List.cons.inj h).1 hspecial
    next h => exact absurd (List.cons.inj h).1 hcallout
    next =>
      split
      next h => cases h
      next h => exact absurd (List.cons.inj h).1 hspecial
      next h => exact absurd (List.cons.inj h).1 hcallout
      next => exact hgroup
  | pair _ | last | anchor _ => exact hgroup

/-! ### Items and branches -/

theorem TracksGroups.readItem (o : Options) :
    Tracks a (Item.Becomes a) (Pattern.readItem inner o) (Pattern.readItem inner' o) := by
  apply Tracks.of_fronts
  intro n names l l' hl hfronts
  unfold Pattern.readItem
  apply TracksAt.bind_rest
  cases hfronts with
  | nil =>
    have hempty : Tracks a (Item.Becomes a) (pure (solid .empty)) (pure (solid .empty)) :=
      .pure (.solid (.other rfl rfl))
    exact hempty.at rfl
  | @plain c cs hc =>
    apply TracksAt.bind_next
    refine Tracks.at ?_ rfl
    split
    next h => cases h
    next h => exact absurd (Option.some.inj h) hc
    next => exact .pure (.solid (.other rfl rfl))
    next => exact .pure (.bare (.other rfl rfl))
    next => exact .pure (.bare (.other rfl rfl))
    next => exact (tracks_readClass o).bind fun _ _ _ => .pure (.solid (.other rfl rfl))
    next => exact h.readGroup o
    next => exact .throw_left
    next => exact .throw_left
    next => exact .throw_left
    next h =>
      refine .bind_setRest hl ?_
      apply tracks_readBraces?.bind_eq
      intro braces
      apply Tracks.guard
      intro _
      exact .bind_setRest rfl (.pure (.literal _ _))
    next => exact .pure (.literal _ _)
  | pair hc => exact tracksAt_readEscapeItem o hc _ n names
  | last => exact (tracksEscape_readEscapeItem o).last n names
  | anchor hc => exact (tracksEscape_readEscapeItem o).anchor _ _ n names hc

omit h in
theorem tracks_readQuantifiers (o : Options) {p p' : Piece} (hp : p.Becomes a p') (n n' : Nat) :
    Tracks a (Piece.Becomes a) (readQuantifiers o n p) (readQuantifiers o n' p') := by
  induction n generalizing n' p p' with
  | zero => exact .throw_left
  | succ n ih =>
    cases n' with
    | zero => exact .throw_right
    | succ n' =>
      unfold readQuantifiers
      apply (tracks_skipIgnored o).bind
      intro _ _ _
      apply tracks_readQuantifier?.bind_eq
      intro q
      cases q with
      | none => exact .pure hp
      | some q =>
        obtain ⟨hnode, hbranches⟩ := hp.parsedWith (o := o)
        apply Tracks.guard_left
        intro _
        apply Tracks.guard_right
        intro _
        apply ih
        refine .kept (.parsed ⟨hnode.onto q, ?_⟩)
        dsimp only
        split
        · exact hbranches
        · exact .nil

theorem TracksGroups.piecesFrom (o : Options) (closed : Bool) {rest rest' : Read (List Piece)}
    (hrest : Tracks a (List.Forall₂ (Piece.Becomes a)) rest rest') {i i' : Item} (hi : i.Becomes a i') :
    Tracks a (List.Forall₂ (Piece.Becomes a)) (Pattern.piecesFrom inner o closed rest i)
      (Pattern.piecesFrom inner' o closed rest' i') := by
  cases hi with
  | options o =>
    apply (h.tracks o closed).bind
    intro p p' hp
    exact .pure (.cons (.kept (.parsed ⟨hp.node, .nil⟩)) .nil)
  | piece hp =>
    apply Tracks.bind_rest
    rintro l _ rfl -
    apply (tracks_readQuantifiers o hp _ _).bind
    intro p p' hp
    exact hrest.bind fun _ _ hps => .pure (.cons hp hps)

theorem TracksGroups.readPieces (o : Options) (closed : Bool) (n n' : Nat) : Tracks a (List.Forall₂ (Piece.Becomes a))
    (Pattern.readPieces inner o closed n) (Pattern.readPieces inner' o closed n') := by
  induction n generalizing n' with
  | zero => exact .throw_left
  | succ n ih =>
    cases n' with
    | zero => exact .throw_right
    | succ n' =>
      have hpieces := (h.readItem o).bind fun _ _ hi => h.piecesFrom o closed (ih n') hi
      unfold Pattern.readPieces
      apply (tracks_skipIgnored o).bind
      intro _ _ _
      apply Tracks.bind_rest
      intro l l' _ hfronts
      cases hfronts with
      | nil => exact .pure .nil
      | plain _ =>
        dsimp only [List.head?_cons]
        split
        next => exact .pure .nil
        next => exact .pure .nil
        next =>
          split
          · exact .pure .nil
          · exact .throw_left
        next => exact hpieces
      | pair _ | last | anchor _ => exact hpieces

theorem TracksGroups.readBranches (o : Options) (closed : Bool) (n n' : Nat) :
    Tracks a (List.Forall₂ (Parsed.Becomes a)) (Pattern.readBranches inner o closed n)
      (Pattern.readBranches inner' o closed n') := by
  induction n generalizing n' with
  | zero => exact .throw_left
  | succ n ih =>
    cases n' with
    | zero => exact .throw_right
    | succ n' =>
      unfold Pattern.readBranches
      apply Tracks.bind_rest
      rintro l _ rfl -
      apply (h.readPieces o closed _ _).bind
      intro ps ps' hps
      apply (tracks_take (by decide) (by decide)).bind_eq
      intro more
      split
      · exact (ih n').bind fun _ _ hbs => .pure (.cons (branch_becomes o hps) hbs)
      · exact .pure (.cons (branch_becomes o hps) .nil)

end

/-! ### Where alternatives end -/

def ReadState.AtEnd (closed : Bool) (s : ReadState) : Prop :=
  s.rest.head? = none ∨ closed = true ∧ s.rest.head? = some ')'

theorem readPieces_ends {inner : Alternatives} {closed : Bool}
    (hinner : ∀ o s p t, (inner o closed).run s = .ok (p, t) → t.AtEnd closed) {n : Nat} {s t : ReadState}
    {ps : List Piece} (h : (readPieces inner o closed n).run s = .ok (ps, t)) :
    t.AtEnd closed ∨ t.rest.head? = some '|' := by
  induction n generalizing s ps with
  | zero => cases h
  | succ n ih =>
    unfold readPieces at h
    rw [StateT.run_bind] at h
    obtain ⟨⟨_, s⟩, -, h⟩ := bind_eq_ok.mp h
    dsimp only at h
    rw [StateT.run_bind] at h
    obtain ⟨⟨l, r⟩, hl, h⟩ := bind_eq_ok.mp h
    cases hl
    dsimp only at h
    split at h
    next hnone =>
      cases h
      exact .inl (.inl hnone)
    next hbar =>
      cases h
      exact .inr hbar
    next hclose =>
      split at h
      next hclosed =>
        cases h
        exact .inl (.inr ⟨hclosed, hclose⟩)
      next => cases h
    next =>
      rw [StateT.run_bind] at h
      obtain ⟨⟨i, s'⟩, -, h⟩ := bind_eq_ok.mp h
      cases i with
      | options o' =>
        obtain ⟨⟨p, s'⟩, hp, h⟩ := bind_eq_ok.mp h
        cases h
        exact .inl (hinner _ _ _ _ hp)
      | piece p =>
        obtain ⟨⟨p, s'⟩, -, h⟩ := bind_eq_ok.mp h
        obtain ⟨⟨ps, s'⟩, hps, h⟩ := bind_eq_ok.mp h
        cases h
        exact ih hps

theorem run_take_eq_false {c : Char} {s t : ReadState} (h : (Read.take c).run s = .ok (false, t)) :
    t = s ∧ s.rest.head? ≠ some c := by
  obtain ⟨l, n, names⟩ := s
  cases l with
  | nil =>
    cases h
    exact ⟨rfl, nofun⟩
  | cons d l =>
    have h : (if (d == c) = true then (do Read.setRest l; return true) else return false : Read Bool).run
      ⟨d :: l, n, names⟩ = .ok (false, t) := h
    split at h
    next => cases h
    next hd =>
      cases h
      exact ⟨rfl, fun h => hd (beq_iff_eq.mpr (Option.some.inj h))⟩

theorem readBranches_ends {inner : Alternatives} {closed : Bool}
    (hinner : ∀ o s p t, (inner o closed).run s = .ok (p, t) → t.AtEnd closed) {n : Nat} {s t : ReadState}
    {bs : List Parsed} (h : (readBranches inner o closed n).run s = .ok (bs, t)) : t.AtEnd closed := by
  induction n generalizing s bs with
  | zero => cases h
  | succ n ih =>
    unfold readBranches at h
    obtain ⟨-, -, h⟩ := bind_eq_ok.mp h
    obtain ⟨⟨ps, r⟩, hps, h⟩ := bind_eq_ok.mp h
    obtain ⟨⟨more, r'⟩, htake, h⟩ := bind_eq_ok.mp h
    cases more with
    | true =>
      obtain ⟨⟨bs, r''⟩, hbs, h⟩ := bind_eq_ok.mp h
      cases h
      exact ih hbs
    | false =>
      cases h
      obtain ⟨rfl, hbar⟩ := run_take_eq_false htake
      exact (readPieces_ends hinner hps).resolve_right hbar

theorem readAlternatives_ends (n : Nat) (o : Options) (closed : Bool) {s t : ReadState} {p : Parsed}
    (h : (readAlternatives n o closed).run s = .ok (p, t)) :
    t.AtEnd closed ∧ (closed = true → t.rest.head? = some ')') := by
  induction n generalizing o closed s p t with
  | zero => cases h
  | succ n ih =>
    unfold readAlternatives at h
    obtain ⟨-, -, h⟩ := bind_eq_ok.mp h
    obtain ⟨⟨bs, r⟩, hbs, h⟩ := bind_eq_ok.mp h
    have hend := readBranches_ends (fun o _ _ _ h => (ih o closed h).1) hbs
    dsimp only at h
    change StateT.run (_ >>= _) r = _ at h
    rw [StateT.run_bind] at h
    obtain ⟨⟨l, r'⟩, hl, h⟩ := bind_eq_ok.mp h
    cases hl
    split at h
    next => cases h
    next hopen =>
      have ht : t = r := by
        split at h <;> cases h <;> rfl
      rw [ht]
      refine ⟨hend, fun hclosed => ?_⟩
      rcases hend with hnone | ⟨-, hclose⟩
      · rw [hclosed, List.head?_eq_none_iff.mp hnone] at hopen
        exact absurd rfl hopen
      · exact hclose

theorem readAlternatives_tracks (n : Nat) (o : Options) (closed : Bool) :
    Tracks a (Parsed.Becomes a) (readAlternatives n o closed) (readAlternatives n o closed) := by
  induction n generalizing o closed with
  | zero => exact .throw_left
  | succ n ih =>
    -- what is nested one level deeper tracks by induction, and ends before its parenthesis
    have hgroups : TracksGroups a (readAlternatives n) (readAlternatives n) :=
      ⟨ih, fun o _ _ _ h => (readAlternatives_ends n o true h).2 rfl⟩
    unfold readAlternatives
    apply Tracks.bind_rest
    rintro l _ rfl -
    apply (hgroups.readBranches o closed _ _).bind
    intro bs bs' hbs
    apply Tracks.bind_rest
    rintro r _ rfl -
    rw [isEmpty_apply]
    apply Tracks.guard
    intro _
    cases hbs with
    | nil => exact .pure ⟨.other rfl rfl, .nil⟩
    | cons hb hbs =>
      cases hbs with
      | nil => exact .pure hb
      | cons hb' hbs =>
        have hnodes := List.Forall₂.cons hb.node (.cons hb'.node (List.rel_map (fun _ _ h => h.node) hbs))
        exact .pure ⟨.choice hnodes, hnodes⟩

theorem parse_becomes {pattern : String} {c c' : Compiled} (h : parse pattern = .ok c)
    (h' : parse (a.patternText pattern) = .ok c') : c.Becomes a c' := by
  unfold parse at h h'
  rw [patternText, String.toList_ofList] at h'
  obtain ⟨⟨p, s⟩, hp, h⟩ := bind_eq_ok.mp h
  obtain ⟨⟨p', s'⟩, hp', h'⟩ := bind_eq_ok.mp h'
  obtain ⟨hbecomes, rfl⟩ := readAlternatives_tracks _ _ _ _ _ _ _ _ hp hp'
  cases h
  cases h'
  exact ⟨hbecomes.node, rfl⟩

/-- Where the anchors of a pattern are replaced, its tree has what stands for them. -/
theorem compile_becomes {pattern : String} {c c' : Compiled} (h : compile pattern = .ok c)
    (h' : compile (a.patternText pattern) = .ok c') : c.Becomes a c' := by
  unfold compile at h h'
  obtain ⟨p, hp, h⟩ := bind_eq_ok.mp h
  obtain ⟨p', hp', h'⟩ := bind_eq_ok.mp h'
  obtain ⟨-, -, h⟩ := bind_eq_ok.mp h
  obtain ⟨-, -, h'⟩ := bind_eq_ok.mp h'
  cases h
  cases h'
  exact parse_becomes hp hp'

end GrammarScopes.Pattern
