import GrammarScopes.Pattern.Quantifier
import GrammarScopes.Proofs.Except
import GrammarScopes.Proofs.Grammar.Anchors
import Mathlib.Data.List.TakeWhile

/-!
Reading a pattern beside the pattern in which its anchors are replaced.  Unless one of the two is refused, what is
read from both is the same but for the anchors, and so is what is left of them.
-/

namespace GrammarScopes

open Pattern

namespace Anchoring

variable {a : Anchoring} {c : Char} {cs : List Char}

theorem eq_of_forbids (h : a.forbids c = true) : c = 'A' ∨ c = 'G' := by
  simp only [forbids, Bool.or_eq_true, Bool.and_eq_true, beq_iff_eq] at h
  rcases h with ⟨hc, -⟩ | ⟨hc, -⟩
  · exact .inl hc
  · exact .inr hc

/-- What stands at the front of a pattern, and what stands there once the anchors are replaced. -/
inductive Fronts (a : Anchoring) : List Char → List Char → Prop
  | nil : Fronts a [] []
  | plain {c : Char} {cs : List Char} : c ≠ '\\' → Fronts a (c :: cs) (c :: a.apply cs)
  | pair {c : Char} {cs : List Char} : a.forbids c = false → Fronts a ('\\' :: c :: cs) ('\\' :: c :: a.apply cs)
  | last : Fronts a ['\\'] ['\\']
  | anchor {c : Char} {cs : List Char} : a.forbids c = true → Fronts a ('\\' :: c :: cs) (neverChar :: a.apply cs)

theorem fronts (a : Anchoring) (cs : List Char) : Fronts a cs (a.apply cs) := by
  cases cs using pair_cases with
  | nil => exact .nil
  | pair c cs =>
    rw [apply_pair]
    split
    next h => exact .anchor h
    next h => exact .pair (Bool.eq_false_iff.mpr h)
  | last => exact .last
  | other c cs hc =>
    rw [apply_cons a hc]
    exact .plain hc

theorem apply_append {u : List Char} (hu : '\\' ∉ u) (cs : List Char) : a.apply (u ++ cs) = u ++ a.apply cs := by
  induction u with
  | nil => rfl
  | cons c u ih =>
    obtain ⟨hc, hu⟩ := not_or.mp (List.mem_cons.not.mp hu)
    rw [List.cons_append, apply_cons a (Ne.symm hc), ih hu, List.cons_append]

theorem apply_drop {u : List Char} (hu : '\\' ∉ u) (h : u <+: cs) :
    (a.apply cs).drop u.length = a.apply (cs.drop u.length) := by
  obtain ⟨rest, rfl⟩ := h
  rw [apply_append hu, List.drop_left, List.drop_left]

theorem not_mem_takeWhile {p : Char → Bool} (hbackslash : p '\\' = false) (cs : List Char) :
    '\\' ∉ cs.takeWhile p := by
  intro h
  cases hbackslash.symm.trans (List.mem_takeWhile_imp h)

theorem takeWhile_apply {p : Char → Bool} (hbackslash : p '\\' = false) (hnever : p neverChar = false)
    (cs : List Char) : (a.apply cs).takeWhile p = cs.takeWhile p := by
  induction cs using pair_cases with
  | nil => rfl
  | pair c cs =>
    rw [apply_pair]
    split <;> simp [hbackslash, hnever]
  | last => rfl
  | other c cs hc ih => simp [apply_cons a hc, List.takeWhile_cons, ih]

theorem drop_dropWhile_apply {p : Char → Bool} (hbackslash : p '\\' = true) (hnever : p neverChar = true)
    (hanchors : ∀ c, a.forbids c = true → p c = true) (cs : List Char) :
    ((a.apply cs).dropWhile p).head? = (cs.dropWhile p).head? ∧
      ((a.apply cs).dropWhile p).drop 1 = a.apply ((cs.dropWhile p).drop 1) := by
  induction cs using pair_cases with
  | nil => exact ⟨rfl, rfl⟩
  | pair c cs ih =>
    rw [apply_pair, List.dropWhile_cons, if_pos hbackslash]
    split
    next h => simpa [List.dropWhile_cons, hnever, hanchors c h] using ih
    next =>
      rw [List.dropWhile_cons, if_pos hbackslash, List.dropWhile_cons, List.dropWhile_cons]
      split
      · exact ih
      · exact ⟨rfl, rfl⟩
  | last => simp [apply, hbackslash]
  | other c cs hc ih =>
    rw [apply_cons a hc, List.dropWhile_cons, List.dropWhile_cons]
    split
    · exact ih
    · exact ⟨rfl, rfl⟩

end Anchoring

namespace Pattern

open Anchoring

variable {α β γ δ : Type} {a : Anchoring}

def ReadState.rewrite (a : Anchoring) (s : ReadState) : ReadState := { s with rest := a.apply s.rest }

/-- If both readers succeed, what they read is related, and what is left still differs by the anchors alone. -/
def TracksAt (a : Anchoring) (R : α → β → Prop) (x : Read α) (y : Read β) (s s' : ReadState) : Prop :=
  ∀ u t v t', x.run s = .ok (u, t) → y.run s' = .ok (v, t') → R u v ∧ t' = t.rewrite a

def Tracks (a : Anchoring) (R : α → β → Prop) (x : Read α) (y : Read β) : Prop :=
  ∀ s, TracksAt a R x y s (s.rewrite a)

variable {R : α → β → Prop} {Q : γ → δ → Prop} {x : Read α} {y : Read β} {f : α → Read γ} {g : β → Read δ}
  {s s' : ReadState} {e : PatternError}

theorem TracksAt.bind (hx : TracksAt a R x y s s') (hf : ∀ u v, R u v → Tracks a Q (f u) (g v)) :
    TracksAt a Q (x >>= f) (y >>= g) s s' := by
  intro u t v t' hu hv
  rw [StateT.run_bind] at hu hv
  obtain ⟨⟨m, r⟩, hx', hu⟩ := bind_eq_ok.mp hu
  obtain ⟨⟨m', r'⟩, hy', hv⟩ := bind_eq_ok.mp hv
  obtain ⟨hm, rfl⟩ := hx _ _ _ _ hx' hy'
  exact hf m m' hm r _ _ _ _ hu hv

theorem TracksAt.throw_left : TracksAt a R (throw e) y s s' := by
  intro u t v t' hu
  cases hu

theorem TracksAt.throw_right : TracksAt a R x (throw e) s s' := by
  intro u t v t' _ hv
  cases hv

theorem TracksAt.imp {R' : α → β → Prop} (h : TracksAt a R x y s s') (hR : ∀ u v, R u v → R' u v) :
    TracksAt a R' x y s s' := by
  intro u t v t' hu hv
  obtain ⟨hR', ht⟩ := h u t v t' hu hv
  exact ⟨hR u v hR', ht⟩

section
variable {cs cs' : List Char} {c c' : Char} {n : Nat} {names : List (String × Nat)}

theorem TracksAt.bind_rest {f : List Char → Read γ} {g : List Char → Read δ}
    (h : TracksAt a Q (f s.rest) (g s'.rest) s s') : TracksAt a Q (Read.rest >>= f) (Read.rest >>= g) s s' := h

theorem TracksAt.bind_next {f : Option Char → Read γ} {g : Option Char → Read δ}
    (h : TracksAt a Q (f (some c)) (g (some c')) ⟨cs, n, names⟩ ⟨cs', n, names⟩) :
    TracksAt a Q (Read.next? >>= f) (Read.next? >>= g) ⟨c :: cs, n, names⟩ ⟨c' :: cs', n, names⟩ := h

theorem TracksAt.bind_setRest {f : Unit → Read γ} {g : Unit → Read δ} {l l' : List Char}
    (h : TracksAt a Q (f ()) (g ()) ⟨l, n, names⟩ ⟨l', n, names⟩) :
    TracksAt a Q (Read.setRest l >>= f) (Read.setRest l' >>= g) ⟨cs, n, names⟩ ⟨cs', n, names⟩ := h

theorem Tracks.at (h : Tracks a R x y) (hcs : cs' = a.apply cs) : TracksAt a R x y ⟨cs, n, names⟩ ⟨cs', n, names⟩ := by
  rw [hcs]
  exact h ⟨cs, n, names⟩

theorem Tracks.of_fronts
    (h : ∀ n names l l', l' = a.apply l → Fronts a l l' → TracksAt a R x y ⟨l, n, names⟩ ⟨l', n, names⟩) :
    Tracks a R x y := by
  rintro ⟨l, n, names⟩
  exact h n names l _ rfl (fronts a l)

end

namespace Tracks

theorem bind (hx : Tracks a R x y) (hf : ∀ u v, R u v → Tracks a Q (f u) (g v)) : Tracks a Q (x >>= f) (y >>= g) :=
  fun s => (hx s).bind hf

theorem pure {u : α} {v : β} (h : R u v) : Tracks a R (pure u) (pure v) := by
  intro s u t v t' hu hv
  cases hu
  cases hv
  exact ⟨h, rfl⟩

theorem throw_left : Tracks a R (throw e) y := fun _ => TracksAt.throw_left

theorem throw_right : Tracks a R x (throw e) := fun _ => TracksAt.throw_right

theorem throw_bind_left {f : α → Read γ} {y : Read δ} : Tracks a Q (throw e >>= f) y := by
  intro s u t v t' hu
  cases hu

theorem throw_bind_right {x : Read γ} {g : β → Read δ} : Tracks a Q x (throw e >>= g) := by
  intro s u t v t' _ hv
  cases hv

theorem guard_left {c : Prop} [Decidable c] {f : α → Read γ} {x : Read γ} {y : Read δ} (h : ¬ c → Tracks a Q x y) :
    Tracks a Q (if c then throw e >>= f else x) y := by
  split
  · exact throw_bind_left
  next hc => exact h hc

theorem guard_right {c : Prop} [Decidable c] {g : β → Read δ} {x : Read γ} {y : Read δ} (h : ¬ c → Tracks a Q x y) :
    Tracks a Q x (if c then throw e >>= g else y) := by
  split
  · exact throw_bind_right
  next hc => exact h hc

theorem guard {c : Prop} [Decidable c] {e e' : PatternError} {f : α → Read γ} {g : β → Read δ} {x : Read γ} {y : Read δ}
    (h : ¬ c → Tracks a Q x y) : Tracks a Q (if c then throw e >>= f else x) (if c then throw e' >>= g else y) := by
  split
  · exact throw_bind_left
  next hc => exact h hc

theorem ite {c c' : Prop} [Decidable c] [Decidable c'] {x z : Read γ} {y w : Read δ} (hc : c ↔ c')
    (hx : c → Tracks a Q x y) (hz : ¬ c → Tracks a Q z w) : Tracks a Q (if c then x else z) (if c' then y else w) := by
  by_cases h : c
  · rw [if_pos h, if_pos (hc.mp h)]
    exact hx h
  · rw [if_neg h, if_neg (mt hc.mpr h)]
    exact hz h

theorem lift {x : Except PatternError α} {y : Except PatternError β} (h : ∀ u v, x = .ok u → y = .ok v → R u v) :
    Tracks a R (liftM x) (liftM y) := by
  intro s u t v t' hu hv
  obtain ⟨u, hx, hu⟩ := bind_eq_ok.mp hu
  obtain ⟨v, hy, hv⟩ := bind_eq_ok.mp hv
  cases hu
  cases hv
  exact ⟨h u v hx hy, rfl⟩

theorem bind_eq {x y : Read α} {f : α → Read γ} {g : α → Read δ} (hx : Tracks a (· = ·) x y)
    (hf : ∀ u, Tracks a Q (f u) (g u)) : Tracks a Q (x >>= f) (y >>= g) := by
  apply hx.bind
  rintro u _ rfl
  exact hf u

theorem imp {R' : α → β → Prop} (h : Tracks a R x y) (hR : ∀ u v, R u v → R' u v) : Tracks a R' x y :=
  fun s => (h s).imp hR

theorem of_get : Tracks a (fun s s' => s' = s.rewrite a) get get := by
  intro s u t v t' hu hv
  cases hu
  cases hv
  exact ⟨rfl, rfl⟩

theorem of_modify {f g : ReadState → ReadState} (h : ∀ s, g (s.rewrite a) = (f s).rewrite a) :
    Tracks a (fun _ _ => True) (modify f) (modify g) := by
  intro s u t v t' hu hv
  cases hu
  cases hv
  exact ⟨trivial, h s⟩

theorem rest : Tracks a (fun l l' => l' = a.apply l) Read.rest Read.rest := by
  intro s u t v t' hu hv
  cases hu
  cases hv
  exact ⟨rfl, rfl⟩

theorem setRest {l l' : List Char} (h : l' = a.apply l) :
    Tracks a (fun _ _ => True) (Read.setRest l) (Read.setRest l') :=
  of_modify fun s => by rw [h]; rfl

theorem bind_rest {f : List Char → Read γ} {g : List Char → Read δ}
    (h : ∀ l l', l' = a.apply l → Fronts a l l' → Tracks a Q (f l) (g l')) :
    Tracks a Q (Read.rest >>= f) (Read.rest >>= g) := by
  apply rest.bind
  rintro l _ rfl
  exact h l _ rfl (fronts a l)

theorem bind_setRest {f : Unit → Read γ} {g : Unit → Read δ} {l l' : List Char} (h : l' = a.apply l)
    (hf : Tracks a Q (f ()) (g ())) : Tracks a Q (Read.setRest l >>= f) (Read.setRest l' >>= g) :=
  (setRest h).bind fun _ _ _ => hf

theorem bind_modify {f g : ReadState → ReadState} {x : PUnit → Read γ} {y : PUnit → Read δ}
    (h : ∀ s, g (s.rewrite a) = (f s).rewrite a) (hx : Tracks a Q (x ⟨⟩) (y ⟨⟩)) :
    Tracks a Q (modify f >>= x) (modify g >>= y) :=
  (of_modify h).bind fun _ _ _ => hx

theorem groupCount {f : ReadState → Read γ} {g : ReadState → Read δ}
    (h : ∀ n names l l', Tracks a Q (f ⟨l, n, names⟩) (g ⟨l', n, names⟩)) :
    Tracks a Q (get >>= f) (get >>= g) := by
  apply of_get.bind
  rintro ⟨l, n, names⟩ _ rfl
  exact h n names l _

end Tracks

/-- Reading what follows a backslash: a character that is the same on both sides, if there is one, or the letter of an
anchor, where the other reader has already taken the stand-in. -/
structure TracksEscape (a : Anchoring) (R : α → β → Prop) (x : Read α) (y z : Read β) : Prop where
  last : ∀ n names, TracksAt a R x y ⟨[], n, names⟩ ⟨[], n, names⟩
  pair : ∀ c cs n names, a.forbids c = false → TracksAt a R x y ⟨c :: cs, n, names⟩ ⟨c :: a.apply cs, n, names⟩
  anchor : ∀ c cs n names, a.forbids c = true → TracksAt a R x z ⟨c :: cs, n, names⟩ ⟨a.apply cs, n, names⟩

theorem Tracks.bind_next {f : Option Char → Read γ} {g : Option Char → Read δ} (hnil : Tracks a Q (f none) (g none))
    (hplain : ∀ c, c ≠ '\\' → Tracks a Q (f (some c)) (g (some c)))
    (hescape : TracksEscape a Q (f (some '\\')) (g (some '\\')) (g (some neverChar))) :
    Tracks a Q (Read.next? >>= f) (Read.next? >>= g) := by
  apply Tracks.of_fronts
  intro n names l l' _ hfronts
  cases hfronts with
  | nil => exact hnil.at rfl
  | plain hc => exact (hplain _ hc).at rfl
  | pair hc => exact hescape.pair _ _ n names hc
  | last => exact hescape.last n names
  | anchor hc => exact hescape.anchor _ _ n names hc

/-! ### Characters -/

theorem tracks_take {c : Char} (hbackslash : c ≠ '\\') (hnever : c ≠ neverChar) :
    Tracks a (· = ·) (Read.take c) (Read.take c) := by
  unfold Read.take
  apply Tracks.bind_rest
  intro l l' _ hfronts
  cases hfronts with
  | nil => exact .pure rfl
  | plain hd =>
    dsimp only
    split
    · exact .bind_setRest rfl (.pure rfl)
    · exact .pure rfl
  | pair _ | last | anchor _ => simpa [hbackslash.symm, hnever.symm] using Tracks.pure rfl

theorem tracks_span {p : Char → Bool} (hbackslash : p '\\' = false) (hnever : p neverChar = false) (most : Nat) :
    Tracks a (· = ·) (Read.span p most) (Read.span p most) := by
  unfold Read.span
  apply Tracks.bind_rest
  rintro l _ rfl -
  dsimp only
  have hrun : ((a.apply l).take most).takeWhile p = (l.take most).takeWhile p := by
    rw [← List.take_takeWhile, ← List.take_takeWhile, takeWhile_apply hbackslash hnever]
  have hprefix : (l.take most).takeWhile p <+: l := (List.takeWhile_prefix p).trans (List.take_prefix most l)
  rw [hrun]
  exact .bind_setRest (apply_drop (not_mem_takeWhile hbackslash _) hprefix) (.pure rfl)

theorem run_span_of_le {p : Char → Bool} {most : Nat} (h : s.rest.length ≤ most) :
    (Read.span p most).run s = (Read.span p s.rest.length).run s := by
  have htake : s.rest.take most = s.rest.take s.rest.length := by rw [List.take_of_length_le h, List.take_length]
  change Except.ok ((s.rest.take most).takeWhile p,
    { s with rest := s.rest.drop ((s.rest.take most).takeWhile p).length }) = _
  rw [htake]
  rfl

/-- The run may be as long as all that is left, and on both sides another text is left. -/
theorem bind_span_rest {p : Char → Bool} (hbackslash : p '\\' = false) (hnever : p neverChar = false)
    {f : List Char → Read γ} {g : List Char → Read δ} (h : ∀ u, Tracks a Q (f u) (g u)) :
    Tracks a Q (Read.rest >>= fun l => Read.span p l.length >>= f)
      (Read.rest >>= fun l => Read.span p l.length >>= g) := by
  intro s u t v t' hu hv
  have hspan := (tracks_span hbackslash hnever (max s.rest.length (a.apply s.rest).length)).bind_eq h
  have hright : (Read.span p (max s.rest.length (a.apply s.rest).length)).run (s.rewrite a) =
      (Read.span p (a.apply s.rest).length).run (s.rewrite a) := run_span_of_le (Nat.le_max_right _ _)
  apply hspan s u t v t'
  · rw [StateT.run_bind, run_span_of_le (Nat.le_max_left _ _)]
    exact hu
  · rw [StateT.run_bind, hright]
    exact hv

theorem tracks_groupsNamed (name : String) : Tracks a (· = ·) (Read.groupsNamed name) (Read.groupsNamed name) :=
  .groupCount fun _ _ _ _ => .pure rfl

theorem tracks_readNumber (e : PatternError) : Tracks a (· = ·) (readNumber e) (readNumber e) := by
  unfold readNumber
  apply bind_span_rest (by decide) (by decide)
  intro ds
  split
  · exact .pure rfl
  · exact .guard fun _ => .pure rfl

/-! ### What is skipped -/

theorem afterComment?_apply (cs : List Char) : afterComment? (a.apply cs) = (afterComment? cs).map a.apply := by
  induction cs using pair_cases with
  | nil => rfl
  | pair c cs ih =>
    rw [apply_pair]
    split
    next => exact ih
    next => exact ih
  | last => rfl
  | other c cs hc ih =>
    rw [apply_cons a hc]
    by_cases hclose : c = ')'
    · subst hclose
      rfl
    · have hplain (cs : List Char) : afterComment? (c :: cs) = afterComment? cs :=
        afterComment?.eq_4 c cs hclose fun _ _ h => absurd h hc
      rw [hplain, hplain, ih]

theorem apply_eq_cons {d : Char} {cs ds : List Char} (hbackslash : d ≠ '\\') (hnever : d ≠ neverChar)
    (h : a.apply cs = d :: ds) : ∃ cs', cs = d :: cs' ∧ ds = a.apply cs' := by
  have hfronts := a.fronts cs
  rw [h] at hfronts
  cases hfronts with
  | plain => exact ⟨_, rfl, rfl⟩
  | pair | last => exact absurd rfl hbackslash
  | anchor => exact absurd rfl hnever

theorem dropIgnored_stop (extended : Bool) (n : Nat) {c : Char} (hc : c = '\\' ∨ c = neverChar) (cs : List Char) :
    dropIgnored extended (n + 1) (c :: cs) = .ok (c :: cs) := by
  rcases hc with rfl | rfl
  all_goals
    rw [dropIgnored.eq_3 _ _ _ _ fun _ h => absurd h (by decide), Bool.and_eq_false_imp.mpr fun _ => by decide,
      Bool.and_eq_false_imp.mpr fun _ => by decide]
    rfl

theorem dropIgnored_apply (extended : Bool) {n n' : Nat} {cs rest rest' : List Char}
    (h : dropIgnored extended n cs = .ok rest) (h' : dropIgnored extended n' (a.apply cs) = .ok rest') :
    rest' = a.apply rest := by
  -- the two texts differ in length, so that each reader has its own bound
  induction n generalizing n' cs with
  | zero => cases h
  | succ n ih =>
    cases n' with
    | zero => cases h'
    | succ n' =>
      by_cases hcomment : ∃ ds, cs = '(' :: '?' :: '#' :: ds
      · obtain ⟨ds, rfl⟩ := hcomment
        have happly : a.apply ('(' :: '?' :: '#' :: ds) = '(' :: '?' :: '#' :: a.apply ds := rfl
        rw [happly, dropIgnored.eq_2, afterComment?_apply] at h'
        rw [dropIgnored.eq_2] at h
        cases hafter : afterComment? ds with
        | none =>
          rw [hafter] at h
          cases h
        | some ds =>
          rw [hafter] at h h'
          exact ih h h'
      · have hfronts := a.fronts cs
        generalize hcs' : a.apply cs = cs' at hfronts h'
        cases hfronts with
        | nil =>
          cases h
          cases h'
          rfl
        | @plain c cs hc =>
          have hplain : ∀ ds, c = '(' → cs = '?' :: '#' :: ds → False := by
            rintro ds rfl rfl
            exact hcomment ⟨ds, rfl⟩
          have hplain' : ∀ ds, c = '(' → a.apply cs = '?' :: '#' :: ds → False := by
            intro ds hopen hds
            obtain ⟨cs', rfl, htail⟩ := apply_eq_cons (by decide) (by decide) hds
            obtain ⟨cs', rfl, -⟩ := apply_eq_cons (by decide) (by decide) htail.symm
            exact hplain cs' hopen rfl
          rw [dropIgnored.eq_3 _ _ _ _ hplain] at h
          rw [dropIgnored.eq_3 _ _ _ _ hplain'] at h'
          by_cases hblank : (extended && isSkippedBlank c) = true
          · rw [if_pos hblank] at h h'
            exact ih h h'
          · rw [if_neg hblank] at h h'
            by_cases hsign : (extended && c == '#') = true
            · rw [if_pos hsign] at h h'
              have hanchors (d : Char) (hd : a.forbids d = true) : (d != '\n') = true := by
                rcases eq_of_forbids hd with rfl | rfl <;> decide
              rw [(drop_dropWhile_apply (by decide) (by decide) hanchors cs).2] at h'
              exact ih h h'
            · rw [if_neg hsign] at h h'
              cases h
              cases h'
              exact hcs'.symm
        | pair _ | last =>
          rw [dropIgnored_stop _ _ (.inl rfl)] at h h'
          cases h
          cases h'
          exact hcs'.symm
        | anchor _ =>
          rw [dropIgnored_stop _ _ (.inl rfl)] at h
          rw [dropIgnored_stop _ _ (.inr rfl)] at h'
          cases h
          cases h'
          exact hcs'.symm

theorem tracks_skipIgnored (o : Options) : Tracks a (fun _ _ => True) (skipIgnored o) (skipIgnored o) := by
  unfold skipIgnored
  apply Tracks.bind_rest
  rintro l _ rfl -
  refine (Tracks.lift fun u v hu hv => dropIgnored_apply o.extended hu hv).bind ?_
  intro u v hv
  exact .setRest hv

/-! ### Names of groups -/

theorem nameTail_backslash {close : Char} (hclose : close ≠ '\\') (numeric : Bool) (digits : Nat)
    (seen cs : List Char) : ∃ e, nameTail close numeric digits seen ('\\' :: cs) = .error e := by
  have hend : ('\\' == close || '\\' == ')') = false := by simpa using hclose.symm
  have hdigit : (numeric && '\\'.isDigit) = false := Bool.and_eq_false_imp.mpr fun _ => by decide
  have hword : (!Text.isWord '\\') = true := by decide +kernel
  rw [nameTail, hend, hdigit, hword]
  exact ⟨_, rfl⟩

theorem nameTail_apply {close : Char} (hclose : close ≠ '\\') {numeric : Bool} {digits : Nat}
    {seen cs name name' rest rest' : List Char} (h : nameTail close numeric digits seen cs = .ok (name, rest))
    (h' : nameTail close numeric digits seen (a.apply cs) = .ok (name', rest')) :
    name = name' ∧ rest' = a.apply rest := by
  induction cs using pair_cases generalizing digits seen with
  | nil => cases h
  | pair c cs =>
    obtain ⟨e, he⟩ := nameTail_backslash hclose numeric digits seen (c :: cs)
    cases he.symm.trans h
  | last =>
    obtain ⟨e, he⟩ := nameTail_backslash hclose numeric digits seen []
    cases he.symm.trans h
  | other c cs hc ih =>
    rw [apply_cons a hc] at h'
    rw [nameTail] at h h'
    by_cases hend : (c == close || c == ')') = true
    · rw [if_pos hend] at h h'
      by_cases hempty : (numeric && digits == 0) = true
      · rw [if_pos hempty] at h
        cases h
      · rw [if_neg hempty] at h h'
        by_cases hc : (c == close) = true
        · rw [if_pos hc] at h h'
          cases h
          cases h'
          exact ⟨rfl, rfl⟩
        · rw [if_neg hc] at h
          cases h
    · rw [if_neg hend] at h h'
      by_cases hdigit : (numeric && c.isDigit) = true
      · rw [if_pos hdigit] at h h'
        exact ih h h'
      · rw [if_neg hdigit] at h h'
        by_cases hword : (!Text.isWord c) = true
        · rw [if_pos hword] at h
          cases h
        · rw [if_neg hword] at h h'
          by_cases hnumeric : numeric = true
          · rw [if_pos hnumeric] at h
            cases h
          · rw [if_neg hnumeric] at h h'
            exact ih h h'

theorem tracks_readName {close : Char} (hclose : close ≠ '\\') (reference : Bool) :
    Tracks a (· = ·) (readName close reference) (readName close reference) := by
  unfold readName
  apply Tracks.bind_rest
  intro l l' _ hfronts
  cases hfronts with
  | nil => exact .throw_left
  | @plain c cs hc =>
    apply Tracks.guard
    intro _
    apply Tracks.guard
    intro _
    apply Tracks.guard
    intro _
    refine (Tracks.lift fun u v hu hv => nameTail_apply hclose hu hv).bind ?_
    rintro ⟨name, rest⟩ ⟨_, rest'⟩ ⟨rfl, hrest⟩
    refine .bind_setRest hrest ?_
    dsimp only
    split
    · exact .pure rfl
    · apply Tracks.guard
      intro _
      split
      · exact .pure rfl
      · exact .guard fun _ => .pure rfl
  | pair _ | last | anchor _ =>
    apply Tracks.guard_left
    intro _
    apply Tracks.guard_left
    intro _
    apply Tracks.guard_left
    intro hword
    exact absurd (by decide +kernel) hword

/-! ### Quantifiers -/

theorem tracks_readCount : Tracks a (· = ·) readCount readCount := by
  unfold readCount
  apply (tracks_readNumber _).bind_eq
  intro n
  cases n with
  | none => exact .pure rfl
  | some n =>
    dsimp only
    split
    · exact .throw_left
    · exact .pure rfl

theorem tracks_readBraces? : Tracks a (· = ·) readBraces? readBraces? := by
  unfold readBraces?
  apply Tracks.bind_rest
  rintro l _ rfl -
  have hfail : Tracks a (· = ·) (do Read.setRest l; return (none : Option (Quantifier × Bool)))
      (do Read.setRest (a.apply l); return none) := .bind_setRest rfl (.pure rfl)
  dsimp only
  apply (tracks_take (by decide) (by decide)).bind_eq
  intro opened
  split
  · exact .pure rfl
  apply tracks_readCount.bind_eq
  intro low
  apply (tracks_take (by decide) (by decide)).bind_eq
  intro comma
  split
  · apply tracks_readCount.bind_eq
    intro high
    split
    · exact hfail
    apply (tracks_take (by decide) (by decide)).bind_eq
    intro closed
    split
    · exact hfail
    cases high with
    | none => exact .pure rfl
    | some most =>
      dsimp only
      split <;> exact .pure rfl
  · cases low with
    | none => exact hfail
    | some n =>
      apply (tracks_take (by decide) (by decide)).bind_eq
      intro closed
      split
      · exact hfail
      · exact .pure rfl

theorem tracksAt_readSigned (least : Nat) (most : Option Nat) (c : Char) (cs : List Char) (n : Nat)
    (names : List (String × Nat)) : TracksAt a (· = ·) (readSigned least most) (readSigned least most)
      ⟨c :: cs, n, names⟩ ⟨c :: a.apply cs, n, names⟩ := by
  have hsign : Tracks a (· = ·)
      (do
        if ← Read.take '?' then return (⟨least, most, false, false⟩ : Quantifier)
        if ← Read.take '+' then return ⟨least, most, true, true⟩
        return ⟨least, most, true, false⟩)
      (do
        if ← Read.take '?' then return (⟨least, most, false, false⟩ : Quantifier)
        if ← Read.take '+' then return ⟨least, most, true, true⟩
        return ⟨least, most, true, false⟩) := by
    apply (tracks_take (by decide) (by decide)).bind_eq
    intro lazy
    split
    · exact .pure rfl
    apply (tracks_take (by decide) (by decide)).bind_eq
    intro possessive
    split <;> exact .pure rfl
  exact hsign.at rfl

theorem tracks_readQuantifier? : Tracks a (· = ·) readQuantifier? readQuantifier? := by
  have hsome {q q' : Quantifier} (h : q = q') : some q = some q' := congrArg some h
  apply Tracks.of_fronts
  intro n names l l' hl hfronts
  unfold readQuantifier?
  apply TracksAt.bind_rest
  cases hfronts with
  | nil => exact Tracks.at (.pure rfl) rfl
  | @plain c cs hc =>
    dsimp only [List.head?_cons]
    split
    next h =>
      cases h
      exact (tracksAt_readSigned 0 none '*' cs n names).bind fun _ _ h => .pure (hsome h)
    next h =>
      cases h
      exact (tracksAt_readSigned 1 none '+' cs n names).bind fun _ _ h => .pure (hsome h)
    next h =>
      cases h
      exact (tracksAt_readSigned 0 (some 1) '?' cs n names).bind fun _ _ h => .pure (hsome h)
    next h =>
      refine Tracks.at ?_ hl
      apply tracks_readBraces?.bind_eq
      rintro (_ | ⟨q, _ | _⟩)
      · exact .pure rfl
      · dsimp only
        split
        · exact .pure rfl
        apply (tracks_take (by decide) (by decide)).bind_eq
        intro lazy
        split <;> exact .pure rfl
      · exact .pure rfl
    next => exact Tracks.at (.pure rfl) hl
  | pair _ | last | anchor _ => exact Tracks.at (.pure rfl) hl

end Pattern

end GrammarScopes
