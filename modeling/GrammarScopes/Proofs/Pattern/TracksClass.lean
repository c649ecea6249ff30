import GrammarScopes.Pattern.ClassReader
import GrammarScopes.Proofs.Pattern.Tracks
import Mathlib.Data.List.Find

/-!
Escapes and classes, read beside the pattern in which the anchors are replaced.  Inside a class the letter of an anchor
is a letter, so that of the characters that a class stands for nothing is said.
-/

namespace GrammarScopes.Pattern

open Anchoring

variable {α β γ δ : Type} {a : Anchoring} {R : α → β → Prop} {Q : γ → δ → Prop}

theorem isEmpty_apply (cs : List Char) : (a.apply cs).isEmpty = cs.isEmpty := by
  have hfronts := a.fronts cs
  generalize a.apply cs = cs' at hfronts
  cases hfronts <;> rfl

theorem head?_apply {d : Char} (hbackslash : '\\' ≠ d) (hnever : neverChar ≠ d) (cs : List Char) :
    ((a.apply cs).head? == some d) = (cs.head? == some d) := by
  have hfronts := a.fronts cs
  generalize a.apply cs = cs' at hfronts
  cases hfronts with
  | nil | plain _ | pair _ | last => rfl
  | anchor _ => simp [hbackslash, hnever]

/-! ### Codes -/

theorem run_readEscapedCode_nil (n k : Nat) (names : List (String × Nat)) :
    ∃ e, (readEscapedCode n).run ⟨[], k, names⟩ = .error e := by
  cases n with
  | zero => exact ⟨_, rfl⟩
  | succ n => exact ⟨_, rfl⟩

theorem run_readEscapedCode_anchor {c : Char} (hc : a.forbids c = true) {n : Nat} {cs : List Char} {k : Nat}
    {names : List (String × Nat)} {u : Nat} {t : ReadState}
    (h : (readEscapedCode n).run ⟨c :: cs, k, names⟩ = .ok (u, t)) : t = ⟨cs, k, names⟩ := by
  cases n with
  | zero => cases h
  | succ n =>
    rcases eq_of_forbids hc with rfl | rfl
    · cases h
      rfl
    · cases h
      rfl

/-- The codes that two readers of an escaped character find may differ. -/
def TracksCodes (a : Anchoring) (x y : Read Nat) : Prop :=
  ∀ c cs n names, TracksAt a (fun _ _ => True) x y ⟨c :: cs, n, names⟩ ⟨c :: a.apply cs, n, names⟩

theorem tracksEscape_readEscapedCode {n n' : Nat} (h : TracksCodes a (readEscapedCode n) (readEscapedCode n'))
    (f g : Nat → Nat) (w : Nat) : TracksEscape a (fun _ _ => True) (do return f (← readEscapedCode n))
      (do return g (← readEscapedCode n')) (pure w) where
  last k names := by
    intro u t v t' hu
    obtain ⟨e, he⟩ := run_readEscapedCode_nil n k names
    rw [StateT.run_bind, he] at hu
    cases hu
  pair c cs k names _ := (h c cs k names).bind fun _ _ _ => .pure trivial
  anchor c cs k names hc := by
    intro u t v t' hu hv
    obtain ⟨⟨u', s⟩, hs, hu⟩ := bind_eq_ok.mp hu
    cases hu
    cases hv
    cases run_readEscapedCode_anchor hc hs
    exact ⟨trivial, rfl⟩

theorem tracks_readControl {n n' : Nat} (h : TracksCodes a (readEscapedCode n) (readEscapedCode n')) :
    Tracks a (fun _ _ => True) (readControl (readEscapedCode n)) (readControl (readEscapedCode n')) := by
  unfold readControl
  apply Tracks.bind_next
  · exact .throw_left
  · intro c hc
    split
    next h => cases h
    next => exact .pure trivial
    next h => exact absurd (Option.some.inj h) hc
    next => exact .pure trivial
  · exact tracksEscape_readEscapedCode h _ _ _

theorem tracks_readMeta {n n' : Nat} (h : TracksCodes a (readEscapedCode n) (readEscapedCode n')) :
    Tracks a (fun _ _ => True) (readMeta (readEscapedCode n)) (readMeta (readEscapedCode n')) := by
  unfold readMeta
  apply Tracks.bind_next
  · exact .throw_left
  · intro c hc
    split
    next h => cases h
    next h => exact absurd (Option.some.inj h) hc
    next => exact .pure trivial
  · exact tracksEscape_readEscapedCode h _ _ _

theorem throws_of_throw {e : PatternError} {y z : Read δ} : TracksEscape a Q (throw e) y z :=
  ⟨fun _ _ => .throw_left, fun _ _ _ _ _ => .throw_left, fun _ _ _ _ _ => .throw_left⟩

theorem tracks_readEscapedCode (n n' : Nat) : TracksCodes a (readEscapedCode n) (readEscapedCode n') := by
  induction n generalizing n' with
  | zero => exact fun _ _ _ _ => .throw_left
  | succ n ih =>
    cases n' with
    | zero => exact fun _ _ _ _ => .throw_right
    | succ n' =>
      intro c cs k names
      unfold readEscapedCode
      apply TracksAt.bind_next
      refine Tracks.at ?_ rfl
      split
      next h => cases h
      next =>
        apply Tracks.bind_next .throw_left _ throws_of_throw
        intro d hd
        split
        next h => cases h
        next => exact tracks_readMeta (ih n')
        next => exact .throw_left
      next =>
        apply Tracks.bind_next .throw_left _ throws_of_throw
        intro d hd
        split
        next h => cases h
        next => exact tracks_readControl (ih n')
        next => exact .throw_left
      next => exact tracks_readControl (ih n')
      next => exact .pure trivial

theorem tracks_readEscape : TracksCodes a readEscape readEscape :=
  fun c cs n names => tracks_readEscapedCode (c :: cs).length.succ (c :: a.apply cs).length.succ c cs n names

theorem tracks_bracedCode? {isDigit : Char → Bool} (hbackslash : isDigit '\\' = false)
    (hnever : isDigit neverChar = false) (base most : Nat) :
    Tracks a (· = ·) (bracedCode? isDigit base most) (bracedCode? isDigit base most) := by
  unfold bracedCode?
  apply Tracks.bind_rest
  rintro l _ rfl -
  apply (tracks_take (by decide) (by decide)).bind_eq
  intro opened
  split
  · exact .pure rfl
  apply (tracks_span hbackslash hnever most).bind_eq
  intro ds
  have hclose : Tracks a (· = ·)
      (do
        if !ds.isEmpty && (← Read.take '\x7d') then return some (digitsValue base ds)
        Read.setRest l
        return none)
      (do
        if !ds.isEmpty && (← Read.take '\x7d') then return some (digitsValue base ds)
        Read.setRest (a.apply l)
        return none) := by
    apply (tracks_take (by decide) (by decide)).bind_eq
    intro closed
    split
    · exact .pure rfl
    · exact .bind_setRest rfl (.pure rfl)
  apply Tracks.bind_rest
  intro r r' _ hfronts
  cases hfronts with
  | nil => exact hclose
  | plain _ => exact .guard fun _ => hclose
  | pair _ | last | anchor _ =>
    dsimp only [List.head?_cons]
    simp only [hbackslash, hnever]
    exact hclose

theorem tracks_readNumeric? (letter : Char) : Tracks a (· = ·) (readNumeric? letter) (readNumeric? letter) := by
  unfold readNumeric?
  apply Tracks.bind_rest
  rintro l _ rfl -
  rw [isEmpty_apply]
  split
  · exact .pure rfl
  split
  · apply Tracks.bind_rest
    rintro r _ rfl -
    rw [head?_apply (by decide) (by decide)]
    split
    · exact (tracks_bracedCode? (by decide) (by decide) 16 8).bind_eq fun _ => .pure rfl
    · exact (tracks_span (by decide) (by decide) 2).bind_eq fun _ => .pure rfl
  · apply (tracks_span (by decide) (by decide) 4).bind_eq
    intro ds
    exact .guard fun _ => .pure rfl
  · exact (tracks_bracedCode? (by decide) (by decide) 8 11).bind_eq fun _ => .pure rfl
  · exact .pure rfl

theorem tracks_nextByte? (octal : Nat) : Tracks a (· = ·) (nextByte? octal) (nextByte? octal) := by
  unfold nextByte?
  apply Tracks.bind_rest
  intro l l' _ hfronts
  cases hfronts with
  | nil => exact .pure rfl
  | @plain c cs hc =>
    split
    next h => exact absurd (List.cons.inj h).1 hc
    next =>
      split
      next h => exact absurd (List.cons.inj h).1 hc
      next => exact .pure rfl
  | @pair c cs hc =>
    change Tracks a _ (if (c == 'x' && !cs.isEmpty) = true then _ else _)
      (if (c == 'x' && !(a.apply cs).isEmpty) = true then if ((a.apply cs).head? == some '\x7b') = true then _ else _
      else _)
    rw [isEmpty_apply, head?_apply (by decide) (by decide)]
    split
    · split
      · exact .pure rfl
      · exact .bind_setRest rfl ((tracks_span (by decide) (by decide) 2).bind_eq fun _ => .pure rfl)
    · split
      · exact .pure rfl
      next hoctal =>
        have hne : c ≠ '\\' := by
          rintro rfl
          exact hoctal (by decide)
        refine .bind_setRest (apply_cons a hne cs).symm ?_
        exact (tracks_span (by decide) (by decide) octal).bind_eq fun _ => .pure rfl
  | last => exact .pure rfl
  | anchor hc => rcases eq_of_forbids hc with rfl | rfl <;> exact .pure rfl

theorem tracks_moreBytes (sameBase : Option Nat) (n : Nat) :
    Tracks a (· = ·) (moreBytes sameBase n) (moreBytes sameBase n) := by
  induction n with
  | zero => exact .pure rfl
  | succ n ih =>
    unfold moreBytes
    apply Tracks.bind_rest
    rintro l _ rfl -
    apply (tracks_nextByte? 3).bind_eq
    rintro (_ | ⟨b, base⟩)
    · exact .pure rfl
    dsimp only
    split
    · exact .bind_setRest rfl (.pure rfl)
    · exact ih.bind_eq fun _ => .pure rfl

theorem tracks_completeBytes (lead : Nat) (sameBase : Option Nat) :
    Tracks a (· = ·) (completeBytes lead sameBase) (completeBytes lead sameBase) := by
  unfold completeBytes
  apply (tracks_moreBytes sameBase _).bind_eq
  intro more
  apply Tracks.guard
  intro _
  cases decodeBytes (lead :: more) with
  | ok n => exact .pure rfl
  | error e => exact .throw_left

/-! ### Properties -/

theorem drop_length_takeWhile (p : Char → Bool) (l : List Char) : l.drop (l.takeWhile p).length = l.dropWhile p := by
  induction l with
  | nil => rfl
  | cons c l ih =>
    rw [List.takeWhile_cons, List.dropWhile_cons]
    split
    · exact ih
    · rfl

theorem tracks_readProperty : Tracks a (fun _ _ => True) readProperty readProperty := by
  unfold readProperty
  apply Tracks.bind_rest
  rintro l _ rfl -
  dsimp only
  generalize hend : (fun c => !(c == '\x7d' || c == '(' || c == ')' || c == '\x7b' || c == '|')) = notEnd
  have hanchors (c : Char) (hc : a.forbids c = true) : notEnd c = true := by
    rcases eq_of_forbids hc with rfl | rfl <;> rw [← hend] <;> rfl
  obtain ⟨hhead, htail⟩ := drop_dropWhile_apply (by rw [← hend]; rfl) (by rw [← hend]; rfl) hanchors l
  rw [drop_length_takeWhile, drop_length_takeWhile]
  cases hrest : l.dropWhile notEnd with
  | nil => exact .throw_left
  | cons c cs =>
    rw [hrest] at hhead htail
    obtain ⟨cs', hrest'⟩ := List.head?_eq_some_iff.mp hhead
    rw [hrest'] at htail ⊢
    apply Tracks.guard
    intro _
    cases propertySet? (l.takeWhile notEnd) with
    | none => exact .throw_left
    | some s =>
      cases propertySet? ((a.apply l).takeWhile notEnd) with
      | none => exact .throw_right
      | some s' => exact .bind_setRest htail (.pure trivial)

theorem tracks_readProperty? (letter : Char) :
    Tracks a (fun s s' => s.isSome = s'.isSome) (readProperty? letter) (readProperty? letter) := by
  unfold readProperty?
  apply (tracks_take (by decide) (by decide)).bind_eq
  intro opened
  split
  · exact .pure rfl
  apply (tracks_take (by decide) (by decide)).bind_eq
  intro negated
  exact tracks_readProperty.bind fun _ _ _ => .pure rfl

/-! ### Classes -/

theorem closesBracketName_cons {c : Char} (hbackslash : c ≠ '\\') (hcolon : c ≠ ':') (cs : List Char) :
    closesBracketName (c :: cs) = (c != ']' && closesBracketName cs) :=
  closesBracketName.eq_4 c cs (fun _ _ h => absurd h hbackslash) hcolon

theorem closesBracketName_apply (cs : List Char) : closesBracketName (a.apply cs) = closesBracketName cs := by
  induction cs using pair_cases with
  | nil => rfl
  | pair c cs ih =>
    rw [apply_pair]
    split
    · rw [closesBracketName_cons (by decide) (by decide), ih]
      rfl
    · exact ih
  | last => rfl
  | other c cs hc ih =>
    rw [apply_cons a hc]
    by_cases hcolon : c = ':'
    · subst hcolon
      rw [closesBracketName.eq_3, closesBracketName.eq_3, ih, head?_apply (by decide) (by decide)]
    · rw [closesBracketName_cons hc hcolon, closesBracketName_cons hc hcolon, ih]

theorem length_apply_le (cs : List Char) : (a.apply cs).length ≤ cs.length := by
  induction cs using pair_cases with
  | nil => exact Nat.le_refl _
  | pair c cs ih =>
    rw [apply_pair]
    split <;> simp only [List.length_cons] <;> omega
  | last => exact Nat.le_refl _
  | other c cs hc ih => simpa [apply_cons a hc] using ih

theorem isPrefixOf_apply {u : List Char} (hbackslash : '\\' ∉ u) (hnever : neverChar ∉ u) (cs : List Char) :
    u.isPrefixOf (a.apply cs) = u.isPrefixOf cs := by
  induction u generalizing cs with
  | nil => rfl
  | cons d u ih =>
    obtain ⟨hd, hu⟩ := not_or.mp (List.mem_cons.not.mp hbackslash)
    obtain ⟨hd', hu'⟩ := not_or.mp (List.mem_cons.not.mp hnever)
    have hd : (d == '\\') = false := beq_eq_false_iff_ne.mpr (Ne.symm hd)
    have hd' : (d == neverChar) = false := beq_eq_false_iff_ne.mpr (Ne.symm hd')
    have hfronts := a.fronts cs
    generalize a.apply cs = cs' at hfronts
    cases hfronts with
    | nil | last => rfl
    | plain _ => simp [List.isPrefixOf, ih hu hu']
    | pair _ => simp only [List.isPrefixOf, hd, Bool.false_and]
    | anchor _ => simp only [List.isPrefixOf, hd, hd', Bool.false_and]

theorem bracketSets_plain : ∀ e ∈ bracketSets, '\\' ∉ e.1.toList ∧ neverChar ∉ e.1.toList ∧ 4 ≤ e.1.toList.length := by
  decide +kernel

theorem bracketName?_apply_of_le {cs : List Char} (h : 7 ≤ (a.apply cs).length) :
    bracketName? (a.apply cs) = bracketName? cs := by
  have hlength := length_apply_le (a := a) cs
  rw [bracketName?, bracketName?, if_neg (by omega), if_neg (by omega)]
  apply List.find?_congr
  intro e he
  obtain ⟨hbackslash, hnever, -⟩ := bracketSets_plain e he
  exact isPrefixOf_apply hbackslash hnever cs

theorem bracketName?_apply_of_none {cs : List Char} (h : bracketName? cs = none) :
    bracketName? (a.apply cs) = none := by
  by_cases hlength : 7 ≤ (a.apply cs).length
  · rw [bracketName?_apply_of_le hlength, h]
  · rw [bracketName?, if_pos (by omega)]

/-- A name that is closed is found where the anchors are replaced too, however short this makes the text. -/
theorem bracketName?_apply_of_some {cs : List Char} {name : String} {s : NamedSet}
    (h : bracketName? cs = some (name, s)) (hclose : [':', ']'].isPrefixOf (cs.drop name.length) = true) :
    ∃ tail, cs.drop name.length = ':' :: ']' :: tail ∧ (a.apply cs).drop name.length = ':' :: ']' :: a.apply tail ∧
      bracketName? (a.apply cs) = some (name, s) := by
  have hlength : 7 ≤ cs.length := by
    by_contra hlt
    rw [bracketName?, if_pos (by omega)] at h
    cases h
  have hfind := h
  rw [bracketName?, if_neg (by omega)] at hfind
  obtain ⟨hbackslash, -, hfour⟩ := bracketSets_plain _ (List.mem_of_find?_eq_some hfind)
  have hfour : 4 ≤ name.toList.length := hfour
  have hname : name.toList.isPrefixOf cs = true := by
    have hfound := List.find?_some hfind
    exact hfound
  obtain ⟨rest, rfl⟩ := List.isPrefixOf_iff_prefix.mp hname
  rw [← String.length_toList, List.drop_left] at hclose ⊢
  obtain ⟨tail, rfl⟩ := List.isPrefixOf_iff_prefix.mp hclose
  have happly : a.apply (name.toList ++ ([':', ']'] ++ tail)) = name.toList ++ ([':', ']'] ++ a.apply tail) := by
    rw [apply_append hbackslash, apply_append (by decide)]
  refine ⟨tail, rfl, by rw [happly, List.drop_left]; rfl, ?_⟩
  rw [bracketName?_apply_of_le, h]
  cases tail with
  | nil =>
    rw [happly]
    exact hlength
  | cons c tail =>
    have hne : 0 < (a.apply (c :: tail)).length := by
      rw [List.length_pos_iff, ← List.isEmpty_eq_false_iff, isEmpty_apply]
      rfl
    have hlengths := congrArg List.length happly
    simp only [List.length_append, List.length_cons, List.length_nil] at hlengths
    omega

theorem bracketSet?_apply {o : Options} {negated : Bool} {cs : List Char} {r r' : Option (CharSet × List Char)}
    (h : bracketSet? o negated cs = .ok r) (h' : bracketSet? o negated (a.apply cs) = .ok r') :
    (r = none ∧ r' = none) ∨ ∃ s rest, r = some (s, rest) ∧ r' = some (s, a.apply rest) := by
  have hnone {cs : List Char} {r : Option (CharSet × List Char)} (hname : bracketName? cs = none)
      (h : bracketSet? o negated cs = .ok r) : r = none := by
    unfold bracketSet? at h
    rw [hname] at h
    dsimp only at h
    split at h
    · cases h
    · cases h
      rfl
  cases hname : bracketName? cs with
  | none => exact .inl ⟨hnone hname h, hnone (bracketName?_apply_of_none hname) h'⟩
  | some e =>
    obtain ⟨name, s⟩ := e
    unfold bracketSet? at h h'
    rw [hname] at h
    dsimp only at h
    split at h
    next hclose =>
      cases h
      obtain ⟨tail, hdrop, hdrop', hname'⟩ := bracketName?_apply_of_some hname hclose
      have hclose' : [':', ']'].isPrefixOf (':' :: ']' :: a.apply tail) = true := rfl
      rw [hname'] at h'
      dsimp only at h'
      rw [hdrop', if_pos hclose'] at h'
      cases h'
      rw [hdrop]
      exact .inr ⟨_, _, rfl, rfl⟩
    next => cases h

inductive ClassToken.Alike : ClassToken → ClassToken → Prop
  | close : Alike .close .close
  | nested : Alike .nested .nested
  | item {t t' : ClassToken} : t ≠ .close → t ≠ .nested → t' ≠ .close → t' ≠ .nested → Alike t t'

theorem ClassToken.Alike.code (n n' : Nat) : Alike (.code n) (.code n') := .item nofun nofun nofun nofun

theorem ClassToken.Alike.set (s s' : CharSet) : Alike (.set s) (.set s') := .item nofun nofun nofun nofun

theorem ClassToken.Alike.self (t : ClassToken) : Alike t t := by
  cases t with
  | close => exact .close
  | nested => exact .nested
  | _ => exact .item nofun nofun nofun nofun

theorem tracks_numericToken (c : Char) (numeric? : Option Numeric) : Tracks a ClassToken.Alike
    (match numeric? with
      | some (.code n) => return .code n
      | some (.byte n base) => do
        if n < 128 then return .code n
        if formLength n == 1 then return .loneByte n
        return .code (← completeBytes n (some base))
      | none => return .code c.toNat)
    (match numeric? with
      | some (.code n) => return .code n
      | some (.byte n base) => do
        if n < 128 then return .code n
        if formLength n == 1 then return .loneByte n
        return .code (← completeBytes n (some base))
      | none => return .code c.toNat) := by
  rcases numeric? with _ | n | ⟨n, base⟩
  · exact .pure (.self _)
  · exact .pure (.self _)
  · dsimp only
    split
    · exact .pure (.self _)
    split
    · exact .pure (.self _)
    · exact (tracks_completeBytes n _).bind_eq fun _ => .pure (.self _)

theorem tracks_octalToken : Tracks a ClassToken.Alike
    (do
      let n := digitsValue 8 (← Read.span isOctal 3)
      if n < 128 then return ClassToken.code n
      if n > 255 then throw .numberTooLarge
      if formLength n == 1 then return .loneByte n
      return .code (← completeBytes n (some 8)))
    (do
      let n := digitsValue 8 (← Read.span isOctal 3)
      if n < 128 then return ClassToken.code n
      if n > 255 then throw .numberTooLarge
      if formLength n == 1 then return .loneByte n
      return .code (← completeBytes n (some 8))) := by
  apply (tracks_span (by decide) (by decide) 3).bind_eq
  intro ds
  dsimp only
  split
  · exact .pure (.self _)
  apply Tracks.guard
  intro _
  split
  · exact .pure (.self _)
  · exact (tracks_completeBytes _ _).bind_eq fun _ => .pure (.self _)

theorem tracksAt_readEscapeToken (o : Options) (c : Char) (cs : List Char) (n : Nat) (names : List (String × Nat)) :
    TracksAt a ClassToken.Alike (readEscapeToken o) (readEscapeToken o) ⟨c :: cs, n, names⟩
      ⟨c :: a.apply cs, n, names⟩ := by
  unfold readEscapeToken
  apply TracksAt.bind_rest
  apply TracksAt.bind_next
  dsimp only
  split
  · refine Tracks.at ?_ rfl
    exact .pure (.self _)
  split
  · refine Tracks.at ((tracks_readProperty? c).bind ?_) rfl
    rintro (_ | s) (_ | s') hs
    · exact .pure (.self _)
    · cases hs
    · cases hs
    · exact .pure (.set s s')
  split
  next hoctal =>
    have hne : c ≠ '\\' := by
      rintro rfl
      exact absurd hoctal (by decide)
    exact Tracks.at (.bind_setRest (apply_cons a hne cs).symm tracks_octalToken) rfl
  split
  · exact Tracks.at ((tracks_readNumeric? c).bind_eq fun r => tracks_numericToken c r) rfl
  · apply TracksAt.bind_setRest
    exact (tracks_readEscape c cs n names).bind fun _ _ _ => .pure (.code _ _)

theorem tracksEscape_readEscapeToken (o : Options) (k : Nat) :
    TracksEscape a ClassToken.Alike (readEscapeToken o) (readEscapeToken o) (pure (.code k)) where
  last n names := by
    intro u t v t' hu
    cases hu
  pair c cs n names _ := tracksAt_readEscapeToken o c cs n names
  anchor c cs n names hc := by
    intro u t v t' hu hv
    cases hv
    rcases eq_of_forbids hc with rfl | rfl
    · cases hu
      exact ⟨.code _ _, rfl⟩
    · cases hu
      exact ⟨.code _ _, rfl⟩

theorem tracks_bracketToken (o : Options) (cs : List Char) : Tracks a ClassToken.Alike
    (do
      if !closesBracketName cs then return .nested
      let negated := cs.head? == some '^'
      match bracketSet? o negated (if negated then cs.drop 1 else cs) with
      | .error e => throw e
      | .ok (some (s, rest)) => Read.setRest rest; return .set s
      | .ok none => return .code '['.toNat)
    (do
      if !closesBracketName (a.apply cs) then return .nested
      let negated := (a.apply cs).head? == some '^'
      match bracketSet? o negated (if negated then (a.apply cs).drop 1 else a.apply cs) with
      | .error e => throw e
      | .ok (some (s, rest)) => Read.setRest rest; return .set s
      | .ok none => return .code '['.toNat) := by
  have hname : (if (cs.head? == some '^') = true then (a.apply cs).drop 1 else a.apply cs) =
      a.apply (if (cs.head? == some '^') = true then cs.drop 1 else cs) := by
    split
    next hhead =>
      obtain ⟨tail, rfl⟩ := List.head?_eq_some_iff.mp (beq_iff_eq.mp hhead)
      rfl
    next => rfl
  dsimp only
  rw [closesBracketName_apply, head?_apply (by decide) (by decide), hname]
  split
  · exact .pure .nested
  cases h : bracketSet? o (cs.head? == some '^') (if (cs.head? == some '^') = true then cs.drop 1 else cs) with
  | error e => exact .throw_left
  | ok r =>
    cases h' : bracketSet? o (cs.head? == some '^')
      (a.apply (if (cs.head? == some '^') = true then cs.drop 1 else cs)) with
    | error e => exact .throw_right
    | ok r' =>
      rcases bracketSet?_apply h h' with ⟨rfl, rfl⟩ | ⟨s, rest, rfl, rfl⟩
      · exact .pure (.self _)
      · exact .bind_setRest rfl (.pure (.self _))

theorem tracks_readClassToken (o : Options) : Tracks a ClassToken.Alike (readClassToken o) (readClassToken o) := by
  unfold readClassToken
  apply Tracks.bind_next .throw_left _ (tracksEscape_readEscapeToken o _)
  intro c hc
  split
  next h => cases h
  next => exact .pure .close
  next => exact .pure (.self _)
  next h => exact absurd (Option.some.inj h) hc
  next =>
    apply Tracks.bind_rest
    intro l l' _ hfronts
    cases hfronts with
    | @plain d ds _ =>
      by_cases hcolon : d = ':'
      · subst hcolon
        exact tracks_bracketToken o ds
      · split
        next h => exact absurd (List.cons.inj h).1 hcolon
        next =>
          split
          next h => exact absurd (List.cons.inj h).1 hcolon
          next => exact .pure .nested
    | nil | pair _ | last | anchor _ => exact .pure .nested
  next => exact (tracks_take (by decide) (by decide)).bind_eq fun _ => by split <;> exact .pure (.self _)
  next => exact .pure (.self _)

/-- Which characters a class stands for may differ, and with them what is pending, but not what is left. -/
theorem tracks_readClassItems (o : Options) {inner inner' : Read CharSet}
    (hinner : Tracks a (fun _ _ => True) inner inner') (n n' : Nat) (c c' : ClassState) :
    Tracks a (fun _ _ => True) (readClassItems o inner n c) (readClassItems o inner' n' c') := by
  induction n generalizing n' c c' with
  | zero => exact .throw_left
  | succ n ih =>
    cases n' with
    | zero => exact .throw_right
    | succ n' =>
      have hstep (t t' : ClassToken) : Tracks a (fun _ _ => True)
          (do readClassItems o inner n (← c.take (← Read.rest) t))
          (do readClassItems o inner' n' (← c'.take (← Read.rest) t')) := by
        apply Tracks.bind_rest
        rintro l _ rfl -
        exact (Tracks.lift fun _ _ _ _ => trivial).bind fun d d' _ => ih n' d d'
      unfold readClassItems
      apply (tracks_readClassToken o).bind
      intro t t' ht
      cases ht with
      | close => exact .pure trivial
      | nested => exact hinner.bind fun _ _ _ => ih n' _ _
      | item hclose hnested hclose' hnested' =>
        split
        next => exact absurd rfl hclose
        next => exact absurd rfl hnested
        next => exact hstep t t'

theorem tracks_readClassBody (o : Options) {inner inner' : Read CharSet}
    (hinner : Tracks a (fun _ _ => True) inner inner') : Tracks a (fun _ _ => True)
      (readClassBody o inner) (readClassBody o inner') := by
  unfold readClassBody
  apply (tracks_take (by decide) (by decide)).bind_eq
  intro negated
  apply Tracks.bind_rest
  intro l l' _ hfronts
  have hitems (n n' : Nat) (c c' : ClassState) : Tracks a (fun _ _ => True)
      (do let s ← readClassItems o inner n c; return (negated, s))
      (do let s ← readClassItems o inner' n' c'; return (negated, s)) :=
    (tracks_readClassItems o hinner n n' c c').bind fun _ _ _ => .pure trivial
  cases hfronts with
  | @plain c cs hc =>
    by_cases hclose : c = ']'
    · subst hclose
      apply Tracks.guard_left
      intro _
      apply Tracks.guard_right
      intro _
      refine .bind_setRest rfl ?_
      exact (Tracks.lift fun _ _ _ _ => trivial).bind fun d d' _ => hitems _ _ d d'
    · split
      next h => exact absurd (List.cons.inj h).1 hclose
      next =>
        split
        next h => exact absurd (List.cons.inj h).1 hclose
        next => exact hitems _ _ _ _
  | nil | pair _ | last | anchor _ => exact hitems _ _ _ _

theorem tracks_readNestedClass (o : Options) (n n' : Nat) :
    Tracks a (fun _ _ => True) (readNestedClass o n) (readNestedClass o n') := by
  induction n generalizing n' with
  | zero => exact .throw_left
  | succ n ih =>
    cases n' with
    | zero => exact .throw_right
    | succ n' => exact (tracks_readClassBody o (ih n')).bind fun _ _ _ => .pure trivial

theorem tracks_readClass (o : Options) : Tracks a (fun _ _ => True) (readClass o) (readClass o) := by
  unfold readClass
  apply Tracks.bind_rest
  rintro l _ rfl -
  exact (tracks_readClassBody o (tracks_readNestedClass o _ _)).bind fun _ _ _ => .pure trivial

end GrammarScopes.Pattern
