import GrammarScopes.Grammar.BackReference
import GrammarScopes.Proofs.Grammar.Anchors
import Mathlib.Data.List.TakeWhile

/-!
References to groups, in a pattern that is read as pairs of a backslash and the character it belongs to.  Unless an
escaped backslash stands before a digit, just the references that begin a pair are filled in, and what is filled in
has no anchors.
-/

namespace GrammarScopes.BackReference

/-- What a pattern consists of when a backslash belongs to the character after it. -/
inductive Sign
  | pair (c : Char)
  | plain (c : Char)
  deriving DecidableEq, Repr

namespace Sign

def isAnchor : Sign → Bool
  | pair c => c == 'A' || c == 'G'
  | plain _ => false

/-- The sign where only some anchors hold. -/
def rewrite (a : Anchoring) : Sign → List Char
  | pair c => if a.forbids c then [neverChar] else ['\\', c]
  | plain c => [c]

end Sign

def signs : List Char → List Sign
  | '\\' :: c :: cs => .pair c :: signs cs
  | c :: cs => .plain c :: signs cs
  | [] => []

def frontDigits : List Sign → List Char
  | .plain c :: ss => if Text.isDigit c then c :: frontDigits ss else []
  | _ => []

/-- The references that begin a pair, and what stands between them; `covered` signs belong to the last reference. -/
def pieces : Nat → List Sign → List Piece
  | _, [] => []
  | covered + 1, _ :: ss => pieces covered ss
  | 0, .plain c :: ss => .literal c :: pieces 0 ss
  | 0, .pair c :: ss =>
    if Text.isDigit c then .reference (c :: frontDigits ss) :: pieces (frontDigits ss).length ss
    else .literal '\\' :: .literal c :: pieces 0 ss

/-- The part of a pattern that a piece was read from. -/
def Piece.written : Piece → List Char
  | literal c => [c]
  | reference digits => '\\' :: digits

/-- An escaped backslash stands directly before a digit. -/
def EscapesDigit (ss : List Sign) : Prop := ∃ d, Text.isDigit d = true ∧ [.pair '\\', .plain d] <:+: ss

variable {c : Char} {cs text : List Char} {ss : List Sign}

theorem signs_pair (c : Char) (cs : List Char) : signs ('\\' :: c :: cs) = .pair c :: signs cs := rfl

theorem signs_plain (hc : c ≠ '\\') (cs : List Char) : signs (c :: cs) = .plain c :: signs cs :=
  signs.eq_2 c cs fun _ _ h => absurd h hc

theorem hasAnchor_eq_any (cs : List Char) : hasAnchor cs = (signs cs).any Sign.isAnchor := by
  induction cs using Anchoring.pair_cases with
  | nil => rfl
  | pair c cs ih => simp [hasAnchor, signs_pair, Sign.isAnchor, ih]
  | last => rfl
  | other c cs hc ih => simp [Anchoring.hasAnchor_cons hc, signs_plain hc, Sign.isAnchor, ih]

theorem apply_eq_flatMap (a : Anchoring) (cs : List Char) : a.apply cs = (signs cs).flatMap (Sign.rewrite a) := by
  induction cs using Anchoring.pair_cases with
  | nil => rfl
  | pair c cs ih =>
    rw [Anchoring.apply_pair, signs_pair, List.flatMap_cons, ← ih, Sign.rewrite]
    split <;> rfl
  | last => rfl
  | other c cs hc ih => simp [Anchoring.apply_cons a hc, signs_plain hc, Sign.rewrite, ih]

theorem isDigit_backslash : Text.isDigit '\\' = false := by decide

theorem ne_backslash_of_isDigit (hc : Text.isDigit c = true) : c ≠ '\\' := by
  rintro rfl
  cases isDigit_backslash.symm.trans hc

theorem frontDigits_signs (cs : List Char) : frontDigits (signs cs) = cs.takeWhile Text.isDigit := by
  induction cs using Anchoring.pair_cases with
  | nil => rfl
  | pair c cs => simp [signs_pair, frontDigits, isDigit_backslash]
  | last => simp [signs, frontDigits, isDigit_backslash]
  | other c cs hc ih => simp [signs_plain hc, frontDigits, List.takeWhile_cons, ih]

/-- Reading a pattern from left to right: inside the digits of a reference, at a pair that is one or at a pair that is
none, at a backslash that ends the pattern, or at another character. -/
inductive Reading : Nat → List Char → Prop
  | nil (covered : Nat) : Reading covered []
  | digit {covered : Nat} {c : Char} {cs : List Char} :
    Text.isDigit c = true → Reading covered cs → Reading (covered + 1) (c :: cs)
  | reference {c : Char} {cs : List Char} :
    Text.isDigit c = true → Reading (cs.takeWhile Text.isDigit).length cs → Reading 0 ('\\' :: c :: cs)
  | pair {c : Char} {cs : List Char} : Text.isDigit c = false → Reading 0 cs → Reading 0 ('\\' :: c :: cs)
  | last : Reading 0 ['\\']
  | plain {c : Char} {cs : List Char} : c ≠ '\\' → Reading 0 cs → Reading 0 (c :: cs)

theorem reading_of_digits (cs : List Char) (covered : Nat) (h : ∀ c ∈ cs.take covered, Text.isDigit c = true) :
    Reading covered cs := by
  have hbackslash {n : Nat} {cs : List Char} (h : ∀ c ∈ ('\\' :: cs).take n, Text.isDigit c = true) : n = 0 := by
    cases n with
    | zero => rfl
    | succ n => cases isDigit_backslash.symm.trans (h '\\' List.mem_cons_self)
  induction cs using Anchoring.pair_cases generalizing covered with
  | nil => exact .nil covered
  | pair c cs ih =>
    obtain rfl := hbackslash h
    cases hc : Text.isDigit c with
    | false => exact .pair hc (ih 0 (by simp))
    | true =>
      apply Reading.reference hc
      apply ih
      intro d hd
      rw [← List.prefix_iff_eq_take.mp (List.takeWhile_prefix _)] at hd
      exact List.mem_takeWhile_imp hd
  | last =>
    obtain rfl := hbackslash h
    exact .last
  | other c cs hc ih =>
    cases covered with
    | zero => exact .plain hc (ih 0 (by simp))
    | succ n =>
      apply Reading.digit (h c List.mem_cons_self)
      apply ih
      intro d hd
      exact h d (List.mem_cons_of_mem _ hd)

theorem reading (cs : List Char) : Reading 0 cs := reading_of_digits cs 0 (by simp)

theorem readFrom_literal (hc : read? (c :: cs) = none) : readFrom 0 (c :: cs) = .literal c :: readFrom 0 cs := by
  rw [readFrom, hc]

theorem readFrom_reference (hc : Text.isDigit c = true) (cs : List Char) : readFrom 0 ('\\' :: c :: cs) =
    .reference (c :: cs.takeWhile Text.isDigit) :: readFrom (cs.takeWhile Text.isDigit).length cs := by
  have hread : read? ('\\' :: c :: cs) = some (c :: cs.takeWhile Text.isDigit) := by simp [read?, hc]
  rw [readFrom, hread]
  rfl

theorem pieces_reference (hc : Text.isDigit c = true) (cs : List Char) : pieces 0 (signs ('\\' :: c :: cs)) =
    .reference (c :: cs.takeWhile Text.isDigit) :: pieces (cs.takeWhile Text.isDigit).length (signs cs) := by
  rw [signs_pair, pieces, if_pos hc, frontDigits_signs]

theorem pieces_pair (hc : Text.isDigit c = false) (cs : List Char) :
    pieces 0 (signs ('\\' :: c :: cs)) = .literal '\\' :: .literal c :: pieces 0 (signs cs) := by
  rw [signs_pair, pieces, hc]
  rfl

theorem pieces_plain (hc : c ≠ '\\') (cs : List Char) :
    pieces 0 (signs (c :: cs)) = .literal c :: pieces 0 (signs cs) := by
  rw [signs_plain hc, pieces]

theorem pieces_digit (hc : Text.isDigit c = true) (n : Nat) (cs : List Char) :
    pieces (n + 1) (signs (c :: cs)) = pieces n (signs cs) := by
  rw [signs_plain (ne_backslash_of_isDigit hc), pieces]

theorem read?_of_ne (hc : c ≠ '\\') : read? (c :: cs) = none := by
  unfold read?
  split
  next h => exact absurd (List.cons.inj h).1 hc
  next => rfl

theorem read?_backslash (hc : Text.isDigit c = false) : read? ('\\' :: c :: cs) = none := by
  simp [read?, hc]

theorem escapesDigit_cons {s : Sign} : EscapesDigit (s :: ss) ↔
    (s = .pair '\\' ∧ ∃ d, Text.isDigit d = true ∧ ss.head? = some (.plain d)) ∨ EscapesDigit ss := by
  constructor
  · rintro ⟨d, hd, hinfix⟩
    rcases List.infix_cons_iff.mp hinfix with hprefix | htail
    · obtain ⟨rfl, rest, rfl⟩ := List.cons_prefix_cons.mp hprefix
      exact .inl ⟨rfl, d, hd, rfl⟩
    · exact .inr ⟨d, hd, htail⟩
  · rintro (⟨rfl, d, hd, hhead⟩ | ⟨d, hd, htail⟩)
    · obtain ⟨rest, rfl⟩ := List.head?_eq_some_iff.mp hhead
      exact ⟨d, hd, [], rest, rfl⟩
    · exact ⟨d, hd, List.infix_cons_iff.mpr (.inr htail)⟩

theorem head?_of_signs {d : Char} (h : (signs cs).head? = some (.plain d)) : cs.head? = some d := by
  cases cs using Anchoring.pair_cases with
  | nil => cases h
  | pair c cs => cases h
  | last =>
    cases h
    rfl
  | other c cs hc =>
    rw [signs_plain hc] at h
    cases h
    rfl

theorem EscapesDigit.cons {s : Sign} (h : EscapesDigit ss) : EscapesDigit (s :: ss) := escapesDigit_cons.mpr (.inr h)

theorem EscapesDigit.of_plain (h : EscapesDigit (.plain c :: ss)) : EscapesDigit ss := by
  rcases escapesDigit_cons.mp h with ⟨hc, -⟩ | hss
  · cases hc
  · exact hss

theorem read?_second (h : ¬ EscapesDigit (signs ('\\' :: c :: cs))) : read? (c :: cs) = none := by
  by_cases hc : c = '\\'
  · subst hc
    cases cs with
    | nil => rfl
    | cons d cs =>
      apply read?_backslash
      apply Bool.eq_false_iff.mpr
      intro hd
      apply h
      rw [signs_pair, signs_plain (ne_backslash_of_isDigit hd)]
      exact escapesDigit_cons.mpr (.inl ⟨rfl, d, hd, rfl⟩)
  · exact read?_of_ne hc

theorem readFrom_eq_pieces {covered : Nat} (hreading : Reading covered cs) (h : ¬ EscapesDigit (signs cs)) :
    readFrom covered cs = pieces covered (signs cs) := by
  induction hreading with
  | nil n => cases n <;> rfl
  | digit hc _ ih =>
    rw [signs_plain (ne_backslash_of_isDigit hc)] at h
    rw [readFrom, pieces_digit hc, ih fun hescapes => h hescapes.cons]
  | reference hc _ ih => rw [readFrom_reference hc, pieces_reference hc, ih fun hescapes => h hescapes.cons]
  | pair hc _ ih =>
    rw [readFrom_literal (read?_backslash hc), readFrom_literal (read?_second h), pieces_pair hc,
      ih fun hescapes => h hescapes.cons]
  | last => rfl
  | plain hc _ ih =>
    rw [signs_plain hc] at h
    rw [readFrom_literal (read?_of_ne hc), pieces_plain hc, ih fun hescapes => h hescapes.cons]

theorem flatMap_written {covered : Nat} (hreading : Reading covered cs) :
    (pieces covered (signs cs)).flatMap Piece.written = cs.drop covered := by
  induction hreading with
  | nil n => cases n <;> rfl
  | digit hc _ ih => rw [pieces_digit hc, ih, List.drop_succ_cons]
  | reference hc _ ih =>
    rw [pieces_reference hc, List.flatMap_cons, ih, Piece.written]
    simp [List.prefix_iff_eq_append.mp (List.takeWhile_prefix _)]
  | pair hc _ ih =>
    rw [pieces_pair hc, List.flatMap_cons, List.flatMap_cons, ih]
    rfl
  | last => rfl
  | plain hc _ ih =>
    rw [pieces_plain hc, List.flatMap_cons, ih]
    rfl

theorem occursIn_iff (pattern : String) :
    occursIn pattern = true ↔ ∃ ds, .reference ds ∈ readFrom 0 pattern.toList := by
  unfold occursIn
  rw [List.any_eq_true]
  constructor
  · rintro ⟨p, hp, href⟩
    split at href
    next ds => exact ⟨ds, hp⟩
    next => cases href
  · rintro ⟨ds, hds⟩
    exact ⟨_, hds, rfl⟩

/-- An escaped backslash before a digit is taken for a reference. -/
theorem exists_reference {covered : Nat} (hreading : Reading covered cs) (h : EscapesDigit (signs cs)) :
    ∃ ds, .reference ds ∈ readFrom covered cs := by
  induction hreading with
  | nil n =>
    obtain ⟨d, -, hinfix⟩ := h
    cases List.infix_nil.mp hinfix
  | digit hc _ ih =>
    rw [signs_plain (ne_backslash_of_isDigit hc)] at h
    exact ih h.of_plain
  | reference hc _ ih =>
    rw [readFrom_reference hc]
    exact ⟨_, List.mem_cons_self⟩
  | @pair c cs hc _ ih =>
    rw [readFrom_literal (read?_backslash hc)]
    rcases escapesDigit_cons.mp h with ⟨hpair, d, hd, hhead⟩ | hcs
    · obtain ⟨cs, rfl⟩ := List.head?_eq_some_iff.mp (head?_of_signs hhead)
      cases hpair
      rw [readFrom_reference hd]
      exact ⟨_, List.mem_cons_of_mem _ List.mem_cons_self⟩
    · cases hread : read? (c :: cs) with
      | none =>
        obtain ⟨ds, hds⟩ := ih hcs
        rw [readFrom_literal hread]
        exact ⟨ds, by simp [hds]⟩
      | some ds =>
        rw [readFrom, hread]
        exact ⟨ds, by simp⟩
  | last =>
    obtain ⟨d, -, hinfix⟩ := h
    have hlength := hinfix.length_le
    simp [signs] at hlength
  | plain hc _ ih =>
    rw [signs_plain hc] at h
    obtain ⟨ds, hds⟩ := ih h.of_plain
    rw [readFrom_literal (read?_of_ne hc)]
    exact ⟨ds, List.mem_cons_of_mem _ hds⟩

theorem filter_signs_escape (text rest : List Char) :
    (signs (escape text ++ rest)).filter Sign.isAnchor = (signs rest).filter Sign.isAnchor := by
  induction text with
  | nil => rfl
  | cons c text ih =>
    have hescape : escape (c :: text) = escape [c] ++ escape text := by simp [escape]
    rw [hescape, List.append_assoc]
    by_cases hc : isSpecial c = true
    · have hanchor : Sign.isAnchor (.pair c) = false := by
        have hne : c ≠ 'A' ∧ c ≠ 'G' := by
          constructor <;> rintro rfl <;> exact absurd hc (by decide)
        simp [Sign.isAnchor, hne.1, hne.2]
      have hpair : escape [c] = ['\\', c] := by simp [escape, hc]
      rw [hpair, List.cons_append, List.singleton_append, signs_pair, List.filter_cons, hanchor, ih]
      rfl
    · have hne : c ≠ '\\' := by
        rintro rfl
        exact hc (by decide)
      have hplain : escape [c] = [c] := by simp [escape, hc]
      rw [hplain, List.singleton_append, signs_plain hne, List.filter_cons, ih]
      rfl

variable {line : Line} {captures : Captures}

theorem exists_resolve_reference (line : Line) (captures : Captures) (ds : List Char) :
    ∃ text, Piece.resolve line captures (.reference ds) = escape text := by
  unfold Piece.resolve
  dsimp only
  split
  next text _ => exact ⟨text, rfl⟩
  next => exact ⟨[], rfl⟩

theorem filter_signs_resolve {covered : Nat} (hreading : Reading covered cs) :
    (signs ((pieces covered (signs cs)).flatMap (Piece.resolve line captures))).filter Sign.isAnchor =
      (signs cs).filter Sign.isAnchor := by
  induction hreading with
  | nil n => cases n <;> rfl
  | digit hc _ ih =>
    rw [pieces_digit hc, ih, signs_plain (ne_backslash_of_isDigit hc)]
    rfl
  | @reference c cs hc _ ih =>
    have hanchor : Sign.isAnchor (.pair c) = false := by
      have hne : c ≠ 'A' ∧ c ≠ 'G' := by
        constructor <;> rintro rfl <;> exact absurd hc (by decide)
      simp [Sign.isAnchor, hne.1, hne.2]
    obtain ⟨text, htext⟩ := exists_resolve_reference line captures (c :: cs.takeWhile Text.isDigit)
    rw [pieces_reference hc, List.flatMap_cons, htext, filter_signs_escape, ih, signs_pair, List.filter_cons, hanchor]
    rfl
  | @pair c cs hc _ ih =>
    rw [pieces_pair hc]
    change (signs ('\\' :: c :: (pieces 0 (signs cs)).flatMap (Piece.resolve line captures))).filter _ = _
    rw [signs_pair, signs_pair, List.filter_cons, ih, ← List.filter_cons]
  | last => rfl
  | @plain c cs hc _ ih =>
    rw [pieces_plain hc]
    change (signs (c :: (pieces 0 (signs cs)).flatMap (Piece.resolve line captures))).filter _ = _
    rw [signs_plain hc, signs_plain hc, List.filter_cons, ih, ← List.filter_cons]

/-- A pattern is read as pairs where anchors are looked for and replaced.  It refers to groups if a pair begins a
reference, or if an escaped backslash stands before a digit; if none does, all references that begin a pair are filled
in, nothing else changes, and the anchors stay what they were. -/
theorem resolve_of_pairs (pattern : String) :
    hasAnchor pattern.toList = (signs pattern.toList).any Sign.isAnchor ∧
      (∀ a : Anchoring, a.patternText pattern = String.ofList ((signs pattern.toList).flatMap (Sign.rewrite a))) ∧
      (pieces 0 (signs pattern.toList)).flatMap Piece.written = pattern.toList ∧
      (occursIn pattern = true ↔
        (∃ ds, .reference ds ∈ pieces 0 (signs pattern.toList)) ∨ EscapesDigit (signs pattern.toList)) ∧
      (¬ EscapesDigit (signs pattern.toList) → ∀ line captures,
        resolve pattern line captures =
            String.ofList ((pieces 0 (signs pattern.toList)).flatMap (Piece.resolve line captures)) ∧
          (signs (resolve pattern line captures).toList).filter Sign.isAnchor =
            (signs pattern.toList).filter Sign.isAnchor) := by
  have hreading := reading pattern.toList
  refine ⟨hasAnchor_eq_any _, ?_, flatMap_written hreading, ?_, ?_⟩
  · intro a
    rw [Anchoring.patternText, apply_eq_flatMap]
  · rw [occursIn_iff]
    by_cases h : EscapesDigit (signs pattern.toList)
    · simp [h, exists_reference hreading h]
    · simp [h, readFrom_eq_pieces hreading h]
  · intro h line captures
    have hresolve : resolve pattern line captures =
        String.ofList ((pieces 0 (signs pattern.toList)).flatMap (Piece.resolve line captures)) := by
      rw [resolve, readFrom_eq_pieces hreading h]
    constructor
    · exact hresolve
    · rw [hresolve, String.toList_ofList]
      exact filter_signs_resolve hreading

theorem resolve_of_pairs_dot :
    ¬ EscapesDigit (signs "\\\\A\\1".toList) ∧ occursIn "\\\\A\\1" = true ∧
      resolve "\\\\A\\1" (.ofText "a.b") [some ⟨0, 3⟩, some ⟨1, 2⟩] = "\\\\A\\." ∧
      (signs (resolve "\\\\A\\1" (.ofText "a.b") [some ⟨0, 3⟩, some ⟨1, 2⟩]).toList).filter Sign.isAnchor = [] := by
  have hescapes : ¬ EscapesDigit (signs "\\\\A\\1".toList) := by
    have hsigns : signs "\\\\A\\1".toList = [.pair '\\', .plain 'A', .pair '1'] := by decide
    rw [hsigns]
    rintro ⟨d, hd, hinfix⟩
    simp only [List.infix_cons_iff, List.cons_prefix_cons, Sign.plain.injEq, reduceCtorEq, false_and] at hinfix
    rcases hinfix with ⟨-, rfl, -⟩ | hinfix
    · cases hd
    · simp at hinfix
  obtain ⟨-, -, -, hoccurs, hresolve⟩ := resolve_of_pairs "\\\\A\\1"
  obtain ⟨htext, hanchors⟩ := hresolve hescapes (.ofText "a.b") [some ⟨0, 3⟩, some ⟨1, 2⟩]
  exact ⟨hescapes, hoccurs.mpr (.inl ⟨['1'], by decide⟩), htext.trans (by decide +kernel), hanchors.trans (by decide)⟩

/-- The reference that is filled in begins inside the pair of an escaped backslash, and gives the pattern an anchor. -/
theorem resolve_escaped_backslash :
    (∀ p ∈ pieces 0 (signs "\\\\1".toList), ∀ ds, p ≠ .reference ds) ∧ occursIn "\\\\1" = true ∧
      resolve "\\\\1" (.ofText "A") [some ⟨0, 1⟩, some ⟨0, 1⟩] = "\\A" ∧
      hasAnchor "\\\\1".toList = false ∧
      hasAnchor (resolve "\\\\1" (.ofText "A") [some ⟨0, 1⟩, some ⟨0, 1⟩]).toList = true := by
  have hpieces : pieces 0 (signs "\\\\1".toList) = [.literal '\\', .literal '\\', .literal '1'] := by decide
  refine ⟨?_, by decide, by decide +kernel, by decide, by decide +kernel⟩
  rw [hpieces]
  simp

end GrammarScopes.BackReference
