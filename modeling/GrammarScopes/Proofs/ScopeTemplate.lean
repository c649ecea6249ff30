import GrammarScopes.Proofs.Text.Digits
import GrammarScopes.ScopeTemplate
import Mathlib.Data.List.TakeWhile

/-!
Filling in a template.  It is read once, from left to right, and a reference goes as far as it can; what is put in its
place is not read again.
-/

namespace GrammarScopes

namespace CaptureReference

/-- How a reference is written: with digits of any script, and in braces if letters are to be changed. -/
inductive Spells : List Char → List Char → LetterChange → Prop
  | plain {digits : List Char} (hne : digits ≠ []) (hdigits : ∀ c ∈ digits, Text.isDigit c) :
    Spells ('$' :: digits) digits .none
  | lower {digits : List Char} (hne : digits ≠ []) (hdigits : ∀ c ∈ digits, Text.isDigit c) :
    Spells ('$' :: '\x7b' :: digits ++ ":/downcase\x7d".toList) digits .lower
  | upper {digits : List Char} (hne : digits ≠ []) (hdigits : ∀ c ∈ digits, Text.isDigit c) :
    Spells ('$' :: '\x7b' :: digits ++ ":/upcase\x7d".toList) digits .upper

/-- The group of a number in decimal.  Digits of other scripts name none, and neither does a number of more than 64
bits. -/
def Names (digits : List Char) (group : Nat) : Prop :=
  (∀ c ∈ digits, c.isDigit) ∧ Nat.ofDigitChars 10 digits 0 = group ∧ group < Nat.pow 2 64

/-- What the group that the digits name has captured. -/
def Captured (line : Line) (captures : Captures) (digits text : List Char) : Prop :=
  ∃ group span, Names digits group ∧ captures[group]? = some (some span) ∧ line.slice? span.start span.stop = some text

/-- No longer reference begins where this one does. -/
def Longest (written rest : List Char) : Prop :=
  ∀ w digits change, Spells w digits change → w <+: written ++ rest → w.length ≤ written.length

/-- Reading a template from left to right: the text that comes out of it. -/
inductive Fills (line : Line) (captures : Captures) : List Char → List Char → Prop
  | done : Fills line captures [] []
  | literal {c : Char} {cs out : List Char} (hnone : ∀ w digits change, Spells w digits change → ¬ w <+: c :: cs)
      (hrest : Fills line captures cs out) : Fills line captures (c :: cs) (c :: out)
  | captured {w digits rest text out : List Char} {change : LetterChange} (hspells : Spells w digits change)
      (hlongest : Longest w rest) (htext : Captured line captures digits text) (hrest : Fills line captures rest out) :
      Fills line captures (w ++ rest) (change.apply (text.dropWhile (· == '.')) ++ out)
  | kept {w digits rest out : List Char} {change : LetterChange} (hspells : Spells w digits change)
      (hlongest : Longest w rest) (hnone : ∀ text, ¬ Captured line captures digits text)
      (hrest : Fills line captures rest out) : Fills line captures (w ++ rest) (w ++ out)

variable {w digits rest cs out : List Char} {change : LetterChange} {r : CaptureReference} {line : Line}
  {captures : Captures}

theorem word?_eq_some (hne : digits ≠ []) (hdigits : ∀ c ∈ digits, Text.isDigit c) {group : Nat} :
    Text.word? digits = some group ↔ Names digits group := by
  have hsign : ∀ cs, digits ≠ '+' :: cs := by
    rintro cs rfl
    exact absurd (hdigits '+' List.mem_cons_self) (by decide)
  unfold Text.word? Names
  dsimp only
  split
  next cs => exact absurd rfl (hsign cs)
  next =>
    simp only [List.isEmpty_iff, hne, if_false, Option.filter_eq_some_iff, Text.decimal?_eq_some, decide_eq_true_eq]
    exact and_assoc

theorem Spells.ne_nil (h : Spells w digits change) : w ≠ [] := by
  cases h <;> simp

theorem read?_plain (hne : digits ≠ []) (hdigits : ∀ c ∈ digits, Text.isDigit c) (rest : List Char) :
    read? ('$' :: digits ++ rest) =
      some ⟨'$' :: (digits ++ rest.takeWhile Text.isDigit), Text.word? (digits ++ rest.takeWhile Text.isDigit), .none⟩ := by
  have hspan : (digits ++ rest).takeWhile Text.isDigit = digits ++ rest.takeWhile Text.isDigit :=
    List.takeWhile_append_of_pos hdigits
  obtain ⟨c, digits, rfl⟩ := List.exists_cons_of_ne_nil hne
  have hc : c ≠ '\x7b' := by
    rintro rfl
    exact absurd (hdigits _ List.mem_cons_self) (by decide)
  rw [List.cons_append] at hspan
  rw [List.cons_append, List.cons_append, read?.eq_2 _ (fun cs h => hc (List.cons.inj h).1), hspan]
  rfl

theorem read?_braced (hne : digits ≠ []) (hdigits : ∀ c ∈ digits, Text.isDigit c)
    (hrest : ∀ c ∈ rest.head?, Text.isDigit c = false) :
    read? ('$' :: '\x7b' :: digits ++ rest) = braced? digits rest := by
  rw [List.cons_append, List.cons_append, read?.eq_1, Text.takeWhile_append hdigits hrest]
  simp [hne]

theorem braced?_lower (digits rest : List Char) : braced? digits (":/downcase\x7d".toList ++ rest) =
    some ⟨'$' :: '\x7b' :: digits ++ ":/downcase\x7d".toList, Text.word? digits, .lower⟩ := rfl

theorem braced?_upper (digits rest : List Char) : braced? digits (":/upcase\x7d".toList ++ rest) =
    some ⟨'$' :: '\x7b' :: digits ++ ":/upcase\x7d".toList, Text.word? digits, .upper⟩ := rfl

theorem braced?_eq_some (h : braced? digits rest = some r) :
    ∃ word, word <+: rest ∧ r = ⟨'$' :: '\x7b' :: digits ++ word, Text.word? digits, r.change⟩ ∧
      (word, r.change) ∈ changes := by
  obtain ⟨e, he, rfl⟩ := Option.map_eq_some_iff.mp h
  have hprefix : e.1.isPrefixOf rest = true := List.find?_some (p := fun c : List Char × LetterChange => c.1.isPrefixOf rest) he
  exact ⟨e.1, List.isPrefixOf_iff_prefix.mp hprefix, rfl, List.mem_of_find?_eq_some he⟩

theorem Spells.read? (h : Spells w digits change) (rest : List Char) :
    ∃ r, read? (w ++ rest) = some r ∧ w.length ≤ r.written.length ∧
      (r.written.length ≤ w.length → r = ⟨w, Text.word? digits, change⟩) := by
  cases h with
  | plain hne hdigits =>
    refine ⟨_, read?_plain hne hdigits rest, by simp, ?_⟩
    intro hle
    have hnil : rest.takeWhile Text.isDigit = [] := by
      simp only [List.length_cons, List.length_append] at hle
      exact List.eq_nil_of_length_eq_zero (by omega)
    rw [hnil, List.append_nil]
  | lower hne hdigits =>
    refine ⟨_, ?_, Nat.le_refl _, fun _ => rfl⟩
    rw [List.append_assoc, read?_braced hne hdigits (by rintro c ⟨⟩; decide), braced?_lower]
  | upper hne hdigits =>
    refine ⟨_, ?_, Nat.le_refl _, fun _ => rfl⟩
    rw [List.append_assoc, read?_braced hne hdigits (by rintro c ⟨⟩; decide), braced?_upper]

theorem spells_of_read? (h : read? cs = some r) :
    ∃ digits, Spells r.written digits r.change ∧ r.group = Text.word? digits ∧ r.written <+: cs := by
  have hdigits (cs : List Char) : ∀ c ∈ cs.takeWhile Text.isDigit, Text.isDigit c :=
    fun c hc => List.mem_takeWhile_imp hc
  have hsplit (cs : List Char) := List.prefix_iff_eq_append.mp (List.takeWhile_prefix (l := cs) Text.isDigit)
  unfold read? at h
  split at h
  next cs =>
    dsimp only at h
    split at h
    next => cases h
    next hempty =>
      have hne : cs.takeWhile Text.isDigit ≠ [] := by simpa using hempty
      obtain ⟨word, hprefix, hr, hmem⟩ := braced?_eq_some h
      refine ⟨cs.takeWhile Text.isDigit, ?_, by rw [hr], ?_⟩
      · rw [hr]
        simp only [changes, List.mem_cons, Prod.mk.injEq, List.not_mem_nil, or_false] at hmem
        rcases hmem with ⟨rfl, hchange⟩ | ⟨rfl, hchange⟩
        · rw [hchange]
          exact .lower hne (hdigits cs)
        · rw [hchange]
          exact .upper hne (hdigits cs)
      · have hlong := (List.prefix_append_right_inj (cs.takeWhile Text.isDigit)).mpr hprefix
        rw [hsplit cs] at hlong
        rw [hr]
        simpa using hlong
  next cs _ =>
    dsimp only at h
    split at h
    next => cases h
    next hempty =>
      cases h
      refine ⟨cs.takeWhile Text.isDigit, .plain (by simpa using hempty) (hdigits cs), rfl, ?_⟩
      simpa using List.takeWhile_prefix Text.isDigit
  next => cases h

theorem exists_longest (h : read? cs = some r) : ∃ digits rest, cs = r.written ++ rest ∧
    Spells r.written digits r.change ∧ r.group = Text.word? digits ∧ Longest r.written rest := by
  obtain ⟨digits, hspells, hgroup, rest, rfl⟩ := spells_of_read? h
  refine ⟨digits, rest, rfl, hspells, hgroup, ?_⟩
  rintro w digits' change hw ⟨rest', hrest'⟩
  obtain ⟨r', hr', hle, -⟩ := hw.read? rest'
  rw [hrest', h] at hr'
  cases hr'
  exact hle

theorem read?_longest (hspells : Spells w digits change) (hlongest : Longest w rest) :
    read? (w ++ rest) = some ⟨w, Text.word? digits, change⟩ := by
  obtain ⟨r, hr, -, hunique⟩ := hspells.read? rest
  obtain ⟨digits', hspells', -, hprefix⟩ := spells_of_read? hr
  rw [hr, hunique (hlongest _ _ _ hspells' hprefix)]

theorem read?_eq_none : read? cs = none ↔ ∀ w digits change, Spells w digits change → ¬ w <+: cs := by
  constructor
  · rintro h w digits change hspells ⟨rest, rfl⟩
    obtain ⟨r, hr, -⟩ := hspells.read? rest
    cases h.symm.trans hr
  · intro h
    cases hr : read? cs with
    | none => rfl
    | some r =>
      obtain ⟨digits, hspells, -, hprefix⟩ := spells_of_read? hr
      exact absurd hprefix (h _ _ _ hspells)

theorem captured_iff (hspells : Spells w digits change) {text : List Char} :
    Captured line captures digits text ↔ (Text.word? digits).bind (captures.text? line) = some text := by
  have hdigits : digits ≠ [] ∧ ∀ c ∈ digits, Text.isDigit c := by
    cases hspells with
    | plain hne hdigits | lower hne hdigits | upper hne hdigits => exact ⟨hne, hdigits⟩
  obtain ⟨hne, hdigits⟩ := hdigits
  unfold Captured Captures.text?
  simp only [← word?_eq_some hne hdigits, Option.bind_eq_some_iff, Option.bind_eq_bind, Option.join_eq_some_iff]
  constructor
  · rintro ⟨group, span, hgroup, hspan, htext⟩
    exact ⟨group, hgroup, span, hspan, htext⟩
  · rintro ⟨group, hgroup, span, hspan, htext⟩
    exact ⟨group, span, hgroup, hspan, htext⟩

end CaptureReference

namespace TemplatePiece

open CaptureReference

variable {w digits rest cs out : List Char} {change : LetterChange} {r : CaptureReference} {line : Line}
  {captures : Captures}

theorem readFrom_eq_drop (covered : Nat) (cs : List Char) : readFrom covered cs = readFrom 0 (cs.drop covered) := by
  induction cs generalizing covered with
  | nil => cases covered <;> rfl
  | cons c cs ih =>
    cases covered with
    | zero => rfl
    | succ n => exact ih n

theorem readFrom_literal {c : Char} (h : CaptureReference.read? (c :: cs) = none) :
    readFrom 0 (c :: cs) = literal c :: readFrom 0 cs := by
  rw [readFrom, h]

theorem readFrom_reference (hspells : Spells w digits change) (hlongest : Longest w rest) :
    readFrom 0 (w ++ rest) = reference ⟨w, Text.word? digits, change⟩ :: readFrom 0 rest := by
  have hread := read?_longest hspells hlongest
  obtain ⟨c, cs, rfl⟩ := List.exists_cons_of_ne_nil hspells.ne_nil
  rw [List.cons_append] at hread ⊢
  rw [readFrom, hread]
  dsimp only
  rw [readFrom_eq_drop, List.length_cons, Nat.add_sub_cancel, List.drop_left]

theorem resolve_captured (hspells : Spells w digits change) {text : List Char}
    (htext : Captured line captures digits text) :
    CaptureReference.resolve ⟨w, Text.word? digits, change⟩ line captures =
      change.apply (text.dropWhile (· == '.')) := by
  rw [CaptureReference.resolve, (captured_iff hspells).mp htext]

theorem resolve_kept (hspells : Spells w digits change) (hnone : ∀ text, ¬ Captured line captures digits text) :
    CaptureReference.resolve ⟨w, Text.word? digits, change⟩ line captures = w := by
  rw [CaptureReference.resolve]
  cases htext : (Text.word? digits).bind (captures.text? line) with
  | none => rfl
  | some text => exact absurd ((captured_iff hspells).mpr htext) (hnone text)

theorem fills_iff : Fills line captures cs out ↔ out = (readFrom 0 cs).flatMap (resolve line captures) := by
  constructor
  · intro h
    induction h with
    | done => rfl
    | literal hnone _ ih =>
      rw [readFrom_literal (read?_eq_none.mpr hnone), List.flatMap_cons, ← ih]
      rfl
    | captured hspells hlongest htext _ ih =>
      rw [readFrom_reference hspells hlongest, List.flatMap_cons, ← ih, resolve,
        resolve_captured hspells htext]
    | kept hspells hlongest hnone _ ih =>
      rw [readFrom_reference hspells hlongest, List.flatMap_cons, ← ih, resolve,
        resolve_kept hspells hnone]
  · rintro rfl
    -- on the length, since a reference takes several characters at once
    induction hn : cs.length using Nat.strongRecOn generalizing cs with
    | ind n ih =>
      cases cs with
      | nil => exact .done
      | cons c cs =>
        cases hr : read? (c :: cs) with
        | none =>
          rw [readFrom_literal hr, List.flatMap_cons]
          exact .literal (read?_eq_none.mp hr) (ih cs.length (by simp [← hn]) rfl)
        | some r =>
          obtain ⟨digits, rest, hcs, hspells, hgroup, hlongest⟩ := exists_longest hr
          have hshort : rest.length < n := by
            have hpos := List.length_pos_iff.mpr hspells.ne_nil
            rw [← hn, hcs, List.length_append]
            omega
          have hrest := ih rest.length hshort rfl
          obtain ⟨w, group, change⟩ := r
          obtain rfl : group = Text.word? digits := hgroup
          rw [hcs, readFrom_reference hspells hlongest, List.flatMap_cons, resolve]
          by_cases hcaptured : ∃ text, Captured line captures digits text
          · obtain ⟨text, htext⟩ := hcaptured
            rw [resolve_captured hspells htext]
            exact .captured hspells hlongest htext hrest
          · have hnone := not_exists.mp hcaptured
            rw [resolve_kept hspells hnone]
            exact .kept hspells hlongest hnone hrest

theorem any_isReference : (readFrom 0 cs).any isReference = true ↔
    ∃ w digits change, Spells w digits change ∧ w <:+: cs := by
  induction cs with
  | nil =>
    constructor
    · exact nofun
    · rintro ⟨w, digits, change, hspells, hinfix⟩
      exact absurd (List.infix_nil.mp hinfix) hspells.ne_nil
  | cons c cs ih =>
    cases hr : read? (c :: cs) with
    | none =>
      rw [readFrom_literal hr, List.any_cons, isReference, Bool.false_or, ih]
      constructor
      · rintro ⟨w, digits, change, hspells, hinfix⟩
        exact ⟨w, digits, change, hspells, List.infix_cons_iff.mpr (.inr hinfix)⟩
      · rintro ⟨w, digits, change, hspells, hinfix⟩
        rcases List.infix_cons_iff.mp hinfix with hprefix | hinfix
        · exact absurd hprefix (read?_eq_none.mp hr _ _ _ hspells)
        · exact ⟨w, digits, change, hspells, hinfix⟩
    | some r =>
      obtain ⟨digits, hspells, -, hprefix⟩ := spells_of_read? hr
      rw [readFrom, hr]
      simp only [List.any_cons, isReference, Bool.true_or, true_iff]
      exact ⟨_, _, _, hspells, hprefix.isInfix⟩

theorem flatMap_literals (h : (readFrom 0 cs).any isReference = false) :
    (readFrom 0 cs).flatMap (resolve line captures) = cs := by
  induction cs with
  | nil => rfl
  | cons c cs ih =>
    cases hr : read? (c :: cs) with
    | none =>
      rw [readFrom_literal hr, List.any_cons, isReference, Bool.false_or] at h
      rw [readFrom_literal hr, List.flatMap_cons, ih h]
      rfl
    | some r =>
      rw [readFrom, hr] at h
      cases h

end TemplatePiece

namespace ScopeTemplate

open CaptureReference

theorem fill_of_no_references {t : ScopeTemplate} (h : t.hasReferences = false) (line : Line) (captures : Captures) :
    t.fill line captures = t.text := by
  rw [hasReferences, t.pieces_eq] at h
  rw [fill, t.pieces_eq, TemplatePiece.flatMap_literals h, String.ofList_toList]

/-- A template is filled in as it is read, and one is read in full only if a reference occurs in it, which makes no
difference. -/
theorem resolve_fills (t : ScopeTemplate) (line : Line) (captures : Captures) :
    (∀ out, Fills line captures t.text.toList out ↔ t.resolve line captures = String.ofList out) ∧
      (t.hasReferences = true ↔ ∃ w digits change, Spells w digits change ∧ w <:+: t.text.toList) ∧
      (t.hasReferences = false → t.fill line captures = t.text) := by
  have hresolve : t.resolve line captures = t.fill line captures := by
    cases h : t.hasReferences with
    | true => rw [resolve, if_pos h]
    | false => rw [resolve, if_neg (by simp [h]), fill_of_no_references h]
  refine ⟨?_, ?_, fun h => fill_of_no_references h line captures⟩
  · intro out
    rw [TemplatePiece.fills_iff, hresolve, fill, t.pieces_eq, String.ofList_inj, eq_comm]
  · rw [hasReferences, t.pieces_eq]
    exact TemplatePiece.any_isReference

/-- What looks like a reference in the line is none, and in the template only if it is whole. -/
theorem resolve_fills_inserted :
    let line := Line.ofText "..ab$1"
    let captures : Captures := [some ⟨0, 6⟩, some ⟨0, 4⟩, some ⟨4, 6⟩]
    Fills line captures "$2.$\x7b1:/upcase\x7d.$9".toList "$1.AB.$9".toList ∧
      (ofText "meta.$\x7b1\x7d").hasReferences = false ∧
      (ofText "meta.$\x7b1\x7d").fill line captures = "meta.$\x7b1\x7d" := by
  intro line captures
  obtain ⟨hfills, -, -⟩ := resolve_fills (ofText "$2.$\x7b1:/upcase\x7d.$9") line captures
  obtain ⟨-, -, hplain⟩ := resolve_fills (ofText "meta.$\x7b1\x7d") line captures
  exact ⟨(hfills _).mpr (by decide +kernel), by decide, hplain (by decide)⟩

end ScopeTemplate

end GrammarScopes
