import GrammarScopes.Proofs.Json.Layout
import GrammarScopes.Proofs.Text.Digits

/-!
What the readers of words, strings and numbers take off the front of a text that a value was
written in.
-/

namespace GrammarScopes.Json.Read

open JsonValue

variable {α β : Type} {c : Char} {bs cs rest : List Char} {n : Nat}

theorem run_bind_of_ok {x : Read α} {f : α → Read β} {cs cs' : List Char} {a : α}
    (h : x.run cs = .ok (a, cs')) : (x >>= f).run cs = (f a).run cs' := by
  rw [StateT.run_bind, h]
  rfl

theorem run_get : (get : Read (List Char)).run cs = .ok (cs, cs) := rfl

theorem run_peek (hbs : Blanks bs) (hc : isBlank c = false) :
    peek.run (bs ++ c :: cs) = .ok (some c, c :: cs) := by
  have hdrop : (bs ++ c :: cs).dropWhile isBlank = c :: cs := by
    rw [List.dropWhile_append_of_pos hbs, List.dropWhile_cons_of_neg (by simp [hc])]
  change Except.ok (((bs ++ c :: cs).dropWhile isBlank).head?, (bs ++ c :: cs).dropWhile isBlank) = _
  rw [hdrop, List.head?_cons]

theorem run_peekOr {e : JsonError} (hbs : Blanks bs) (hc : isBlank c = false) :
    (peekOr e).run (bs ++ c :: cs) = .ok (c, c :: cs) := by
  unfold peekOr
  rw [run_bind_of_ok (run_peek hbs hc)]
  rfl

theorem run_discard_next : (discard next).run (c :: cs) = .ok ((), cs) := rfl

theorem run_word (ws : List Char) : (word ws).run (ws ++ cs) = .ok ((), cs) := by
  induction ws with
  | nil => rfl
  | cons w ws ih =>
    have hnext : next.run (w :: (ws ++ cs)) = .ok (some w, ws ++ cs) := rfl
    unfold word
    rw [List.cons_append, run_bind_of_ok hnext]
    simpa using ih

/-! ### Strings -/

theorem hexValue?_hexDigit : ∀ n < 16, Text.hexValue? (hexDigit n) = some n := by decide

theorem hexUnit_code (h : n < 0x20) :
    hexUnit ('0' :: '0' :: hexDigit (n / 16) :: hexDigit (n % 16) :: cs) = .ok (n, cs) := by
  have hsize : ∀ d < 16, (hexDigit d).utf8Size = 1 := by decide
  have hbytes : Text.byteCount ['0', '0', hexDigit (n / 16), hexDigit (n % 16)] = 4 := by
    simp only [Text.byteCount, hsize (n / 16) (by omega), hsize (n % 16) (by omega)]
    decide
  have hzero : Text.hexValue? '0' = some 0 := by decide
  simp only [hexUnit, List.take_succ_cons, List.take_zero, hbytes, Nat.lt_irrefl, ↓reduceIte,
    List.mapM_cons, List.mapM_nil, hzero, hexValue?_hexDigit (n / 16) (by omega),
    hexValue?_hexDigit (n % 16) (by omega), Option.pure_def, Option.bind_eq_bind, Option.bind_some,
    List.drop_succ_cons, List.drop_zero]
  congr 2
  omega

theorem unicodeEscape_code (h : n < 0x20) :
    unicodeEscape true ('0' :: '0' :: hexDigit (n / 16) :: hexDigit (n % 16) :: cs) =
      .ok (Char.ofNat n, cs) := by
  have hlow : (decide (0xdc00 ≤ n) && decide (n ≤ 0xdfff)) = false := by simp; omega
  have hhigh : (decide (0xd800 ≤ n) && decide (n ≤ 0xdbff)) = false := by simp; omega
  unfold unicodeEscape
  rw [hexUnit_code h]
  change (if (decide (0xdc00 ≤ n) && decide (n ≤ 0xdfff)) = true then _ else
    if (decide (0xd800 ≤ n) && decide (n ≤ 0xdbff)) = true then _ else _) = _
  rw [hlow, hhigh]
  rfl

theorem stringTail_escapedChar (n : Nat) (seen cs : List Char) (c : Char) :
    stringTail true (n + 1) seen (escapedChar c ++ cs) = stringTail true n (c :: seen) cs := by
  unfold escapedChar
  split
  case h_8 hquote hback _ _ _ _ _ =>
    split
    next hcontrol =>
      simp only [List.cons_append, List.nil_append, stringTail]
      rw [unicodeEscape_code hcontrol, Char.ofNat_toNat]
      rfl
    next hcontrol =>
      rw [List.singleton_append, stringTail]
      · rw [if_neg hcontrol]
      · exact hquote
      · exact fun h _ => hback h
      · exact fun _ h _ => hback h
      · exact fun _ _ h _ => hback h
  all_goals rfl

theorem stringTail_escaped (s : List Char) (hn : s.length < n) (seen : List Char) :
    stringTail true n seen (s.flatMap escapedChar ++ '"' :: rest) =
      .ok (seen.reverse ++ s, rest) := by
  induction s generalizing n seen with
  | nil =>
    obtain ⟨n, rfl⟩ := Nat.exists_eq_add_of_lt hn
    simp [stringTail]
  | cons c s ih =>
    obtain ⟨n, rfl⟩ : ∃ m, n = m + 1 := ⟨n - 1, by simp at hn; omega⟩
    rw [List.flatMap_cons, List.append_assoc, stringTail_escapedChar,
      ih (Nat.lt_of_succ_lt_succ hn), List.reverse_cons, List.append_assoc, List.singleton_append]

theorem length_le_flatMap_escapedChar (s : List Char) : s.length ≤ (s.flatMap escapedChar).length := by
  induction s with
  | nil => exact Nat.le_refl 0
  | cons c s ih =>
    have hpos : 0 < (escapedChar c).length := by
      unfold escapedChar
      split
      case h_8 => split <;> exact Nat.succ_pos _
      all_goals exact Nat.succ_pos _
    simp only [List.flatMap_cons, List.length_append, List.length_cons]
    omega

theorem run_string (s : String) :
    (string true).run (s.toList.flatMap escapedChar ++ '"' :: rest) = .ok (s, rest) := by
  have hlength := length_le_flatMap_escapedChar s.toList
  have htail : stringTail true ((s.toList.flatMap escapedChar ++ '"' :: rest).length + 1) []
      (s.toList.flatMap escapedChar ++ '"' :: rest) = .ok (s.toList, rest) :=
    stringTail_escaped s.toList (by simp only [List.length_append]; omega) []
  unfold string
  rw [run_bind_of_ok run_get, htail]
  exact congrArg (fun s => Except.ok (s, rest)) String.ofList_toList

/-! ### Numbers -/

/-- What may come after a value: nothing, or a character that is in none. -/
def Ends (rest : List Char) : Prop :=
  ∀ c ∈ rest.head?, c ∈ [' ', '\n', '\t', '\r', ',', ']', '\x7d']

theorem not_isDigit_of_ends (h : Ends rest) : ∀ c ∈ rest.head?, c.isDigit = false := by
  have hall : ∀ c ∈ [' ', '\n', '\t', '\r', ',', ']', '\x7d'], c.isDigit = false :=
    List.all_iff_forall_prop.mp (by decide)
  exact fun c hc => hall c (h c hc)

theorem run_digits (hdigits : ∀ c ∈ cs, c.isDigit) (hrest : ∀ c ∈ rest.head?, c.isDigit = false) :
    digits.run (cs ++ rest) = .ok (cs, rest) := by
  have htake := Text.takeWhile_append hdigits hrest
  change Except.ok ((cs ++ rest).takeWhile Char.isDigit,
    (cs ++ rest).drop ((cs ++ rest).takeWhile Char.isDigit).length) = _
  rw [htake, List.drop_left]

theorem le_ofDigitChars (ds : List Char) (n : Nat) : n ≤ Nat.ofDigitChars 10 ds n := by
  induction ds generalizing n with
  | nil => exact Nat.le_refl n
  | cons d ds ih =>
    rw [Nat.ofDigitChars_cons]
    exact Nat.le_trans (by omega) (ih _)

theorem fittingDigits_of_le (ds : List Char) (n : Nat) (h : Nat.ofDigitChars 10 ds n ≤ largestWord) :
    fittingDigits n ds = (ds.length, Nat.ofDigitChars 10 ds n, []) := by
  induction ds generalizing n with
  | nil => rfl
  | cons d ds ih =>
    have hzero : '0'.toNat = 48 := rfl
    rw [Nat.ofDigitChars_cons, hzero, Nat.mul_comm] at h
    have hfits := Nat.le_trans (le_ofDigitChars ds _) h
    rw [fittingDigits, if_neg (Nat.not_lt.mpr hfits), ih _ h, Nat.ofDigitChars_cons, hzero,
      Nat.mul_comm 10 n]
    rfl

theorem run_number {negative : Bool} (h : n ≤ largestWord)
    (hnegative : negative → n ≠ 0 ∧ n ≤ Nat.pow 2 63) (hrest : Ends rest) :
    (number negative).run (Nat.toDigits 10 n ++ rest) =
      .ok (.integer (if negative then -n else n), rest) := by
  have hvalue : Nat.ofDigitChars 10 (Nat.toDigits 10 n) 0 = n :=
    Nat.ofDigitChars_toDigits (by decide) (by decide)
  have hfits := fittingDigits_of_le (Nat.toDigits 10 n) 0 (hvalue.symm ▸ h)
  have hrun : digits.run (Nat.toDigits 10 n ++ rest) = .ok (Nat.toDigits 10 n, rest) :=
    run_digits (fun _ => Text.isDigit_toDigits) (not_isDigit_of_ends hrest)
  obtain ⟨c, cs, hdigits, hzero⟩ := Text.exists_toDigits n
  have hc : c.isDigit := Text.isDigit_toDigits (hdigits ▸ List.mem_cons_self)
  have hleading : (c == '0' && decide (cs.length + 1 > 1)) = false := by
    by_cases hc : c = '0'
    · rw [hzero hc]
      exact Bool.and_false _
    · rw [beq_false_of_ne hc, Bool.false_and]
  rw [hvalue, hdigits] at hfits
  rw [hdigits, List.cons_append] at hrun
  unfold number
  rw [run_bind_of_ok run_get, hdigits, List.cons_append]
  simp only [List.head?_cons, hc, Bool.not_true, Bool.false_eq_true, if_false]
  rw [run_bind_of_ok hrun]
  simp only [List.length_cons, hleading, Bool.false_eq_true, if_false, hfits]
  rw [run_bind_of_ok run_get]
  -- the marks of a fraction and of an exponent do not end a value
  split
  next hpoint => exact absurd (hrest _ hpoint) (by decide)
  next hexponent => exact absurd (hrest _ hexponent) (by decide)
  next hexponent => exact absurd (hrest _ hexponent) (by decide)
  next =>
    cases negative with
    | false => rfl
    | true =>
      obtain ⟨hne, hle⟩ := hnegative rfl
      have hnonzero : (n == 0 || decide (n > Nat.pow 2 63)) = false := by
        rw [beq_false_of_ne hne, decide_eq_false (Nat.not_lt.mpr hle), Bool.false_or]
      simp only [List.isEmpty_nil, Bool.not_true, Bool.false_eq_true, if_false, hnonzero, if_true]
      rfl

end GrammarScopes.Json.Read
