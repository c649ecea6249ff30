import GrammarScopes.Text.Number
import Mathlib.Data.Bool.AllAny

/-!
Whole numbers in decimal: the digits that are written, and their value.
-/

namespace GrammarScopes.Text

variable {c : Char} {n : Nat}

theorem takeWhile_append {p : Char → Bool} {cs rest : List Char} (hcs : ∀ c ∈ cs, p c)
    (hrest : ∀ c ∈ rest.head?, p c = false) : (cs ++ rest).takeWhile p = cs := by
  rw [List.takeWhile_append_of_pos hcs]
  cases rest with
  | nil => simp
  | cons c rest => rw [List.takeWhile_cons_of_neg (by simp [hrest c rfl]), List.append_nil]

theorem forall_isDigit {P : Char → Prop} [DecidablePred P]
    (h : ['0', '1', '2', '3', '4', '5', '6', '7', '8', '9'].all fun c => P c) :
    ∀ c : Char, c.isDigit → P c := by
  intro c hc
  simp only [Char.isDigit, Bool.and_eq_true, decide_eq_true_eq, UInt32.le_iff_toNat_le] at hc
  have hrange : 48 ≤ c.toNat ∧ c.toNat ≤ 57 := hc
  obtain ⟨k, hk, hcode⟩ : ∃ k, k < 10 ∧ c.toNat = 48 + k := ⟨c.toNat - 48, by omega, by omega⟩
  have hall : ∀ k < 10, Char.ofNat (48 + k) ∈ ['0', '1', '2', '3', '4', '5', '6', '7', '8', '9'] := by decide
  rw [← Char.ofNat_toNat c, hcode]
  exact List.all_iff_forall_prop.mp h _ (hall k hk)

theorem isDigit_toDigits (h : c ∈ Nat.toDigits 10 n) : c.isDigit :=
  Nat.isDigit_of_mem_toDigits (by decide) (by decide) h

theorem exists_toDigits (n : Nat) : ∃ c cs, Nat.toDigits 10 n = c :: cs ∧ (c = '0' → cs = []) := by
  induction n using Nat.strongRecOn with
  | ind n ih =>
    by_cases hn : n < 10
    · exact ⟨n.digitChar, [], Nat.toDigits_of_lt_base hn, fun _ => rfl⟩
    · obtain ⟨c, cs, hdigits, hzero⟩ := ih (n / 10) (by omega)
      have happend := Nat.toDigits_append_toDigits (b := 10) (n := n / 10) (d := n % 10) (by decide) (by omega)
        (by omega)
      rw [Nat.div_add_mod, hdigits] at happend
      refine ⟨c, cs ++ Nat.toDigits 10 (n % 10), happend.symm, fun hc => ?_⟩
      have hvalue := Nat.ofDigitChars_toDigits (b := 10) (n := n / 10) (by decide) (by decide)
      rw [hdigits, hzero hc, hc] at hvalue
      have hsmall : n / 10 = 0 := hvalue.symm
      omega

theorem decimal?_eq_some {ds : List Char} {m : Nat} :
    decimal? n ds = some m ↔ (∀ c ∈ ds, c.isDigit) ∧ Nat.ofDigitChars 10 ds n = m := by
  induction ds generalizing n with
  | nil => simp [decimal?]
  | cons c ds ih =>
    have hzero : '0'.toNat = 48 := rfl
    by_cases hc : c.isDigit
    · simp [decimal?, digitValue?, hc, ih, Nat.ofDigitChars_cons, hzero, Nat.mul_comm]
    · simp [decimal?, digitValue?, hc]

theorem decimal?_toDigits (n : Nat) : decimal? 0 (Nat.toDigits 10 n) = some n := by
  apply decimal?_eq_some.mpr
  constructor
  · exact fun c hc => isDigit_toDigits hc
  · exact Nat.ofDigitChars_toDigits (by decide) (by decide)

theorem toList_toString (i : Int) : (toString i).toList =
    if 0 ≤ i then Nat.toDigits 10 i.toNat else '-' :: Nat.toDigits 10 (-i).toNat := by
  rw [Int.toString_eq_repr, Int.repr_eq_if]
  split
  · exact Nat.toList_repr
  · rw [String.toList_append, Nat.toList_repr]
    rfl

end GrammarScopes.Text
