import GrammarScopes.Text.Class

/-!
The characters of a text read off its bytes, which is quick where they are all ASCII.
-/

namespace GrammarScopes.Text

def decode (s : String) : List Char :=
  let bytes := s.toByteArray.data.toList
  if bytes.all (· < 128) then bytes.map fun b => Char.ofNat b.toNat else s.toList

theorem map_ofNat_utf8EncodeChar {c : Char} (h : ∀ b ∈ String.utf8EncodeChar c, b < 128) :
    (String.utf8EncodeChar c).map (fun b => Char.ofNat b.toNat) = [c] := by
  have hlead (n : Nat) (hn : 192 ≤ n % 256) : ¬ UInt8.ofNat n < 128 := by
    rw [UInt8.lt_iff_toNat_lt, UInt8.toNat_ofNat']
    exact Nat.not_lt.mpr (Nat.le_trans (by decide) hn)
  have hsize : c.val.toNat ≤ 0x10FFFF := by
    have := c.valid
    simp only [UInt32.isValidChar, Nat.isValidChar] at this
    omega
  unfold String.utf8EncodeChar at h ⊢
  dsimp only at h ⊢
  split at h
  next hascii =>
    rw [if_pos hascii]
    have hmod : (UInt8.ofNat c.val.toNat).toNat = c.toNat :=
      (UInt8.toNat_ofNat' ..).trans (Nat.mod_eq_of_lt (by omega))
    rw [List.map_singleton, hmod, Char.ofNat_toNat]
  next =>
    split at h
    · exact absurd (h _ List.mem_cons_self) (hlead _ (by omega))
    · split at h
      · exact absurd (h _ List.mem_cons_self) (hlead _ (by omega))
      · exact absurd (h _ List.mem_cons_self) (hlead _ (by omega))

theorem decode_eq (s : String) : decode s = s.toList := by
  obtain ⟨cs, rfl⟩ : ∃ cs, s = String.ofList cs := ⟨s.toList, String.ofList_toList.symm⟩
  rw [decode, String.toByteArray_ofList, String.toList_ofList]
  simp only [List.utf8Encode, List.data_toByteArray]
  split
  next h =>
    induction cs with
    | nil => rfl
    | cons c cs ih =>
      simp only [List.flatMap_cons, List.all_append, Bool.and_eq_true] at h
      have hc : ∀ b ∈ String.utf8EncodeChar c, b < 128 := by simpa using h.1
      rw [List.flatMap_cons, List.map_append, map_ofNat_utf8EncodeChar hc, ih h.2]
      rfl
  next => rfl

end GrammarScopes.Text
