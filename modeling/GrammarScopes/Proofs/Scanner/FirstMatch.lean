import GrammarScopes.Proofs.Line.Boundary
import GrammarScopes.Proofs.Scanner.Earliest

/-!
What a search for several patterns finds, seen from where each pattern matches: the match that begins first, and of
those that begin at the same place that of the pattern listed first.
-/

namespace GrammarScopes

namespace Scanner

open Pattern

/-- The match of one pattern, at the first place from `pos` on at which it has one. -/
def FirstMatch (c : Compiled) (line : Line) (pos : Nat) (m : ScanMatch) : Prop :=
  ∃ p q a, line.index? pos = some p ∧ p ≤ q ∧ q ≤ line.chars.size ∧ c.matchAt ⟨line.chars, p⟩ q = some a ∧
    (∀ k, p ≤ k → k < q → c.matchAt ⟨line.chars, p⟩ k = none) ∧
    m.captures = (Compiled.spans q a).map (·.map fun s => ⟨line.offset s.1, line.offset s.2⟩)

/-- A match of one of the patterns that no other begins before, and none of a pattern listed earlier at the same
place. -/
structure Wins (patterns : List Compiled) (line : Line) (pos : Nat) (m : ScanMatch) : Prop where
  own : ∃ c, patterns[m.index]? = some c ∧ FirstMatch c line pos m
  first : ∀ i c m', patterns[i]? = some c → FirstMatch c line pos m' →
    m.start < m'.start ∨ m.start = m'.start ∧ m.index ≤ i

variable {patterns : List Compiled} {line : Line} {pos p i : Nat} {c : Compiled} {m m' : ScanMatch}

theorem captures_inj (hindex : m.index = m'.index) (h : m.captures = m'.captures) : m = m' := by
  obtain ⟨i, whole, groups⟩ := m
  obtain ⟨i', whole', groups'⟩ := m'
  cases hindex
  cases h
  rfl

theorem FirstMatch.captures_eq (h : FirstMatch c line pos m) (h' : FirstMatch c line pos m') :
    m.captures = m'.captures := by
  obtain ⟨p, q, a, hp, hle, -, ha, hnone, hcaptures⟩ := h
  obtain ⟨p', q', a', hp', hle', -, ha', hnone', hcaptures'⟩ := h'
  cases hp.symm.trans hp'
  rcases Nat.lt_trichotomy q q' with hlt | rfl | hlt
  · cases ha.symm.trans (hnone' q hle hlt)
  · cases ha.symm.trans ha'
    rw [hcaptures, hcaptures']
  · cases ha'.symm.trans (hnone q' hle' hlt)

theorem FirstMatch.le_size (h : FirstMatch c line pos m) : pos ≤ line.size := by
  obtain ⟨p, -, -, hp, -⟩ := h
  rw [← Line.offset_of_index? hp]
  exact (line.isBoundary_offset p).le_size

theorem Wins.unique (h : Wins patterns line pos m) (h' : Wins patterns line pos m') : m = m' := by
  obtain ⟨c, hc, hm⟩ := h.own
  obtain ⟨c', hc', hm'⟩ := h'.own
  have hindex : m.index = m'.index := by
    have := h.first _ _ _ hc' hm'
    have := h'.first _ _ _ hc hm
    omega
  rw [hindex] at hc
  cases hc.symm.trans hc'
  exact captures_inj hindex (hm.captures_eq hm')

end Scanner

end GrammarScopes
