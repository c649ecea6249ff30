import GrammarScopes.Proofs.Pattern.Takes
import Mathlib.Data.List.Dedup

/-!
What a pattern without repetitions can have matched, up to case: the case foldings of all texts that
it matches can be listed.
-/

namespace GrammarScopes.Pattern

/-- The case foldings of what the node can consume, if they are known. -/
def Node.foldings : Node → Option (List (List Char))
  | empty | ahead _ _ | assertion _ _ => some [[]]
  | char c => some [Text.foldChar c]
  | set (.oneOf cs) => some (cs.map Text.foldChar)
  | seq a b => do
    let us ← a.foldings
    let vs ← b.foldings
    return (us.flatMap fun u => vs.map (u ++ ·)).dedup
  | alt a b => return ((← a.foldings) ++ (← b.foldings)).dedup
  | group _ body => body.foldings
  | _ => none

def Spells (t : Subject) (foldings : List (List Char)) (s s' : Attempt) : Prop :=
  ∃ u, t.chars.toList.drop s.pos = u ++ t.chars.toList.drop s'.pos ∧
    u.flatMap Text.foldChar ∈ foldings

variable {t : Subject} {called : GroupRef → Attempt → Attempt → Prop}

theorem Spells.nothing {s s' : Attempt} (h : s'.pos = s.pos) : Spells t [[]] s s' :=
  ⟨[], by rw [h, List.nil_append], List.mem_singleton_self _⟩

theorem spells_char {s : Attempt} {c : Char} {foldings : List (List Char)} (h : t.at? s.pos = some c)
    (hc : Text.foldChar c ∈ foldings) : Spells t foldings s (s.moveTo (s.pos + 1)) := by
  obtain ⟨hlt, rfl⟩ := Array.getElem?_eq_some_iff.mp h
  refine ⟨[t.chars[s.pos]], ?_, by simpa using hc⟩
  have hlt' : s.pos < t.chars.toList.length := hlt
  rw [List.drop_eq_getElem_cons hlt']
  rfl

theorem Node.Takes.spells {n : Node} {s s' : Attempt} (h : n.Takes t called s s') {foldings : List (List Char)}
    (hn : n.foldings = some foldings) : Spells t foldings s s' := by
  induction h generalizing foldings with
  | empty | ahead | notAhead | assertion =>
    cases hn
    exact .nothing rfl
  | char hat =>
    cases hn
    exact spells_char hat (List.mem_singleton_self _)
  | @set s c cs hat hc =>
    cases cs with
    | oneOf cs =>
      cases hn
      have hmem : c ∈ cs := by simpa [CharSet.contains] using hc
      exact spells_char hat (List.mem_map_of_mem hmem)
    | _ => cases hn
  | seq _ _ ih ih' =>
    simp only [Node.foldings, Option.bind_eq_bind, Option.bind_eq_some_iff, Option.pure_def] at hn
    obtain ⟨us, hus, vs, hvs, hn⟩ := hn
    cases hn
    obtain ⟨u, hu, humem⟩ := ih hus
    obtain ⟨v, hv, hvmem⟩ := ih' hvs
    refine ⟨u ++ v, by rw [hu, hv, List.append_assoc], ?_⟩
    rw [List.mem_dedup, List.flatMap_append]
    exact List.mem_flatMap.mpr ⟨_, humem, List.mem_map_of_mem hvmem⟩
  | altLeft _ ih =>
    simp only [Node.foldings, Option.bind_eq_bind, Option.bind_eq_some_iff, Option.pure_def] at hn
    obtain ⟨us, hus, vs, -, hn⟩ := hn
    cases hn
    obtain ⟨u, hu, hmem⟩ := ih hus
    exact ⟨u, hu, List.mem_dedup.mpr (List.mem_append_left _ hmem)⟩
  | altRight _ ih =>
    simp only [Node.foldings, Option.bind_eq_bind, Option.bind_eq_some_iff, Option.pure_def] at hn
    obtain ⟨us, -, vs, hvs, hn⟩ := hn
    cases hn
    obtain ⟨u, hu, hmem⟩ := ih hvs
    exact ⟨u, hu, List.mem_dedup.mpr (List.mem_append_right _ hmem)⟩
  | group _ ih => exact ih hn
  | _ => cases hn

/-- Look-ahead finds nothing in a text whose case folding has none of the foldings in it. -/
theorem not_takes_ahead {body : Node} {foldings : List (List Char)} (hbody : body.foldings = some foldings)
    {s : Attempt} (ht : ∀ w ∈ foldings, ¬ w <:+: (t.chars.toList.drop s.pos).flatMap Text.foldChar) (s' : Attempt) :
    ¬ (Node.ahead true body).Takes t called s s' := by
  intro h
  cases h with
  | ahead h =>
    obtain ⟨u, hu, hmem⟩ := h.spells hbody
    apply ht _ hmem
    rw [hu, List.flatMap_append]
    exact (List.prefix_append _ _).isInfix

end GrammarScopes.Pattern
