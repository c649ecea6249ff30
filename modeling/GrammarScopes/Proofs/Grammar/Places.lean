import GrammarScopes.Proofs.Dictionary
import GrammarScopes.Proofs.Grammar.Reach

/-!
Rules by the places where they are written.
-/

namespace GrammarScopes

/-- What is written in a grammar, as one rule around it. -/
def GrammarDescription.body (g : GrammarDescription) : RuleDescription :=
  { patterns := some g.patterns, repository := some g.repository }

def RuleDescription.part? (r : RuleDescription) : Place → Option RuleDescription
  | .pattern index => (r.patterns.getD [])[index]?
  | .entry list key => Dictionary.find? (r.table list) key

/-- The rule to which steps lead, the last one first.  No step leads to what is around all rules. -/
def GrammarDescription.at? (g : GrammarDescription) : List Place → Option RuleDescription
  | [] => some g.body
  | p :: steps => (g.at? steps).bind (·.part? p)

/-- Rules by name or by group are dictionaries. -/
def GrammarDescription.Ordered (g : GrammarDescription) : Prop :=
  ∀ steps r, g.at? steps = some r → ∀ list, Dictionary.Sorted (r.table list)

namespace RuleDescription

variable {r : RuleDescription} {p : Place × RuleDescription}

theorem mem_listParts {rules : List RuleDescription} :
    p ∈ listParts rules ↔ ∃ i, rules[i]? = some p.2 ∧ p.1 = .pattern i := by
  obtain ⟨place, r⟩ := p
  simp only [listParts, List.mem_map, Prod.exists, List.mem_zipIdx_iff_getElem?, Prod.mk.injEq]
  constructor
  · rintro ⟨r', i, hi, rfl, rfl⟩
    exact ⟨i, hi, rfl⟩
  · rintro ⟨i, hi, rfl⟩
    exact ⟨r, i, hi, rfl, rfl⟩

theorem part?_of_mem_parts (hr : ∀ list, Dictionary.Sorted (r.table list)) (h : p ∈ r.parts) :
    r.part? p.1 = some p.2 := by
  rcases List.mem_append.mp h with h | h
  · obtain ⟨i, hi, hp⟩ := mem_listParts.mp h
    rw [hp]
    exact hi
  · obtain ⟨list, -, h⟩ := List.mem_flatMap.mp h
    obtain ⟨e, he, rfl⟩ := List.mem_map.mp h
    exact Dictionary.find?_of_mem (hr list).nodup_keys he

theorem mem_parts_of_part? {place : Place} {r' : RuleDescription} (h : r.part? place = some r') :
    (place, r') ∈ r.parts := by
  cases place with
  | pattern i => exact List.mem_append_left _ (mem_listParts.mpr ⟨i, h, rfl⟩)
  | entry list key => exact mem_parts_of_table (Dictionary.mem_of_find? h)

/-- A rule to which steps lead and the rules in it, each with the steps to it, down to a depth. -/
def within : Nat → List Place → RuleDescription → List (List Place × RuleDescription)
  | 0, _, _ => []
  | n + 1, steps, r => (steps, r) :: r.parts.flatMap fun p => p.2.within n (p.1 :: steps)

variable {n : Nat} {steps : List Place} {e : List Place × RuleDescription}

theorem mem_within_self (h : Description.ruleCount r ≤ n) : (steps, r) ∈ r.within n steps := by
  have hpos : 0 < Description.ruleCount r := by
    rw [Description.ruleCount_eq]
    omega
  obtain ⟨n, rfl⟩ := Nat.exists_eq_add_one.mpr (hpos.trans_le h)
  exact List.mem_cons_self

theorem mem_within_of_mem_parts (hn : Description.ruleCount r ≤ n) (h : e ∈ r.within n steps)
    (hp : p ∈ e.2.parts) : (p.1 :: e.1, p.2) ∈ r.within n steps := by
  induction n generalizing r steps with
  | zero => cases h
  | succ n ih =>
    have hle : ∀ q ∈ r.parts, Description.ruleCount q.2 ≤ n := fun q hq =>
      Nat.le_of_lt_succ ((Description.ruleCount_lt hq).trans_le hn)
    refine List.mem_cons_of_mem _ (List.mem_flatMap.mpr ?_)
    rcases List.mem_cons.mp h with rfl | h
    · exact ⟨p, hp, mem_within_self (hle p hp)⟩
    · obtain ⟨q, hq, h⟩ := List.mem_flatMap.mp h
      exact ⟨q, hq, ih (hle q hq) h⟩

end RuleDescription

namespace GrammarDescription

variable {g : GrammarDescription} {steps : List Place} {r : RuleDescription}

def rules (g : GrammarDescription) : List (List Place × RuleDescription) :=
  g.body.within (Description.ruleCount g.body) []

theorem mem_rules_of_at? (h : g.at? steps = some r) : (steps, r) ∈ g.rules := by
  induction steps generalizing r with
  | nil =>
    cases h
    exact RuleDescription.mem_within_self le_rfl
  | cons p steps ih =>
    obtain ⟨r', hr', hpart⟩ := Option.bind_eq_some_iff.mp h
    exact RuleDescription.mem_within_of_mem_parts le_rfl (ih hr') (RuleDescription.mem_parts_of_part? hpart)

def isOrdered (g : GrammarDescription) : Bool :=
  g.rules.all fun e => [RuleList.repository, .captures, .beginCaptures, .endCaptures, .whileCaptures].all fun list =>
    decide ((e.2.table list).Pairwise (·.1 < ·.1))

theorem ordered_of_isOrdered (h : g.isOrdered) : g.Ordered := by
  intro steps r hr list
  have hlists := List.all_eq_true.mp (List.all_eq_true.mp h _ (mem_rules_of_at? hr))
  have hmem : list ∈ [RuleList.repository, .captures, .beginCaptures, .endCaptures, .whileCaptures] := by
    cases list <;> decide
  have hsorted : (r.table list).Pairwise (·.1 < ·.1) := of_decide_eq_true (hlists list hmem)
  exact hsorted

theorem mem_body_parts {p : Place × RuleDescription} : p ∈ g.body.parts ↔ p ∈ g.parts := by
  simp [RuleDescription.parts, GrammarDescription.parts, body, RuleDescription.table, tableParts]

end GrammarDescription

end GrammarScopes
