import GrammarScopes.Grammar.Compile
import Mathlib.Algebra.GroupWithZero.Nat
import Mathlib.Algebra.Order.BigOperators.Group.List
import Mathlib.Algebra.Order.Group.Nat

/-!
What is written in a description: the rules in a rule or a grammar, at which sites, how many there are, and which
other grammars they name.
-/

namespace GrammarScopes

def listParts (rules : List RuleDescription) : List (Place × RuleDescription) :=
  rules.zipIdx.map fun (r, i) => (.pattern i, r)

def tableParts (list : RuleList) (rules : RuleTable) : List (Place × RuleDescription) :=
  rules.map fun (key, r) => (.entry list key, r)

def RuleDescription.table (r : RuleDescription) : RuleList → RuleTable
  | .captures => r.captures.getD []
  | .beginCaptures => r.beginCaptures.getD []
  | .endCaptures => r.endCaptures.getD []
  | .whileCaptures => r.whileCaptures.getD []
  | .repository => r.repository.getD []

def RuleDescription.parts (r : RuleDescription) : List (Place × RuleDescription) :=
  listParts (r.patterns.getD []) ++
    [RuleList.repository, .captures, .beginCaptures, .endCaptures, .whileCaptures].flatMap fun list =>
      tableParts list (r.table list)

theorem RuleDescription.mem_parts_of_table {r : RuleDescription} {list : RuleList} {e : String × RuleDescription}
    (h : e ∈ r.table list) : (.entry list e.1, e.2) ∈ r.parts := by
  refine List.mem_append_right _ (List.mem_flatMap.mpr ⟨list, ?_, List.mem_map_of_mem h⟩)
  cases list <;> decide

def GrammarDescription.parts (g : GrammarDescription) : List (Place × RuleDescription) :=
  listParts g.patterns ++ tableParts .repository g.repository

namespace Description

variable {s : String} {p : Place × RuleDescription}

theorem map_listParts {α : Type} (f : RuleDescription → α) (rules : List RuleDescription) :
    (listParts rules).map (f ·.2) = rules.map f := by
  rw [listParts, List.map_map]
  exact (List.map_map (f := Prod.fst) (g := f)).symm.trans (by rw [List.zipIdx_map_fst])

theorem map_tableParts {α : Type} (f : RuleDescription → α) (list : RuleList) (rules : RuleTable) :
    (tableParts list rules).map (f ·.2) = rules.map (f ·.2) := List.map_map

section Count

theorem listCount_eq (rules : List RuleDescription) :
    listCount rules = ((listParts rules).map (ruleCount ·.2)).sum := by
  rw [map_listParts]
  induction rules with
  | nil => rfl
  | cons r rules ih => rw [listCount, ih, List.map_cons, List.sum_cons]

theorem entryCount_eq (list : RuleList) (rules : RuleTable) :
    entryCount rules = ((tableParts list rules).map (ruleCount ·.2)).sum := by
  rw [map_tableParts]
  induction rules with
  | nil => rfl
  | cons e rules ih => rw [entryCount, ih, List.map_cons, List.sum_cons]

theorem patternCount_eq (rules : Option (List RuleDescription)) : patternCount rules = listCount (rules.getD []) := by
  cases rules <;> rfl

theorem tableCount_eq (rules : Option RuleTable) : tableCount rules = entryCount (rules.getD []) := by
  cases rules <;> rfl

theorem ruleCount_eq (r : RuleDescription) : ruleCount r = 1 + (r.parts.map (ruleCount ·.2)).sum := by
  simp only [RuleDescription.parts, List.flatMap_cons, List.flatMap_nil, List.map_append, List.map_nil,
    List.sum_append, List.sum_nil, ← listCount_eq, ← entryCount_eq]
  cases r
  simp only [ruleCount, patternCount_eq, tableCount_eq, RuleDescription.table]
  omega

theorem ruleCount_grammar (g : GrammarDescription) : g.ruleCount = (g.parts.map (ruleCount ·.2)).sum := by
  rw [GrammarDescription.parts, List.map_append, List.sum_append, ← listCount_eq, ← entryCount_eq]
  rfl

theorem ruleCount_lt {r : RuleDescription} (h : p ∈ r.parts) : ruleCount p.2 < ruleCount r := by
  have hle := List.le_sum_of_mem (List.mem_map_of_mem (f := fun p => ruleCount p.2) h)
  rw [ruleCount_eq r]
  omega

theorem ruleCount_le {g : GrammarDescription} (h : p ∈ g.parts) : ruleCount p.2 ≤ g.ruleCount := by
  rw [ruleCount_grammar]
  exact List.le_sum_of_mem (List.mem_map_of_mem (f := fun p => ruleCount p.2) h)

theorem length_le_listCount (rules : List RuleDescription) : rules.length ≤ listCount rules := by
  induction rules with
  | nil => exact Nat.le_refl 0
  | cons r rules ih =>
    rw [listCount, ruleCount_eq r, List.length_cons]
    omega

theorem length_le_entryCount (rules : RuleTable) : rules.length ≤ entryCount rules := by
  induction rules with
  | nil => exact Nat.le_refl 0
  | cons e rules ih =>
    rw [entryCount, ruleCount_eq e.2, List.length_cons]
    omega

end Count

section Scopes

theorem mem_listScopes (rules : List RuleDescription) :
    s ∈ listScopes rules ↔ ∃ p ∈ listParts rules, s ∈ ruleScopes p.2 := by
  have hmap : (∃ p ∈ listParts rules, s ∈ ruleScopes p.2) ↔
      ∃ ss ∈ (listParts rules).map (ruleScopes ·.2), s ∈ ss := by
    simp
  rw [hmap, map_listParts]
  induction rules with
  | nil => simp [listScopes]
  | cons r rules ih => simp [listScopes, ih]

theorem mem_tableScopes (list : RuleList) (rules : RuleTable) :
    s ∈ tableScopes rules ↔ ∃ p ∈ tableParts list rules, s ∈ ruleScopes p.2 := by
  have hmap : (∃ p ∈ tableParts list rules, s ∈ ruleScopes p.2) ↔
      ∃ ss ∈ (tableParts list rules).map (ruleScopes ·.2), s ∈ ss := by
    simp
  rw [hmap, map_tableParts]
  induction rules with
  | nil => simp [tableScopes]
  | cons e rules ih => simp [tableScopes, ih]

theorem patternScopes_eq (rules : Option (List RuleDescription)) :
    patternScopes rules = listScopes (rules.getD []) := by
  cases rules <;> rfl

theorem namedScopes_eq (rules : Option RuleTable) : namedScopes rules = tableScopes (rules.getD []) := by
  cases rules <;> rfl

theorem mem_ruleScopes (r : RuleDescription) :
    s ∈ ruleScopes r ↔ r.reference.bind Reference.externalScope? = some s ∨ ∃ p ∈ r.parts, s ∈ ruleScopes p.2 := by
  simp only [RuleDescription.parts, List.flatMap_cons, List.flatMap_nil, List.mem_append, List.not_mem_nil,
    or_false, or_and_right, exists_or, ← mem_listScopes, ← mem_tableScopes]
  cases r
  simp only [ruleScopes, patternScopes_eq, namedScopes_eq, RuleDescription.table, List.mem_append,
    Option.mem_toList, or_assoc]

theorem mem_externalScopes (g : GrammarDescription) :
    s ∈ g.externalScopes ↔ (∃ p ∈ g.parts, s ∈ ruleScopes p.2) ∧ s ≠ g.scopeName := by
  have hwords (ss : List String) : s ∈ ss.foldr Dictionary.insertWord [] ↔ s ∈ ss := by
    induction ss with
    | nil => rfl
    | cons w ss ih => rw [List.foldr_cons, Dictionary.mem_insertWord, ih, List.mem_cons]
  simp only [GrammarDescription.parts, List.mem_append, or_and_right, exists_or, ← mem_listScopes,
    ← mem_tableScopes, GrammarDescription.externalScopes, List.mem_filter, hwords, bne_iff_ne]

end Scopes

end Description

open Description

def RuleDescription.sites (r : RuleDescription) (site : Site) : List Site :=
  site :: r.parts.attach.flatMap fun p => p.1.2.sites (site.within p.1.1)
termination_by ruleCount r
decreasing_by exact ruleCount_lt p.2

theorem RuleDescription.length_sites (r : RuleDescription) (site : Site) : (r.sites site).length = ruleCount r := by
  induction r, site using RuleDescription.sites.induct with
  | case1 r site ih =>
    have hparts : r.parts.attach.map (fun p => (p.1.2.sites (site.within p.1.1)).length) =
        r.parts.map (ruleCount ·.2) := by
      rw [← List.attach_map_val (f := fun p : Place × RuleDescription => ruleCount p.2)]
      exact List.map_congr_left fun p _ => ih p
    rw [RuleDescription.sites, ruleCount_eq, List.length_cons, List.length_flatMap, hparts, Nat.add_comm]

theorem RuleDescription.mem_sites (r : RuleDescription) (site : Site) : site ∈ r.sites site := by
  rw [RuleDescription.sites]
  exact List.mem_cons_self

theorem RuleDescription.sites_subset {r : RuleDescription} {p : Place × RuleDescription} (h : p ∈ r.parts)
    (site : Site) : p.2.sites (site.within p.1) ⊆ r.sites site := by
  intro s hs
  rw [RuleDescription.sites]
  exact List.mem_cons_of_mem _ (List.mem_flatMap.mpr ⟨⟨p, h⟩, List.mem_attach _ _, hs⟩)

namespace NamedGrammar

variable {g : NamedGrammar} {site : Site} {r : RuleDescription} {s : String}

def sites (g : NamedGrammar) : List Site := g.grammar.parts.flatMap fun p => p.2.sites (g.site.within p.1)

theorem length_sites (g : NamedGrammar) : g.sites.length = g.grammar.ruleCount := by
  rw [sites, List.length_flatMap, ruleCount_grammar]
  exact congrArg List.sum (List.map_congr_left fun p _ => p.2.length_sites _)

inductive Writes (g : NamedGrammar) : Site → RuleDescription → Prop
  | top {p : Place × RuleDescription} (h : p ∈ g.grammar.parts) : Writes g (g.site.within p.1) p.2
  | inside {site : Site} {r : RuleDescription} {p : Place × RuleDescription} (h : Writes g site r)
      (hp : p ∈ r.parts) : Writes g (site.within p.1) p.2

theorem Writes.sites_subset (h : g.Writes site r) : r.sites site ⊆ g.sites := by
  induction h with
  | top hp => exact fun s hs => List.mem_flatMap.mpr ⟨_, hp, hs⟩
  | inside _ hp ih => exact List.Subset.trans (RuleDescription.sites_subset hp _) ih

theorem Writes.mem_sites (h : g.Writes site r) : site ∈ g.sites := h.sites_subset (r.mem_sites site)

theorem Writes.ruleCount_le (h : g.Writes site r) : ruleCount r ≤ g.grammar.ruleCount := by
  induction h with
  | top hp => exact Description.ruleCount_le hp
  | inside _ hp ih => exact (ruleCount_lt hp).le.trans ih

/-- What a rule names that is written in a grammar, the grammar has to load unless it declares that scope. -/
theorem Writes.mem_externalScopes (h : g.Writes site r) (hs : s ∈ ruleScopes r) :
    s ∈ g.grammar.externalScopes ∨ s = g.grammar.scopeName := by
  induction h with
  | top hp =>
    by_cases hname : s = g.grammar.scopeName
    · exact .inr hname
    · exact .inl ((Description.mem_externalScopes _).mpr ⟨⟨_, hp, hs⟩, hname⟩)
  | inside _ hp ih => exact ih ((mem_ruleScopes _).mpr (.inr ⟨_, hp, hs⟩))

end NamedGrammar

end GrammarScopes
