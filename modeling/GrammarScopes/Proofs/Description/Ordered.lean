import GrammarScopes.Proofs.Description.Members
import GrammarScopes.Proofs.Grammar.Places

/-!
Rules by name or by group are dictionaries in every grammar that is read from a text.
-/

namespace GrammarScopes

open Json Json.Read

inductive RuleDescription.AllSorted : RuleDescription → Prop
  | intro {r : RuleDescription} (htables : ∀ list, Dictionary.Sorted (r.table list))
    (hparts : ∀ p ∈ r.parts, AllSorted p.2) : AllSorted r

namespace Description

variable {depth : Nat} {rule : Read RuleDescription} {r : RuleDescription}

def TableSorted (es : RuleTable) : Prop := Dictionary.Sorted es ∧ ∀ e ∈ es, e.2.AllSorted

theorem yields_tableSorted (h : Yields rule RuleDescription.AllSorted) :
    Yields (readDictionary depth rule) TableSorted :=
  (yields_dictionary h).imp fun _ hes => hes.2

theorem yields_allSorted (h : Yields rule RuleDescription.AllSorted) :
    Yields (readSequence depth rule) fun rs => ∀ r ∈ rs, r.AllSorted :=
  (yields_sequence h).imp fun _ hrs => hrs.2

theorem tableSorted_getD {es : Option RuleTable} (h : ∀ t ∈ es, TableSorted t) : TableSorted (es.getD []) := by
  cases es with
  | none => exact ⟨List.Pairwise.nil, nofun⟩
  | some t => exact h t rfl

theorem tableSorted_table {L : List RuleDescription → Prop} {S : Switch → Prop}
    (h : PartsAre TableSorted L S r) : ∀ list, TableSorted (r.table list)
  | .captures => tableSorted_getD h.captures
  | .beginCaptures => tableSorted_getD h.beginCaptures
  | .endCaptures => tableSorted_getD h.endCaptures
  | .whileCaptures => tableSorted_getD h.whileCaptures
  | .repository => tableSorted_getD h.repository

theorem allSorted_of_parts (htables : ∀ list, TableSorted (r.table list))
    (hpatterns : ∀ r' ∈ r.patterns.getD [], r'.AllSorted) : r.AllSorted := by
  refine .intro (fun list => (htables list).1) fun p hp => ?_
  rcases List.mem_append.mp hp with hp | hp
  · obtain ⟨i, hi, -⟩ := RuleDescription.mem_listParts.mp hp
    exact hpatterns p.2 (List.mem_of_getElem? hi)
  · obtain ⟨list, -, hp⟩ := List.mem_flatMap.mp hp
    obtain ⟨e, he, rfl⟩ := List.mem_map.mp hp
    exact (htables list).2 e he

theorem yields_readRule_allSorted : ∀ depth, Yields (readRule depth) RuleDescription.AllSorted :=
  yields_readRule_of fun depth h => by
    have hswitch : Yields (readSwitch (depth + 1)) fun _ => True := fun _ _ _ _ => trivial
    have hmembers := yields_ruleMembers (yields_tableSorted h) (yields_allSorted h) hswitch
    unfold readRule
    refine (yields_record hmembers partsAre_blank).imp fun r hr =>
      allSorted_of_parts (tableSorted_table hr.2) fun r' hr' => ?_
    cases hpatterns : r.patterns with
    | none =>
      rw [hpatterns] at hr'
      cases hr'
    | some rs =>
      rw [hpatterns] at hr'
      exact hr.2.patterns rs hpatterns r' hr'

theorem yields_readGrammar_allSorted : Yields readGrammar fun g => g.body.AllSorted := by
  have hrule := yields_readRule_allSorted (depthLimit - 1 - 1)
  have hmembers := yields_grammarMembers (yields_tableSorted hrule) (yields_allSorted hrule)
  have hblank : RulesAre TableSorted (fun rs => ∀ r ∈ rs, r.AllSorted) ⟨"", none, [], [], []⟩ :=
    ⟨nofun, List.Pairwise.nil, nofun⟩
  refine (yields_record hmembers hblank).imp fun g hg => allSorted_of_parts (fun list => ?_) hg.2.patterns
  cases list with
  | repository => exact hg.2.repository
  | _ => exact ⟨List.Pairwise.nil, nofun⟩

end Description

namespace GrammarDescription

variable {g : GrammarDescription} {r : RuleDescription}

theorem allSorted_at? (h : g.body.AllSorted) {steps : List Place} (hr : g.at? steps = some r) : r.AllSorted := by
  induction steps generalizing r with
  | nil =>
    cases hr
    exact h
  | cons p steps ih =>
    obtain ⟨r', hr', hpart⟩ := Option.bind_eq_some_iff.mp hr
    obtain ⟨-, hparts⟩ := ih hr'
    exact hparts _ (RuleDescription.mem_parts_of_part? hpart)

/-- The rules of a grammar that was read from a text can be told apart by the steps to them. -/
theorem ordered_of_ofText {text : String} (h : ofText text = .ok g) : g.Ordered := by
  obtain ⟨rest, hrun, -⟩ := whole_eq_ok.mp h
  intro steps r hr
  obtain ⟨htables, -⟩ := allSorted_at? (Description.yields_readGrammar_allSorted _ _ _ hrun) hr
  exact htables

end GrammarDescription

end GrammarScopes
