import GrammarScopes.Proofs.Grammar.Arena
import GrammarScopes.Proofs.Grammar.Roots
import GrammarScopes.Proofs.Grammar.Unfolding

/-!
The rules of a compiled grammar: they refer to each other only, and there is one for every grammar and every written
rule that is reached.  Grammars are told apart by the scope that they declare.
-/

namespace GrammarScopes

/-- What is compiled with a grammar: the grammar itself, and what the listed ones of these lead to.  A rule that is
reached in several ways is listed as it is reached first, and leads to what its references mean there. -/
inductive Library.Reached (l : Library) (nodes : List Node) : Node → Prop
  | base : Reached l nodes (.grammar l.base)
  | child {n m : Node} (hn : Reached l nodes n) (hmem : n ∈ nodes) (hm : m ∈ l.children n) : Reached l nodes m

/-- The rules that a rule refers to: those that apply inside, and those for captured texts. -/
def Rule.references (r : Rule) : List RuleId := r.patterns ++ r.tables.flatten.filterMap (·.2.retokenize)

namespace Library

variable {l : Library} {scanner : Scanner} {a : Arena}

/-- The nodes that are listed are those that the recursion gives places to, from the compiled grammar on. -/
theorem nodes_eq_of_compiles (h : Compiles l scanner [] [.grammar l.base] a) : l.nodes = a.nodes := by
  have hbase : ∀ n ∈ [Node.grammar l.base], n.Fits l := List.forall_mem_singleton.mpr (.grammar (.inl rfl))
  obtain ⟨looks, hle, heq⟩ := h.reach_eq hbase
  have hlength := (h.sound (.nil l) hbase).length_le
  have hlimit : looks ≤ l.reachLimit := by
    have hmul := Nat.mul_le_mul_right (2 * l.nodeCount) hlength
    rw [List.length_nil, List.length_singleton] at hle
    rw [reachLimit, Nat.add_mul, Nat.mul_add]
    omega
  obtain ⟨k, hk⟩ := Nat.exists_eq_add_of_le' hlimit
  have hdone : ∀ k found, l.reach k [] found = found := fun k found => by cases k <;> rfl
  have hreach := heq k []
  rw [hdone, ← hk] at hreach
  rw [nodes]
  exact List.reverse_eq_iff.mpr hreach

theorem reached_of_compiles {ns : List Node} {a' : Arena} {nodes : List Node} (h : Compiles l scanner a ns a')
    (hnodes : a'.nodes ⊆ nodes) (ha : ∀ n ∈ a.nodes, l.Reached nodes n) (hns : ∀ n ∈ ns, l.Reached nodes n) :
    ∀ n ∈ a'.nodes, l.Reached nodes n := by
  induction h with
  | done => exact ha
  | known _ _ ih => exact ih hnodes ha fun m hm => hns m (List.mem_cons_of_mem _ hm)
  | @new a b a' n ns _ hb h ihb ih =>
    obtain ⟨hn, hns⟩ := List.forall_mem_cons.mp hns
    have hbnodes : b.nodes ⊆ nodes := by
      obtain ⟨more, hmore⟩ := h.exists_more
      rw [Arena.nodes_fill] at hmore
      exact List.Subset.trans (hmore ▸ List.subset_append_left b.nodes more) hnodes
    have hmem : n ∈ nodes := by
      obtain ⟨more, hmore⟩ := hb.exists_more
      rw [Arena.nodes_reserve] at hmore
      exact hbnodes (hmore ▸ by simp)
    refine ih hnodes ?_ hns
    rw [Arena.nodes_fill]
    refine ihb hbnodes ?_ fun m hm => .child hn hmem hm
    rw [Arena.nodes_reserve]
    exact List.forall_mem_append.mpr ⟨ha, List.forall_mem_singleton.mpr hn⟩

theorem references_lt {n : Node} : ∀ id ∈ (l.rule scanner l.nodes n).references, id < l.nodes.length := by
  intro id hid
  rcases List.mem_append.mp hid with hid | hid
  · rw [patterns_rule] at hid
    obtain ⟨item, -, hid⟩ := List.mem_filterMap.mp hid
    obtain ⟨m, -, hid⟩ := Option.bind_eq_some_iff.mp hid
    exact number?_lt hid
  · rw [tables_rule] at hid
    obtain ⟨slot, hslot, hid⟩ := List.mem_filterMap.mp hid
    obtain ⟨table, htable, hslot⟩ := List.mem_flatten.mp hslot
    obtain ⟨entries, -, rfl⟩ := List.mem_map.mp htable
    obtain ⟨e, -, rfl⟩ := List.mem_map.mp hslot
    simp only [CaptureEntry.toRule, Option.ite_none_right_eq_some] at hid
    exact number?_lt hid.2

end Library

namespace Grammar

open Library

variable {scope : String} {grammars : GrammarSet} {base : GrammarDescription} {g : Grammar}

theorem references_lt_ruleCount {scanner : Scanner} (h : compile scope grammars scanner = .ok g) {id : RuleId}
    {r : Rule} (hr : g.rule? id = some r) : ∀ other ∈ r.references, other < g.ruleCount := by
  obtain ⟨l, -, -, hcount, hrules⟩ := compile_nodes h
  rw [hrules, Option.map_eq_some_iff] at hr
  obtain ⟨n, -, rfl⟩ := hr
  rw [hcount]
  exact references_lt

/-- Compiling comes to an end with a place for each grammar and each rule that is reached, none of them open. -/
theorem compile_closed (scanner : Scanner) (hbase : Dictionary.find? grammars scope = some base) :
    let l := Library.mk grammars ⟨scope, base⟩
    ∃ a : Arena, (∀ a', Compiles l scanner [] [.grammar l.base] a' ↔ a' = a) ∧
      a.origins.Nodup ∧ (∀ n ∈ a.nodes, l.Reached a.nodes n) ∧
      (∀ n, l.Reached a.nodes n → n.origin ∈ a.origins) ∧
      ∀ g, compile scope grammars scanner = .ok g →
        a.map (·.rule) = g.rules.toList.map some ∧
        root < g.ruleCount ∧ (∃ patterns, g.rule? root = some (.container patterns)) ∧
        ∀ id r, g.rule? id = some r → ∀ other ∈ r.references, other < g.ruleCount := by
  intro l
  have hfits : ∀ n ∈ [Node.grammar l.base], n.Fits l := List.forall_mem_singleton.mpr (.grammar (.inl rfl))
  obtain ⟨a, ha⟩ : ∃ a, Compiles l scanner [] [.grammar l.base] a :=
    Compiles.exists_of_room (Nat.le_add_left _ _) (.nil l) hfits
  refine ⟨a, fun a' => ⟨fun h => h.unique ha, fun h => h ▸ ha⟩, (ha.sound (.nil l) hfits).nodup, ?_, ?_, ?_⟩
  · exact reached_of_compiles ha (fun n hn => hn) nofun (List.forall_mem_singleton.mpr .base)
  · intro n hn
    cases hn with
    | base => exact ha.mem_origins _ List.mem_cons_self
    | child _ hmem hm => exact ha.children_mem rfl _ hmem _ hm
  · intro g hg
    obtain ⟨patterns, hroot⟩ := (compile_wellFormed hg).root_container
    have hroot_lt : root < g.ruleCount := (Array.getElem?_eq_some_iff.mp hroot).1
    refine ⟨?_, hroot_lt, ⟨patterns, hroot⟩, fun id r hr => references_lt_ruleCount hg hr⟩
    obtain ⟨l', hgrammars, hbase', rfl⟩ := compile_eq_ofRules hg
    have hl : l' = l := by
      obtain ⟨grammars', base'⟩ := l'
      cases hgrammars
      rw [grammar?, hbase] at hbase'
      cases hbase'
      rfl
    rw [hl, nodes_eq_of_compiles ha]
    exact ha.rules_eq

theorem compile_closed_mutual :
    ∃ base a g, Dictionary.find? mutualSet "host" = some base ∧ compile "host" mutualSet .standard = .ok g ∧
      Compiles ⟨mutualSet, ⟨"host", base⟩⟩ .standard [] [.grammar ⟨"host", base⟩] a ∧ a.length = 6 ∧
      a.map (·.rule) = g.rules.toList.map some ∧
      ∀ id r, g.rule? id = some r → ∀ other ∈ r.references, other < 6 := by
  obtain ⟨base, hbase⟩ : ∃ base, Dictionary.find? mutualSet "host" = some base := ⟨_, rfl⟩
  obtain ⟨g, hg, hcount⟩ : ∃ g, compile "host" mutualSet .standard = .ok g ∧ g.ruleCount = 6 := by
    have hcount : (compile "host" mutualSet .standard).toOption.map ruleCount = some 6 := by decide +kernel
    obtain ⟨g, hg, hcount⟩ := Option.map_eq_some_iff.mp hcount
    exact ⟨g, ok_of_toOption hg, hcount⟩
  obtain ⟨a, ha, -, -, -, hclosed⟩ := compile_closed .standard hbase
  obtain ⟨hrules, -, -, hreferences⟩ := hclosed g hg
  have hlength : a.length = 6 := by
    have hlength := congrArg List.length hrules
    rw [List.length_map, List.length_map, Array.length_toList] at hlength
    exact hlength.trans hcount
  exact ⟨base, a, g, hbase, hg, (ha a).mpr rfl, hlength, hrules, hcount ▸ hreferences⟩

end Grammar

end GrammarScopes
