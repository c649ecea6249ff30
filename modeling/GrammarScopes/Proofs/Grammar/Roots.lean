import GrammarScopes.Proofs.Grammar.Compiled
import GrammarScopes.Proofs.Grammar.Reach

/-!
References to whole grammars: which root they come to, by the key of a grammar or from within it.
-/

namespace GrammarScopes

/-- The grammar as a whole that a reference in `owner` names. -/
def Reference.grammar? (l : Library) (owner : NamedGrammar) : Reference → Option NamedGrammar
  | grammar scope => l.grammar? scope
  | self => some owner
  | base => some l.base
  | named _ | ruleOf .. => none

/-- The number of the rule that an item stands for. -/
def PatternItem.ruleId? (l : Library) (s : Surroundings) (item : PatternItem) : Option RuleId :=
  (item.node? l s).bind fun n => number? l.nodes n.origin

def Node.ruleIds (l : Library) (n : Node) : List RuleId := n.items.filterMap (PatternItem.ruleId? l n.around)

namespace Library

variable {l : Library} {n : Node} {k : NamedGrammar} {text : String}

theorem node?_of_grammar? {s : Surroundings} (h : (Reference.parse text).grammar? l s.grammar = some k) :
    (PatternItem.reference text).node? l s = some (.grammar k) := by
  rw [PatternItem.node?]
  cases hr : Reference.parse text with
  | grammar scope =>
    rw [hr] at h
    rw [target?, Option.map_eq_some_iff]
    exact ⟨k, h, rfl⟩
  | self | base =>
    rw [hr] at h
    cases h
    rfl
  | named | ruleOf =>
    rw [hr] at h
    cases h

theorem has_of_reference (hn : n.Fits l) (h : (Reference.parse text).grammar? l n.around.grammar = some k) :
    l.Has k := by
  have hfits : (Node.grammar k).Fits l := fits_target (fits_around hn) (node?_of_grammar? h)
  cases hfits with
  | grammar h => exact h

theorem patterns_rule (l : Library) (scanner : Scanner) (n : Node) :
    (l.rule scanner l.nodes n).patterns = n.ruleIds l := by
  have hids : n.ruleIds l = (l.patterns n).filterMap fun m => number? l.nodes m.origin := by
    rw [Node.ruleIds, patterns_eq, List.filterMap_filterMap]
    rfl
  rw [hids]
  cases n with
  | grammar g => rfl
  | rule site r s =>
    unfold rule
    dsimp only
    cases hshape : r.shape with
    | single p => rw [patterns, inner, hshape]; rfl
    | beginWhile | beginEnd | container => rfl

end Library

namespace Grammar

open Library

variable {scope text : String} {grammars : GrammarSet} {scanner : Scanner} {g : Grammar}

/-- A reference to a whole grammar comes to a root that is compiled from a grammar which declares the same scope;
and to the root of that very grammar if no other one at hand declares it. -/
theorem root_of_reference (h : compile scope grammars scanner = .ok g) :
    ∃ l : Library, l.grammars = grammars ∧ l.grammar? scope = some l.base ∧ g.ruleCount = l.nodes.length ∧
      ∀ id n, l.nodes[id]? = some n →
        (∃ rule, g.rule? id = some rule ∧ rule.patterns = n.ruleIds l) ∧
        ∀ text k, .reference text ∈ n.items → (Reference.parse text).grammar? l n.around.grammar = some k →
          ∃ root k', (PatternItem.reference text).ruleId? l n.around = some root ∧
            l.nodes[root]? = some (.grammar k') ∧ l.grammar? k'.key = some k' ∧
            g.rule? root = some (.container ((Node.grammar k').ruleIds l)) ∧
            k'.grammar.scopeName = k.grammar.scopeName ∧
            ((∀ e ∈ grammars, e.2.scopeName = k.grammar.scopeName → e.1 = k.key) → k' = k) := by
  obtain ⟨l, rfl, hbase, rfl⟩ := compile_eq_ofRules h
  have hrule : ∀ id n, l.nodes[id]? = some n →
      (ofRules scope (l.nodes.map (l.rule scanner l.nodes)).toArray scanner).rule? id =
        some (l.rule scanner l.nodes n) := by
    intro id n hn
    simp [rule?, ofRules, hn]
  refine ⟨l, rfl, hbase, by simp [ruleCount, ofRules], fun id n hn => ?_⟩
  refine ⟨⟨_, hrule id n hn, patterns_rule l scanner n⟩, fun text k hitem hk => ?_⟩
  have hmem := List.mem_of_getElem? hn
  have hnode := node?_of_grammar? hk
  have hchild : Node.grammar k ∈ l.children n := by
    refine List.mem_append_left _ ?_
    rw [patterns_eq]
    exact List.mem_filterMap.mpr ⟨_, hitem, hnode⟩
  obtain ⟨root, m, hroot, hm, horigin⟩ := exists_number hmem hchild
  have hfits := fits_of_mem_nodes (List.mem_of_getElem? hm)
  have hhas : ∀ k, l.Has k → l.grammar? k.key = some k := by
    intro k hk
    rcases hk with rfl | hk
    · rw [(mem_of_grammar? hbase).1]
      exact hbase
    · exact hk
  cases hfits with
  | rule => cases horigin
  | @grammar k' hk' =>
    have hname : k'.grammar.scopeName = k.grammar.scopeName := Origin.grammar.inj horigin
    refine ⟨root, k', by rw [PatternItem.ruleId?, hnode]; exact hroot, hm, hhas k' hk', ?_, hname, fun honly => ?_⟩
    · rw [hrule root _ hm, ← patterns_rule l scanner]
      rfl
    · have hkey : k'.key = k.key := honly _ (mem_of_grammar? (hhas k' hk')).2 hname
      have hsame := (hhas k' hk').symm.trans (hkey ▸ hhas k (has_of_reference (fits_of_mem_nodes hmem) hk))
      exact Option.some.inj hsame

/-- The grammar under `a` refers to the one under `b`, which declares a scope of its own or the same one. -/
def hostSet (declared : String) : GrammarSet :=
  [("a", { scopeName := "x", patterns := [{ reference := some "b" }] }),
    ("b", { scopeName := declared, patterns := [{ pattern := some "m" }] })]

def hostLibrary (declared : String) : Library :=
  ⟨hostSet declared, ⟨"a", { scopeName := "x", patterns := [{ reference := some "b" }] }⟩⟩

theorem root_of_reference_apart :
    ∃ g root k', compile "a" (hostSet "y") .standard = .ok g ∧
      (PatternItem.reference "b").ruleId? (hostLibrary "y") (hostLibrary "y").base.surroundings = some root ∧
      g.rule? root = some (.container ((Node.grammar k').ruleIds (hostLibrary "y"))) ∧ k'.key = "b" := by
  obtain ⟨g, hg⟩ : ∃ g, compile "a" (hostSet "y") .standard = .ok g := by
    have hok : (compile "a" (hostSet "y") .standard).isOk = true := by decide +kernel
    cases hg : compile "a" (hostSet "y") .standard with
    | ok g => exact ⟨g, rfl⟩
    | error e =>
      rw [hg] at hok
      cases hok
  obtain ⟨l, hgrammars, hbase, -, hnodes⟩ := root_of_reference hg
  have hl : l = hostLibrary "y" := by
    obtain ⟨grammars, base⟩ := l
    obtain rfl : grammars = hostSet "y" := hgrammars
    exact congrArg _ (Option.some.inj hbase).symm
  subst hl
  obtain ⟨rest, hrest⟩ := (hostLibrary "y").nodes_head
  obtain ⟨-, hreferences⟩ := hnodes 0 (.grammar (hostLibrary "y").base) (by rw [hrest]; rfl)
  obtain ⟨root, k', hroot, -, -, hrule, -, honly⟩ :=
    hreferences "b" ⟨"b", { scopeName := "y", patterns := [{ pattern := some "m" }] }⟩ List.mem_cons_self rfl
  refine ⟨g, root, k', hg, hroot, hrule, ?_⟩
  have hsame := honly (by decide)
  rw [hsame]

/-- Two grammars declare one scope, and a reference to the second comes to the root of the first. -/
theorem root_of_reference_same :
    .reference "b" ∈ (Node.grammar (hostLibrary "x").base).items ∧
      ((hostLibrary "x").grammar? "b").map (·.grammar.patterns.length) = some 1 ∧
      (PatternItem.reference "b").ruleId? (hostLibrary "x") (hostLibrary "x").base.surroundings = some 0 ∧
      (hostLibrary "x").nodes.map (·.around.grammar.key) = ["a"] ∧
      (compile "a" (hostSet "x") .standard).toOption.map (fun g => g.rules.toList.map Rule.patterns) =
        some [[0]] := by
  refine ⟨List.mem_cons_self, by decide +kernel, by decide +kernel, by decide +kernel, by decide +kernel⟩

end Grammar

end GrammarScopes
