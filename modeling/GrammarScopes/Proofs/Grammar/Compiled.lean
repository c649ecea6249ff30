import GrammarScopes.Grammar.Basic

/-!
What a compiled grammar looks like: its root groups other rules, the limit of every region is compiled
from its source, and the rules that may start are those of the scan set.
-/

namespace GrammarScopes

def Rule.region? : Rule → Option Region
  | beginEnd region _ | beginWhile region => some region
  | container _ | single .. => none

def Rule.tables : Rule → List CaptureTable
  | container _ => []
  | single _ _ captures => [captures]
  | beginEnd region _ | beginWhile region => [region.beginCaptures, region.limitCaptures]

namespace Library

theorem reach_suffix (l : Library) (n : Nat) (pending found : List Node) :
    found <:+ l.reach n pending found := by
  induction n generalizing pending found with
  | zero => exact List.suffix_rfl
  | succ n ih =>
    cases pending with
    | nil => exact List.suffix_rfl
    | cons node pending =>
      unfold reach
      split
      · exact ih pending found
      · exact (List.suffix_cons node found).trans (ih _ _)

theorem nodes_head (l : Library) : ∃ rest, l.nodes = .grammar l.base :: rest := by
  have hlimit : 0 < l.reachLimit := Nat.mul_pos (by omega) (by omega)
  obtain ⟨n, hn⟩ := Nat.exists_eq_add_one.mpr hlimit
  obtain ⟨found, hfound⟩ := l.reach_suffix n (l.children (.grammar l.base)) [.grammar l.base]
  refine ⟨found.reverse, ?_⟩
  rw [nodes, hn]
  simp [reach, ← hfound]

theorem region_of_rule {l : Library} {scanner : Scanner} {nodes : List Node} {n : Node}
    {r : Region} (h : (l.rule scanner nodes n).region? = some r) :
    r.limit = .ofSource scanner r.limitSource ∧
      r.hasBackReferences = BackReference.occursIn r.limitSource := by
  cases n with
  | grammar g => cases h
  | rule site d s =>
    unfold rule at h
    dsimp only at h
    split at h <;> cases h <;> exact ⟨rfl, rfl⟩

end Library

namespace Grammar

structure WellFormed (g : Grammar) : Prop where
  root_container : ∃ patterns, g.rule? root = some (.container patterns)
  limit_eq : ∀ {id rule region}, g.rule? id = some rule → rule.region? = some region →
    region.limit = .ofSource g.scanner region.limitSource
  hasBackReferences_eq : ∀ {id rule region}, g.rule? id = some rule →
    rule.region? = some region → region.hasBackReferences = BackReference.occursIn region.limitSource
  scanSet?_eq : ∀ {id set}, g.scanSet? id = some set → set = .ofRule g.scanner g.rules id

theorem scanSet?_ofRules {scope : String} {rules : Array Rule} {scanner : Scanner} {id : RuleId}
    {set : ScanSet} (h : (ofRules scope rules scanner).scanSet? id = some set) :
    set = .ofRule scanner rules id := by
  obtain ⟨t, ht, rfl⟩ := Option.map_eq_some_iff.mp h
  simp only [ofRules, Array.getElem?_map, Option.map_eq_some_iff] at ht
  obtain ⟨i, hi, rfl⟩ := ht
  obtain ⟨hi', rfl⟩ := Array.getElem?_eq_some_iff.mp hi
  rw [Array.getElem_range]
  rfl

theorem compile_eq_ofRules {scope : String} {grammars : GrammarSet} {scanner : Scanner} {g : Grammar}
    (h : compile scope grammars scanner = .ok g) :
    ∃ l : Library, l.grammars = grammars ∧ l.grammar? scope = some l.base ∧
      g = ofRules scope (l.nodes.map (l.rule scanner l.nodes)).toArray scanner := by
  unfold compile at h
  split at h
  next => cases h
  next d hd =>
    refine ⟨⟨grammars, ⟨scope, d⟩⟩, rfl, by rw [Library.grammar?, hd]; rfl, ?_⟩
    unfold Library.compile at h
    dsimp only at h
    split at h
    · cases h
    · cases h
      rfl

theorem compile_nodes {scope : String} {grammars : GrammarSet} {scanner : Scanner} {g : Grammar}
    (h : compile scope grammars scanner = .ok g) :
    ∃ l : Library, l.grammars = grammars ∧ l.grammar? scope = some l.base ∧ g.ruleCount = l.nodes.length ∧
      ∀ id, g.rule? id = l.nodes[id]?.map (l.rule scanner l.nodes) := by
  obtain ⟨l, hgrammars, hbase, rfl⟩ := compile_eq_ofRules h
  exact ⟨l, hgrammars, hbase, by simp [ruleCount, ofRules], fun id => by simp [rule?, ofRules]⟩

theorem compile_eq {scope : String} {grammars : GrammarSet} {scanner : Scanner} {g : Grammar}
    (h : compile scope grammars scanner = .ok g) :
    ∃ l : Library, g = ofRules scope (l.nodes.map (l.rule scanner l.nodes)).toArray scanner := by
  obtain ⟨l, -, -, hg⟩ := compile_eq_ofRules h
  exact ⟨l, hg⟩

theorem exists_scanSet {scope : String} {grammars : GrammarSet} {scanner : Scanner} {g : Grammar}
    (h : compile scope grammars scanner = .ok g) {id : RuleId} (hid : id < g.ruleCount) :
    ∃ set, g.scanSet? id = some set := by
  obtain ⟨l, rfl⟩ := compile_eq h
  have hid : id < l.nodes.length := by simpa [ruleCount, ofRules] using hid
  simp [scanSet?, ofRules, hid]

theorem compile_scopeName {scope : String} {grammars : GrammarSet} {scanner : Scanner}
    {g : Grammar} (h : compile scope grammars scanner = .ok g) : g.scopeName = scope := by
  obtain ⟨l, rfl⟩ := compile_eq h
  rfl

theorem compile_scanner {scope : String} {grammars : GrammarSet} {scanner : Scanner}
    {g : Grammar} (h : compile scope grammars scanner = .ok g) : g.scanner = scanner := by
  obtain ⟨l, rfl⟩ := compile_eq h
  rfl

theorem compile_wellFormed {scope : String} {grammars : GrammarSet} {scanner : Scanner}
    {g : Grammar} (h : compile scope grammars scanner = .ok g) : g.WellFormed := by
  obtain ⟨l, rfl⟩ := compile_eq h
  have hrule {id : RuleId} {r : Rule}
      (hr : (ofRules scope (l.nodes.map (l.rule scanner l.nodes)).toArray scanner).rule? id = some r) :
      ∃ n, l.rule scanner l.nodes n = r := by
    simp only [rule?, ofRules, List.getElem?_toArray, List.getElem?_map, Option.map_eq_some_iff] at hr
    obtain ⟨n, -, hn⟩ := hr
    exact ⟨n, hn⟩
  refine ⟨?_, ?_, ?_, scanSet?_ofRules⟩
  · obtain ⟨rest, hrest⟩ := l.nodes_head
    simp [rule?, ofRules, root, hrest, Library.rule]
  · intro id r region hr hregion
    obtain ⟨n, rfl⟩ := hrule hr
    exact (Library.region_of_rule hregion).1
  · intro id r region hr hregion
    obtain ⟨n, rfl⟩ := hrule hr
    exact (Library.region_of_rule hregion).2

end Grammar

end GrammarScopes
