import GrammarScopes.Proofs.Entries
import GrammarScopes.Proofs.Grammar.Written

/-!
The nodes that a node leads to: the items of its patterns, references and rules, and its captures.  All of them come
from grammars at hand.
-/

namespace GrammarScopes

open Description

namespace Library

def all (l : Library) : List NamedGrammar := l.base :: l.grammars.map fun e => ⟨e.1, e.2⟩

def origins (l : Library) : List Origin :=
  l.all.flatMap fun g => .grammar g.grammar.scopeName :: g.sites.map .rule

theorem nodeCount_eq (l : Library) : l.nodeCount = (l.all.map (·.grammar.ruleCount + 1)).sum := by
  have hfold : ∀ (es : GrammarSet) (n : Nat), es.foldl (fun n g => n + g.2.ruleCount + 1) n =
      n + (es.map (·.2.ruleCount + 1)).sum := by
    intro es
    induction es with
    | nil => exact fun n => rfl
    | cons e es ih =>
      intro n
      rw [List.foldl_cons, ih, List.map_cons, List.sum_cons]
      omega
  rw [nodeCount, hfold, all, List.map_cons, List.sum_cons, List.map_map]
  rfl

theorem length_origins (l : Library) : l.origins.length = l.nodeCount := by
  rw [origins, List.length_flatMap, nodeCount_eq]
  refine congrArg List.sum (List.map_congr_left fun g _ => ?_)
  rw [List.length_cons, List.length_map, g.length_sites]

theorem ruleCount_lt_nodeCount {l : Library} {g : NamedGrammar} (h : g ∈ l.all) :
    g.grammar.ruleCount < l.nodeCount := by
  rw [nodeCount_eq]
  exact Nat.lt_of_succ_le (List.le_sum_of_mem (List.mem_map_of_mem (f := (·.grammar.ruleCount + 1)) h))

end Library

def Library.Has (l : Library) (g : NamedGrammar) : Prop := g = l.base ∨ l.grammar? g.key = some g

structure Surroundings.Fits (l : Library) (s : Surroundings) : Prop where
  grammar : l.Has s.grammar
  written : ∀ rep ∈ s.repositories, ∀ e ∈ rep.rules,
    s.grammar.Writes (rep.owner.within (.entry .repository e.1)) e.2

inductive Node.Fits (l : Library) : Node → Prop
  | grammar {g : NamedGrammar} (h : l.Has g) : Fits l (.grammar g)
  | rule {site : Site} {r : RuleDescription} {s : Surroundings} (h : s.grammar.Writes site r) (hs : s.Fits l) :
      Fits l (.rule site r s)

namespace Library

variable {l : Library} {n m : Node} {g : NamedGrammar} {site : Site} {r : RuleDescription} {s : Surroundings}

theorem mem_of_grammar? {scope : String} (h : l.grammar? scope = some g) :
    g.key = scope ∧ (g.key, g.grammar) ∈ l.grammars := by
  obtain ⟨d, hd, rfl⟩ := Option.map_eq_some_iff.mp h
  obtain ⟨e, he, rfl⟩ := Option.map_eq_some_iff.mp hd
  have hkey : e.1 = scope := by simpa using List.find?_some he
  exact ⟨rfl, hkey ▸ List.mem_of_find?_eq_some he⟩

theorem mem_all_of_has (h : l.Has g) : g ∈ l.all := by
  rcases h with rfl | h
  · exact List.mem_cons_self
  · exact List.mem_cons_of_mem _ (List.mem_map.mpr ⟨_, (mem_of_grammar? h).2, rfl⟩)

theorem fits_surroundings (h : l.Has g) : g.surroundings.Fits l where
  grammar := h
  written rep hrep e he := by
    obtain rfl := List.mem_singleton.mp hrep
    exact .top (p := (.entry .repository e.1, e.2)) (List.mem_append_right _ (List.mem_map_of_mem he))

theorem fits_inside (h : s.grammar.Writes site r) (hs : s.Fits l) : (r.inside site s).Fits l := by
  unfold RuleDescription.inside
  split
  next rules hrules =>
    refine ⟨hs.grammar, fun rep hrep e he => ?_⟩
    rcases List.mem_cons.mp hrep with rfl | hrep
    · have hmem : e ∈ r.table .repository := by
        rw [RuleDescription.table, hrules]
        exact he
      exact .inside h (RuleDescription.mem_parts_of_table hmem)
    · exact hs.written rep hrep e he
  next => exact hs

end Library

/-- An item of the patterns of a node: a reference, or a rule that is written there. -/
inductive PatternItem
  | reference (text : String)
  | rule (n : Node)

namespace PatternItem

def ofPart (site : Site) (s : Surroundings) (p : Place × RuleDescription) : PatternItem :=
  match p.2.reference with
  | some text => reference text
  | none => rule (.rule (site.within p.1) p.2 s)

def node? (l : Library) (s : Surroundings) : PatternItem → Option Node
  | reference text => l.target? s (.parse text)
  | rule n => some n

end PatternItem

namespace Node

/-- What references in the patterns of a node can reach. -/
def around : Node → Surroundings
  | grammar g => g.surroundings
  | rule site r s => r.inside site s

def site : Node → Site
  | grammar g => g.site
  | rule site _ _ => site

def parts : Node → List (Place × RuleDescription)
  | grammar g => g.grammar.parts
  | rule _ r _ => r.parts

/-- The items of the patterns that apply inside a node. -/
def items : Node → List PatternItem
  | grammar g => (listParts g.grammar.patterns).map (.ofPart g.site g.surroundings)
  | rule site r s =>
    match r.shape, r.patterns with
    | .single _, _ => []
    | _, some rules => (listParts rules).map (.ofPart site (r.inside site s))
    | .container, none => (r.reference.map .reference).toList
    | _, none => []

end Node

namespace Library

variable {l : Library} {n m : Node} {g : NamedGrammar} {site : Site} {r : RuleDescription} {s : Surroundings}
  {text : String} {item : PatternItem}

theorem patternNodes_eq (l : Library) (site : Site) (s : Surroundings) (rules : List RuleDescription) :
    l.patternNodes site s rules =
      ((listParts rules).map (PatternItem.ofPart site s)).filterMap (PatternItem.node? l s) := by
  rw [patternNodes, listParts, List.map_map, List.filterMap_map]
  refine List.filterMap_congr fun e _ => ?_
  obtain ⟨r, i⟩ := e
  simp only [patternNode?, Function.comp_apply, PatternItem.ofPart]
  cases r.reference <;> rfl

theorem patterns_eq (l : Library) (n : Node) : l.patterns n = n.items.filterMap (PatternItem.node? l n.around) := by
  cases n with
  | grammar g => exact patternNodes_eq l _ _ _
  | rule site r s =>
    simp only [patterns, inner, Node.items, Node.around]
    cases r.shape with
    | single p => rfl
    | beginWhile | beginEnd =>
      cases r.patterns with
      | none => rfl
      | some rules => exact patternNodes_eq l _ _ _
    | container =>
      cases r.patterns with
      | none =>
        cases r.reference with
        | none => rfl
        | some text => exact ((Entries.filterMap_cons _ _ _).trans (List.append_nil _)).symm
      | some rules => exact patternNodes_eq l _ _ _

section Cases

theorem grammar_inside (r : RuleDescription) (site : Site) (s : Surroundings) :
    (r.inside site s).grammar = s.grammar := by
  unfold RuleDescription.inside
  split <;> rfl

theorem grammar?_key {scope : String} (h : l.grammar? scope = some g) : l.grammar? g.key = some g := by
  rwa [(mem_of_grammar? h).1]

theorem target_cases {reference : Reference} (h : l.target? s reference = some m) :
    (∃ g, (g = s.grammar ∨ l.Has g) ∧ m = .grammar g) ∨
      (∃ key, ∃ rep ∈ s.repositories, named? key rep s = some m) ∨
      ∃ g key, l.grammar? g.key = some g ∧ named? key g.repository g.surroundings = some m := by
  cases reference with
  | named key => exact .inr (.inl ⟨key, List.exists_of_findSome?_eq_some h⟩)
  | self => exact .inl ⟨_, .inl rfl, (Option.some.inj h).symm⟩
  | base => exact .inl ⟨_, .inr (.inl rfl), (Option.some.inj h).symm⟩
  | grammar scope =>
    obtain ⟨g, hg, rfl⟩ := Option.map_eq_some_iff.mp h
    exact .inl ⟨g, .inr (.inr (grammar?_key hg)), rfl⟩
  | ruleOf scope key =>
    obtain ⟨g, hg, h⟩ := Option.bind_eq_some_iff.mp h
    exact .inr (.inr ⟨g, key, grammar?_key hg, h⟩)

/-- An item is a rule that is written in what becomes the node, or a reference of such a rule or of the node. -/
theorem item_eq (hitem : item ∈ n.items) :
    (∃ p ∈ n.parts, item = .rule (.rule (n.site.within p.1) p.2 n.around)) ∨
      ∃ text, item = .reference text ∧ ((∃ p ∈ n.parts, p.2.reference = some text) ∨
        ∃ site r s, n = .rule site r s ∧ r.reference = some text) := by
  have hparts : ∀ {parts : List (Place × RuleDescription)}, parts ⊆ n.parts →
      item ∈ parts.map (.ofPart n.site n.around) →
      (∃ p ∈ n.parts, item = .rule (.rule (n.site.within p.1) p.2 n.around)) ∨
        ∃ text, item = .reference text ∧ ((∃ p ∈ n.parts, p.2.reference = some text) ∨
          ∃ site r s, n = .rule site r s ∧ r.reference = some text) := by
    intro parts hsub hmem
    obtain ⟨p, hp, rfl⟩ := List.mem_map.mp hmem
    cases hr : p.2.reference with
    | none => exact .inl ⟨p, hsub hp, by rw [PatternItem.ofPart, hr]⟩
    | some text => exact .inr ⟨text, by rw [PatternItem.ofPart, hr], .inl ⟨p, hsub hp, hr⟩⟩
  cases n with
  | grammar g => exact hparts (List.subset_append_left _ _) hitem
  | rule site r s =>
    simp only [Node.items] at hitem
    split at hitem
    next => cases hitem
    next rules hrules _ =>
      refine hparts (fun p hp => List.mem_append_left _ ?_) hitem
      rw [hrules]
      exact hp
    next =>
      obtain ⟨text, htext, rfl⟩ := Option.map_eq_some_iff.mp (Option.mem_toList.mp hitem)
      exact .inr ⟨text, rfl, .inr ⟨site, r, s, rfl, htext⟩⟩
    next => cases hitem

theorem mem_captureEntries {list : RuleList} {rules : RuleTable} {e : CaptureEntry}
    (h : e ∈ captureEntries site list rules) :
    ∃ key, (key, e.rule) ∈ rules ∧ e.site = site.within (.entry list key) := by
  obtain ⟨⟨key, r⟩, hmem, he⟩ := List.mem_filterMap.mp h
  obtain ⟨group, -, rfl⟩ := Option.map_eq_some_iff.mp he
  exact ⟨key, hmem, rfl⟩

theorem mem_captureList {list : RuleList} {rules : Option RuleTable} {e : CaptureEntry}
    (hrules : ∀ t, rules = some t → r.table list = t) (h : e ∈ r.captureList site list rules) :
    ∃ p ∈ r.parts, e.rule = p.2 ∧ e.site = site.within p.1 := by
  unfold RuleDescription.captureList at h
  split at h
  next t =>
    obtain ⟨key, hmem, hsite⟩ := mem_captureEntries h
    have hmem : (key, e.rule) ∈ r.table list := hrules t rfl ▸ hmem
    exact ⟨_, RuleDescription.mem_parts_of_table hmem, rfl, hsite⟩
  next t ht =>
    obtain ⟨key, hmem, hsite⟩ := mem_captureEntries h
    have hmem' : (key, e.rule) ∈ r.table .captures := by
      rw [RuleDescription.table, ht]
      exact hmem
    exact ⟨_, RuleDescription.mem_parts_of_table hmem', rfl, hsite⟩
  next => cases h

theorem mem_entries {e : CaptureEntry} (h : e ∈ r.entries site) :
    ∃ p ∈ r.parts, e.rule = p.2 ∧ e.site = site.within p.1 := by
  have hbegin : e ∈ r.beginEntries site → ∃ p ∈ r.parts, e.rule = p.2 ∧ e.site = site.within p.1 :=
    mem_captureList fun t ht => by rw [RuleDescription.table, ht]; rfl
  unfold RuleDescription.entries at h
  split at h
  next =>
    have hnone : ∀ t, (none : Option RuleTable) = some t → r.table .captures = t := by
      intro t ht
      cases ht
    exact mem_captureList hnone h
  next =>
    rcases List.mem_append.mp h with h | h
    · exact hbegin h
    · exact mem_captureList (fun t ht => by rw [RuleDescription.table, ht]; rfl) h
  next =>
    rcases List.mem_append.mp h with h | h
    · exact hbegin h
    · exact mem_captureList (fun t ht => by rw [RuleDescription.table, ht]; rfl) h
  next => cases h

theorem child_cases (h : m ∈ l.children n) :
    (∃ reference, l.target? n.around reference = some m) ∨
      ∃ p ∈ n.parts, m = .rule (n.site.within p.1) p.2 n.around := by
  rcases List.mem_append.mp h with h | h
  · rw [patterns_eq] at h
    obtain ⟨item, hitem, h⟩ := List.mem_filterMap.mp h
    rcases item_eq hitem with ⟨p, hp, rfl⟩ | ⟨text, rfl, -⟩
    · exact .inr ⟨p, hp, (Option.some.inj h).symm⟩
    · exact .inl ⟨_, h⟩
  · cases n with
    | grammar => cases h
    | rule site r s =>
      obtain ⟨e, he, h⟩ := List.mem_filterMap.mp h
      obtain ⟨p, hp, hrule, hsite⟩ := mem_entries he
      unfold CaptureEntry.node? at h
      split at h
      next =>
        cases h
        exact .inr ⟨p, hp, by rw [hrule, hsite]; rfl⟩
      next => cases h

end Cases

section Fitting

theorem fits_around (h : n.Fits l) : n.around.Fits l := by
  cases h with
  | grammar h => exact fits_surroundings h
  | rule h hs => exact fits_inside h hs

theorem fits_named {key : String} {rep : Repository} (hrep : rep ∈ s.repositories) (hs : s.Fits l)
    (h : named? key rep s = some n) : n.Fits l := by
  obtain ⟨r, hr, rfl⟩ := Option.map_eq_some_iff.mp h
  obtain ⟨e, he, rfl⟩ := Option.map_eq_some_iff.mp hr
  have hkey : e.1 = key := by simpa using List.find?_some he
  exact .rule (hkey ▸ hs.written rep hrep e (List.mem_of_find?_eq_some he)) hs

theorem fits_target {reference : Reference} (hs : s.Fits l) (h : l.target? s reference = some n) : n.Fits l := by
  rcases target_cases h with ⟨g, rfl | hg, rfl⟩ | ⟨key, rep, hrep, h⟩ | ⟨g, key, hg, h⟩
  · exact .grammar hs.grammar
  · exact .grammar hg
  · exact fits_named hrep hs h
  · exact fits_named List.mem_cons_self (fits_surroundings (.inr hg)) h

theorem writes_part {p : Place × RuleDescription} (h : n.Fits l) (hp : p ∈ n.parts) :
    n.around.grammar.Writes (n.site.within p.1) p.2 := by
  cases h with
  | grammar => exact .top hp
  | @rule site r s h =>
    rw [Node.around, grammar_inside]
    exact .inside h hp

theorem item_cases (h : n.Fits l) (hitem : item ∈ n.items) :
    ∃ site r, n.around.grammar.Writes site r ∧
      (item = .rule (.rule site r n.around) ∨ ∃ text, item = .reference text ∧ r.reference = some text) := by
  rcases item_eq hitem with ⟨p, hp, heq⟩ | ⟨text, heq, ⟨p, hp, htext⟩ | ⟨site, r, s, rfl, htext⟩⟩
  · exact ⟨_, _, writes_part h hp, .inl heq⟩
  · exact ⟨_, _, writes_part h hp, .inr ⟨text, heq, htext⟩⟩
  · cases h with
    | rule h hs =>
      refine ⟨site, r, ?_, .inr ⟨text, heq, htext⟩⟩
      rw [Node.around, grammar_inside]
      exact h

theorem fits_child (h : n.Fits l) (hm : m ∈ l.children n) : m.Fits l := by
  rcases child_cases hm with ⟨reference, hm⟩ | ⟨p, hp, rfl⟩
  · exact fits_target (fits_around h) hm
  · exact .rule (writes_part h hp) (fits_around h)

theorem origin_mem (h : n.Fits l) : n.origin ∈ l.origins := by
  cases h with
  | grammar h => exact List.mem_flatMap.mpr ⟨_, mem_all_of_has h, List.mem_cons_self⟩
  | rule h hs =>
    refine List.mem_flatMap.mpr ⟨_, mem_all_of_has hs.grammar, ?_⟩
    exact List.mem_cons_of_mem _ (List.mem_map_of_mem h.mem_sites)

end Fitting

end Library

end GrammarScopes
