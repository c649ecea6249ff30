import GrammarScopes.Proofs.Grammar.Items
import Mathlib.Data.List.Perm.Subperm

/-!
The list of nodes that are compiled: it has with a node all that the node leads to, since the number of nodes that are
looked at is large enough.
-/

namespace GrammarScopes

open Description

namespace Library

variable {l : Library} {n m : Node} {site : Site} {r : RuleDescription} {o : Origin} {pending found : List Node}

section Size

theorem length_captureList_le (r : RuleDescription) (site : Site) (list : RuleList) (rules : Option RuleTable) :
    (r.captureList site list rules).length ≤ (rules.getD []).length + (r.captures.getD []).length := by
  unfold RuleDescription.captureList
  split
  next => exact (List.length_filterMap_le _ _).trans (Nat.le_add_right _ _)
  next t ht =>
    rw [ht]
    exact (List.length_filterMap_le _ _).trans (Nat.le_add_left _ _)
  next => exact Nat.zero_le _

theorem length_listParts (rules : List RuleDescription) : (listParts rules).length = rules.length := by
  rw [listParts, List.length_map, List.length_zipIdx]

theorem ruleCount_ge (r : RuleDescription) :
    1 + (r.captures.getD []).length + (r.beginCaptures.getD []).length + (r.endCaptures.getD []).length +
      (r.whileCaptures.getD []).length + (r.patterns.getD []).length ≤ ruleCount r := by
  have hpatterns := length_le_listCount (r.patterns.getD [])
  have htable (rules : Option RuleTable) := length_le_entryCount (rules.getD [])
  have hcaptures := htable r.captures
  have hbegin := htable r.beginCaptures
  have hend := htable r.endCaptures
  have hwhile := htable r.whileCaptures
  cases r
  simp only [ruleCount, patternCount_eq, tableCount_eq] at hpatterns hcaptures hbegin hend hwhile ⊢
  omega

theorem length_entries_le (r : RuleDescription) (site : Site) :
    (r.entries site).length ≤ 2 * (r.captures.getD []).length + (r.beginCaptures.getD []).length +
      (r.endCaptures.getD []).length + (r.whileCaptures.getD []).length := by
  have hown := length_captureList_le r site .captures none
  have hbegin := length_captureList_le r site .beginCaptures r.beginCaptures
  have hend := length_captureList_le r site .endCaptures r.endCaptures
  have hwhile := length_captureList_le r site .whileCaptures r.whileCaptures
  unfold RuleDescription.entries RuleDescription.ownEntries RuleDescription.beginEntries RuleDescription.endEntries
    RuleDescription.whileEntries
  split <;> simp only [List.length_append, List.length_nil, Option.getD_none] at * <;> omega

theorem length_items_le (r : RuleDescription) (site : Site) (s : Surroundings) :
    (Node.rule site r s).items.length ≤ (r.patterns.getD []).length + 1 := by
  simp only [Node.items]
  split
  next => exact Nat.zero_le _
  next rules hrules _ =>
    rw [List.length_map, length_listParts, hrules]
    exact Nat.le_succ _
  next =>
    cases r.reference with
    | none => exact Nat.zero_le _
    | some text => exact Nat.le_add_left _ _
  next => exact Nat.zero_le _

theorem length_children_le (h : n.Fits l) : (l.children n).length ≤ 2 * l.nodeCount := by
  have hpatterns : (l.patterns n).length ≤ n.items.length := by
    rw [patterns_eq]
    exact List.length_filterMap_le _ _
  rw [children, List.length_append]
  cases h with
  | @grammar g h =>
    have hcount := ruleCount_lt_nodeCount (mem_all_of_has h)
    have hitems : (Node.grammar g).items.length = g.grammar.patterns.length := by
      rw [Node.items, List.length_map, length_listParts]
    have hlist := length_le_listCount g.grammar.patterns
    have hcaptured : (Node.grammar g).captured.length = 0 := rfl
    unfold GrammarDescription.ruleCount at hcount
    omega
  | @rule site r s h hs =>
    have hcount := ruleCount_lt_nodeCount (mem_all_of_has hs.grammar)
    have hle := h.ruleCount_le
    have hitems := length_items_le r site s
    have hcaptured : (Node.rule site r s).captured.length ≤ (r.entries site).length := List.length_filterMap_le _ _
    have hentries := length_entries_le r site
    have hge := ruleCount_ge r
    omega

end Size

section Induction

variable {P : List Node → List Node → Prop}

theorem reach_induction (hknown : ∀ n pending found, P (n :: pending) found → n.origin ∈ found.map Node.origin →
      P pending found)
    (hnew : ∀ n pending found, P (n :: pending) found → n.origin ∉ found.map Node.origin →
      P (l.children n ++ pending) (n :: found))
    {k : Nat} (h : P pending found) : ∃ rest, P rest (l.reach k pending found) := by
  induction k generalizing pending found with
  | zero => exact ⟨pending, h⟩
  | succ k ih =>
    cases pending with
    | nil => exact ⟨[], h⟩
    | cons n pending =>
      have hmem : found.any (·.origin == n.origin) = true ↔ n.origin ∈ found.map Node.origin := by simp
      unfold Library.reach
      split
      next hany => exact ih (hknown n pending found h (hmem.mp hany))
      next hany => exact ih (hnew n pending found h fun hn => hany (hmem.mpr hn))

/-- What holds at first, and after each node that is looked at, holds when all are listed. -/
theorem nodes_induction (hstart : P [.grammar l.base] [])
    (hknown : ∀ n pending found, P (n :: pending) found → n.origin ∈ found.map Node.origin → P pending found)
    (hnew : ∀ n pending found, P (n :: pending) found → n.origin ∉ found.map Node.origin →
      P (l.children n ++ pending) (n :: found)) : ∃ rest, P rest l.nodes.reverse := by
  rw [nodes, List.reverse_reverse]
  exact reach_induction hknown hnew hstart

end Induction

/-- The nodes found so far are of grammars at hand and tell apart, and what they lead to is found or pending. -/
structure Reaches (l : Library) (pending found : List Node) : Prop where
  fits_pending : ∀ n ∈ pending, n.Fits l
  fits_found : ∀ n ∈ found, n.Fits l
  nodup : (found.map Node.origin).Nodup
  closed : ∀ n ∈ found, ∀ m ∈ l.children n, m.origin ∈ found.map Node.origin ∨ m.origin ∈ pending.map Node.origin

namespace Reaches

theorem start (l : Library) : l.Reaches [.grammar l.base] [] where
  fits_pending n hn := by
    rw [List.mem_singleton.mp hn]
    exact .grammar (.inl rfl)
  fits_found := nofun
  nodup := List.nodup_nil
  closed := nofun

theorem known (h : l.Reaches (n :: pending) found) (hn : n.origin ∈ found.map Node.origin) :
    l.Reaches pending found where
  fits_pending m hm := h.fits_pending m (List.mem_cons_of_mem _ hm)
  fits_found := h.fits_found
  nodup := h.nodup
  closed m hm k hk := by
    rcases h.closed m hm k hk with hfound | hpending
    · exact .inl hfound
    · rcases List.mem_cons.mp hpending with heq | hpending
      · exact .inl (heq ▸ hn)
      · exact .inr hpending

theorem new (h : l.Reaches (n :: pending) found) (hn : n.origin ∉ found.map Node.origin) :
    l.Reaches (l.children n ++ pending) (n :: found) where
  fits_pending m hm := by
    rcases List.mem_append.mp hm with hm | hm
    · exact fits_child (h.fits_pending n List.mem_cons_self) hm
    · exact h.fits_pending m (List.mem_cons_of_mem _ hm)
  fits_found := List.forall_mem_cons.mpr ⟨h.fits_pending n List.mem_cons_self, h.fits_found⟩
  nodup := List.nodup_cons.mpr ⟨hn, h.nodup⟩
  closed m hm k hk := by
    rw [List.map_append, List.mem_append]
    rcases List.mem_cons.mp hm with rfl | hm
    · exact .inr (.inl (List.mem_map_of_mem hk))
    · rcases h.closed m hm k hk with hfound | hpending
      · exact .inl (List.mem_cons_of_mem _ hfound)
      · rcases List.mem_cons.mp hpending with heq | hpending
        · exact .inl (heq ▸ List.mem_cons_self)
        · exact .inr (.inr hpending)

theorem length_found_le (h : l.Reaches pending found) : found.length ≤ l.nodeCount := by
  have hsub : found.map Node.origin ⊆ l.origins := by
    intro o ho
    obtain ⟨n, hn, rfl⟩ := List.mem_map.mp ho
    exact origin_mem (h.fits_found n hn)
  have hle := (h.nodup.subperm hsub).length_le
  rwa [List.length_map, length_origins] at hle

/-- Each node that is found makes fewer of them possible, and adds no more pending ones than that leaves room for. -/
theorem reach {k : Nat} (h : l.Reaches pending found)
    (hk : pending.length + (l.nodeCount - found.length) * (2 * l.nodeCount) ≤ k) :
    l.Reaches [] (l.reach k pending found) := by
  induction k generalizing pending found with
  | zero =>
    have hnil : pending = [] := List.length_eq_zero_iff.mp (by omega)
    rw [hnil] at h
    exact h
  | succ k ih =>
    cases pending with
    | nil => exact h
    | cons n pending =>
      have hknown : found.any (·.origin == n.origin) = true ↔ n.origin ∈ found.map Node.origin := by simp
      rw [List.length_cons] at hk
      unfold Library.reach
      split
      next hany => exact ih (h.known (hknown.mp hany)) (by omega)
      next hany =>
        have hnew := h.new (fun hn => hany (hknown.mpr hn))
        refine ih hnew ?_
        have hle := hnew.length_found_le
        have hchildren := length_children_le (h.fits_pending n List.mem_cons_self)
        rw [List.length_cons] at hle
        obtain ⟨left, hleft⟩ : ∃ left, l.nodeCount - found.length = left + 1 :=
          ⟨l.nodeCount - found.length - 1, by omega⟩
        have hrest : l.nodeCount - (n :: found).length = left := by
          rw [List.length_cons]
          omega
        rw [hleft, Nat.succ_mul] at hk
        rw [hrest, List.length_append]
        omega

theorem nodes (l : Library) : l.Reaches [] l.nodes.reverse := by
  rw [Library.nodes, List.reverse_reverse]
  refine (start l).reach ?_
  rw [reachLimit, List.length_singleton, List.length_nil, Nat.sub_zero, Nat.add_mul, Nat.mul_add]
  omega

end Reaches

theorem fits_of_mem_nodes (h : n ∈ l.nodes) : n.Fits l := (Reaches.nodes l).fits_found n (List.mem_reverse.mpr h)

theorem exists_number (h : n ∈ l.nodes) (hm : m ∈ l.children n) :
    ∃ id m', number? l.nodes m.origin = some id ∧ l.nodes[id]? = some m' ∧ m'.origin = m.origin := by
  have hfound : m.origin ∈ l.nodes.reverse.map Node.origin := by
    rcases (Reaches.nodes l).closed n (List.mem_reverse.mpr h) m hm with hfound | hpending
    · exact hfound
    · cases hpending
  rw [List.map_reverse, List.mem_reverse] at hfound
  obtain ⟨m', hm', horigin⟩ := List.mem_map.mp hfound
  have hsome : (number? l.nodes m.origin).isSome := by
    rw [number?, List.findIdx?_isSome, List.any_eq_true]
    exact ⟨m', hm', by simpa using horigin⟩
  obtain ⟨id, hid⟩ := Option.isSome_iff_exists.mp hsome
  obtain ⟨hlt, heq, -⟩ := List.findIdx?_eq_some_iff_getElem.mp hid
  exact ⟨id, l.nodes[id], hid, List.getElem?_eq_getElem hlt, eq_of_beq heq⟩

end Library

end GrammarScopes
