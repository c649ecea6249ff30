import GrammarScopes.Proofs.Grammar.CaptureTables
import GrammarScopes.Proofs.Grammar.Reach

/-!
Compiling as a recursion.  A node that has no place yet gets the next one, which stays open while everything that the
node leads to is compiled, and then takes its rule.  However nodes lead to each other, the recursion comes to an end;
what it leaves has no open places and is what is compiled from the list of nodes.
-/

namespace GrammarScopes

/-- A place for the rule of a node, open until the rule is compiled. -/
structure Arena.Slot where
  node : Node
  rule : Option Rule

abbrev Arena := List Arena.Slot

namespace Arena

def nodes (a : Arena) : List Node := a.map (·.node)

def origins (a : Arena) : List Origin := a.map (·.node.origin)

def reserve (a : Arena) (n : Node) : Arena := a ++ [⟨n, none⟩]

def fill (a : Arena) (id : RuleId) (rule : Rule) : Arena := a.modify id fun s => { s with rule := some rule }

variable (a : Arena)

theorem map_origin_nodes : a.nodes.map Node.origin = a.origins := List.map_map

theorem length_nodes : a.nodes.length = a.length := List.length_map _

theorem nodes_reserve (n : Node) : (a.reserve n).nodes = a.nodes ++ [n] := by
  simp [reserve, nodes]

theorem nodes_fill (id : RuleId) (rule : Rule) : (a.fill id rule).nodes = a.nodes := by
  refine List.ext_getElem? fun i => ?_
  simp only [fill, nodes, List.getElem?_map, List.getElem?_modify]
  cases a[i]? with
  | none => rfl
  | some s =>
    by_cases hi : id = i <;> simp [hi]

theorem origins_reserve (n : Node) : (a.reserve n).origins = a.origins ++ [n.origin] := by
  simp [reserve, origins]

theorem origins_fill (id : RuleId) (rule : Rule) : (a.fill id rule).origins = a.origins := by
  rw [← map_origin_nodes, nodes_fill, map_origin_nodes]

theorem length_reserve (n : Node) : (a.reserve n).length = a.length + 1 := by
  simp [reserve]

theorem length_fill (id : RuleId) (rule : Rule) : (a.fill id rule).length = a.length := by
  simp [fill]

theorem getElem?_fill (id : RuleId) (rule : Rule) :
    (a.fill id rule)[id]? = a[id]?.map fun s => ⟨s.node, some rule⟩ := by
  simp [fill]

theorem getElem?_fill_ne {id i : RuleId} (h : id ≠ i) (rule : Rule) : (a.fill id rule)[i]? = a[i]? := by
  simp [fill, h]

end Arena

structure Arena.Sound (l : Library) (a : Arena) : Prop where
  fits : ∀ n ∈ a.nodes, n.Fits l
  nodup : a.origins.Nodup

namespace Arena.Sound

variable {l : Library} {a : Arena}

theorem nil (l : Library) : Sound l [] := ⟨nofun, List.nodup_nil⟩

theorem length_le (h : a.Sound l) : a.length ≤ l.nodeCount := by
  have hsub : a.origins ⊆ l.origins := by
    rw [← a.map_origin_nodes]
    intro o ho
    obtain ⟨n, hn, rfl⟩ := List.mem_map.mp ho
    exact Library.origin_mem (h.fits n hn)
  have hle := (h.nodup.subperm hsub).length_le
  rwa [origins, List.length_map, l.length_origins] at hle

theorem reserve (h : a.Sound l) {n : Node} (hn : n.Fits l) (hnew : n.origin ∉ a.origins) : (a.reserve n).Sound l where
  fits := by
    rw [nodes_reserve]
    exact List.forall_mem_append.mpr ⟨h.fits, List.forall_mem_singleton.mpr hn⟩
  nodup := by
    rw [origins_reserve]
    refine List.nodup_append.mpr ⟨h.nodup, List.pairwise_singleton _ _, fun o ho o' ho' heq => hnew ?_⟩
    rwa [← List.mem_singleton.mp ho', ← heq]

theorem fill (h : a.Sound l) (id : RuleId) (rule : Rule) : (a.fill id rule).Sound l where
  fits := by
    rw [nodes_fill]
    exact h.fits
  nodup := by
    rw [origins_fill]
    exact h.nodup

end Arena.Sound

/-- Compiling nodes one after the other, each with what it leads to. -/
inductive Compiles (l : Library) (scanner : Scanner) : Arena → List Node → Arena → Prop
  | done {a : Arena} : Compiles l scanner a [] a
  | known {a a' : Arena} {n : Node} {ns : List Node} (hn : n.origin ∈ a.origins) (h : Compiles l scanner a ns a') :
    Compiles l scanner a (n :: ns) a'
  | new {a b a' : Arena} {n : Node} {ns : List Node} (hn : n.origin ∉ a.origins)
    (hb : Compiles l scanner (a.reserve n) (l.children n) b)
    (h : Compiles l scanner (b.fill a.length (l.rule scanner b.nodes n)) ns a') : Compiles l scanner a (n :: ns) a'

section Numbers

variable {l : Library} {scanner : Scanner} {nodes more : List Node} {n : Node} {o : Origin} {id : RuleId}

theorem number?_lt (h : number? nodes o = some id) : id < nodes.length :=
  (List.findIdx?_eq_some_iff_getElem.mp h).1

theorem number?_append (h : o ∈ nodes.map Node.origin) : number? (nodes ++ more) o = number? nodes o := by
  have hany : nodes.any (·.origin == o) = true := by simpa using h
  rw [number?, number?, List.findIdx?_append, Option.or_of_isSome]
  rwa [List.findIdx?_isSome]

theorem mem_captured {site : Site} {r : RuleDescription} {s : Surroundings} {entries : List CaptureEntry}
    {e : CaptureEntry} (hentries : entries ∈ (Node.rule site r s).captureLists) (he : e ∈ entries)
    (hpatterns : e.rule.patterns.isSome) :
    Node.rule e.site e.rule (r.inside site s) ∈ (Node.rule site r s).captured := by
  refine List.mem_filterMap.mpr ⟨e, ?_, if_pos hpatterns⟩
  rw [← r.flatten_captureLists site]
  exact List.mem_flatten.mpr ⟨entries, hentries, he⟩

/-- A rule can be compiled as soon as all that its node leads to has numbers. -/
theorem rule_append (h : ∀ m ∈ l.children n, m.origin ∈ nodes.map Node.origin) :
    l.rule scanner (nodes ++ more) n = l.rule scanner nodes n := by
  have hnumber : ∀ m ∈ l.children n, number? (nodes ++ more) m.origin = number? nodes m.origin :=
    fun m hm => number?_append (h m hm)
  have hpatterns : (l.patterns n).filterMap (fun m => number? (nodes ++ more) m.origin) =
      (l.patterns n).filterMap fun m => number? nodes m.origin :=
    List.filterMap_congr fun m hm => hnumber m (List.mem_append_left _ hm)
  cases n with
  | grammar g => exact congrArg Rule.container hpatterns
  | rule site r s =>
    have htable : ∀ entries ∈ r.captureLists site,
        CaptureEntry.toTable (nodes ++ more) entries = CaptureEntry.toTable nodes entries := by
      intro entries hentries
      refine List.map_congr_left fun e he => ?_
      by_cases hsome : e.rule.patterns.isSome
      · have hknown : number? (nodes ++ more) (.rule e.site) = number? nodes (.rule e.site) :=
          hnumber _ (List.mem_append_right _ (mem_captured (s := s) hentries he hsome))
        simp only [CaptureEntry.toRule, if_pos hsome, hknown]
      · simp only [CaptureEntry.toRule, if_neg hsome]
    unfold RuleDescription.captureLists at htable
    unfold Library.rule
    rw [hpatterns]
    cases hshape : r.shape with
    | single p =>
      rw [hshape] at htable
      simp only [hshape, htable _ List.mem_cons_self]
    | beginWhile b w =>
      simp only [hshape, List.forall_mem_cons] at htable
      simp only [hshape, Library.region, htable.1, htable.2.1]
    | beginEnd b e =>
      simp only [hshape, List.forall_mem_cons] at htable
      simp only [hshape, Library.region, htable.1, htable.2.1]
    | container => simp only [hshape]

end Numbers

namespace Compiles

variable {l : Library} {scanner : Scanner} {a b a' a'' : Arena} {n : Node} {ns : List Node}

theorem exists_more (h : Compiles l scanner a ns a') : ∃ more, a'.nodes = a.nodes ++ more := by
  induction h with
  | done => exact ⟨[], (List.append_nil _).symm⟩
  | known _ _ ih => exact ih
  | new _ _ _ ihb ih =>
    obtain ⟨more, hmore⟩ := ihb
    obtain ⟨more', hmore'⟩ := ih
    exact ⟨_, by rw [hmore', Arena.nodes_fill, hmore, Arena.nodes_reserve, List.append_assoc, List.append_assoc]⟩

theorem length_le (h : Compiles l scanner a ns a') : a.length ≤ a'.length := by
  obtain ⟨more, hmore⟩ := h.exists_more
  rw [← a.length_nodes, ← a'.length_nodes, hmore, List.length_append]
  exact Nat.le_add_right _ _

theorem origins_subset (h : Compiles l scanner a ns a') : a.origins ⊆ a'.origins := by
  obtain ⟨more, hmore⟩ := h.exists_more
  rw [← a.map_origin_nodes, ← a'.map_origin_nodes, hmore, List.map_append]
  exact List.subset_append_left _ _

theorem mem_origins (h : Compiles l scanner a ns a') : ∀ m ∈ ns, m.origin ∈ a'.origins := by
  induction h with
  | done => exact nofun
  | known hn h ih => exact List.forall_mem_cons.mpr ⟨h.origins_subset hn, ih⟩
  | @new a b a' n ns hn hb h ihb ih =>
    refine List.forall_mem_cons.mpr ⟨h.origins_subset ?_, ih⟩
    rw [Arena.origins_fill]
    refine hb.origins_subset ?_
    rw [Arena.origins_reserve]
    exact List.mem_append_right _ List.mem_cons_self

theorem children_mem (h : Compiles l scanner a ns a') {more : List Node} (hmore : a'.nodes = a.nodes ++ more) :
    ∀ k ∈ more, ∀ m ∈ l.children k, m.origin ∈ a'.origins := by
  induction h generalizing more with
  | done =>
    rw [List.self_eq_append_right.mp hmore]
    exact nofun
  | known _ _ ih => exact ih hmore
  | @new a b a' n ns _ hb h ihb ih =>
    obtain ⟨below, hbelow⟩ := hb.exists_more
    obtain ⟨after, hafter⟩ := h.exists_more
    have hkept : b.origins ⊆ a'.origins := b.origins_fill _ _ ▸ h.origins_subset
    have hsplit : more = n :: below ++ after := by
      rw [Arena.nodes_fill, hbelow, Arena.nodes_reserve, hmore, List.append_assoc, List.append_assoc] at hafter
      exact List.append_cancel_left hafter
    rw [hsplit]
    intro k hk m hm
    rcases List.mem_append.mp hk with hk | hk
    · rcases List.mem_cons.mp hk with rfl | hk
      · exact hkept (hb.mem_origins m hm)
      · exact hkept (ihb hbelow k hk m hm)
    · exact ih hafter k hk m hm

/-- The recursion fills the places that it has added, and changes none that were there. -/
theorem filled (h : Compiles l scanner a ns a') :
    (∀ i < a.length, a'[i]? = a[i]?) ∧
      ∀ i slot, a.length ≤ i → a'[i]? = some slot → slot.rule = some (l.rule scanner a'.nodes slot.node) := by
  induction h with
  | done =>
    refine ⟨fun i _ => rfl, fun i slot hi hslot => ?_⟩
    rw [List.getElem?_eq_none hi] at hslot
    cases hslot
  | known _ _ ih => exact ih
  | @new a b a' n ns hn hb h ihb ih =>
    obtain ⟨hkept, hfilled⟩ := ih
    obtain ⟨hbkept, hbfilled⟩ := ihb
    obtain ⟨more, hmore⟩ := h.exists_more
    obtain ⟨below, hbelow⟩ := hb.exists_more
    rw [Arena.nodes_fill] at hmore
    have hle := hb.length_le
    rw [Arena.length_fill] at hkept hfilled
    rw [Arena.length_reserve] at hbkept hbfilled hle
    -- rules that are in place stay the same when more places are added
    have hrule : ∀ m, (∀ k ∈ l.children m, k.origin ∈ b.origins) →
        l.rule scanner a'.nodes m = l.rule scanner b.nodes m := by
      intro m hm
      rw [hmore]
      exact rule_append (by rwa [Arena.map_origin_nodes])
    constructor
    · intro i hi
      rw [hkept i (by omega), Arena.getElem?_fill_ne _ (Nat.ne_of_gt hi), hbkept i (by omega), Arena.reserve,
        List.getElem?_append_left hi]
    -- the place is the one reserved for the node, one of those below it, or a later one
    · intro i slot hi hslot
      rcases Nat.lt_or_ge i b.length with hlt | hge
      · rw [hkept i hlt] at hslot
        rcases Nat.eq_or_lt_of_le hi with rfl | hi
        · rw [Arena.getElem?_fill, hbkept _ (by omega), Arena.reserve, List.getElem?_concat_length] at hslot
          cases hslot
          rw [hrule n hb.mem_origins]
        · rw [Arena.getElem?_fill_ne _ (Nat.ne_of_lt hi)] at hslot
          have hnode : slot.node ∈ below := by
            have hget : b.nodes[i]? = some slot.node := by rw [Arena.nodes, List.getElem?_map, hslot]; rfl
            rw [hbelow, List.getElem?_append_right (by rw [Arena.length_nodes, Arena.length_reserve]; omega)] at hget
            exact List.mem_of_getElem? hget
          rw [hbfilled i slot (by omega) hslot, hrule _ (hb.children_mem hbelow _ hnode)]
      · exact hfilled i slot hge hslot

theorem rules_eq (h : Compiles l scanner [] ns a') :
    a'.map (·.rule) = (a'.nodes.map (l.rule scanner a'.nodes)).map some := by
  rw [Arena.nodes, List.map_map, List.map_map]
  refine List.map_congr_left fun slot hslot => ?_
  obtain ⟨i, hi⟩ := List.getElem?_of_mem hslot
  exact h.filled.2 i slot (Nat.zero_le _) hi

theorem sound (h : Compiles l scanner a ns a') (ha : a.Sound l) (hns : ∀ n ∈ ns, n.Fits l) : a'.Sound l := by
  induction h with
  | done => exact ha
  | known _ _ ih => exact ih ha fun m hm => hns m (List.mem_cons_of_mem _ hm)
  | new hn _ _ ihb ih =>
    have hfits := hns _ List.mem_cons_self
    have hb := ihb (ha.reserve hfits hn) fun m hm => Library.fits_child hfits hm
    exact ih (hb.fill _ _) fun m hm => hns m (List.mem_cons_of_mem _ hm)

theorem unique (h : Compiles l scanner a ns a') (h' : Compiles l scanner a ns a'') : a' = a'' := by
  induction h generalizing a'' with
  | done =>
    cases h'
    rfl
  | known hn _ ih =>
    cases h' with
    | known _ h' => exact ih h'
    | new hn' => exact absurd hn hn'
  | new hn _ _ ihb ih =>
    cases h' with
    | known hn' => exact absurd hn' hn
    | new _ hb' h' =>
      cases ihb hb'
      exact ih h'

/-- There are no more places than rules and grammars, so the recursion cannot go on for ever. -/
theorem exists_of_room {room : Nat} (hroom : l.nodeCount ≤ a.length + room) (ha : a.Sound l)
    (hns : ∀ n ∈ ns, n.Fits l) : ∃ a', Compiles l scanner a ns a' := by
  induction room using Nat.strong_induction_on generalizing a ns with
  | _ room ihroom =>
    induction ns with
    | nil => exact ⟨a, .done⟩
    | cons n ns ih =>
      obtain ⟨hn, hns⟩ := List.forall_mem_cons.mp hns
      by_cases hknown : n.origin ∈ a.origins
      · obtain ⟨a', h⟩ := ih hns
        exact ⟨a', .known hknown h⟩
      · have hreserved := ha.reserve hn hknown
        have hchildren : ∀ m ∈ l.children n, m.Fits l := fun m hm => Library.fits_child hn hm
        have hfree := hreserved.length_le
        rw [Arena.length_reserve] at hfree
        obtain ⟨b, hb⟩ := ihroom (room - 1) (by omega) (by rw [Arena.length_reserve]; omega) hreserved hchildren
        have hle := hb.length_le
        rw [Arena.length_reserve] at hle
        obtain ⟨a', h⟩ := ihroom (room - 1) (by omega) (by rw [Arena.length_fill]; omega)
          ((hb.sound hreserved hchildren).fill a.length (l.rule scanner b.nodes n)) hns
        exact ⟨a', .new hknown hb h⟩

/-- Looking at one node after the other lists the nodes that the recursion gives places to, in their order. -/
theorem reach_eq (h : Compiles l scanner a ns a') (hns : ∀ n ∈ ns, n.Fits l) :
    ∃ looks, a.length * (2 * l.nodeCount) + looks ≤ ns.length + a'.length * (2 * l.nodeCount) ∧
      ∀ k rest, l.reach (k + looks) (ns ++ rest) a.nodes.reverse = l.reach k rest a'.nodes.reverse := by
  have hany (a : Arena) (n : Node) :
      a.nodes.reverse.any (·.origin == n.origin) = true ↔ n.origin ∈ a.origins := by
    simp [← a.map_origin_nodes]
  induction h with
  | done => exact ⟨0, by simp, fun k rest => rfl⟩
  | @known a a' n ns hn _ ih =>
    obtain ⟨looks, hle, heq⟩ := ih fun m hm => hns m (List.mem_cons_of_mem _ hm)
    refine ⟨looks + 1, by rw [List.length_cons]; omega, fun k rest => ?_⟩
    rw [← Nat.add_assoc, List.cons_append, Library.reach, if_pos ((hany a n).mpr hn), heq]
  | @new a b a' n ns hn hb h ihb ih =>
    have hfits := hns n List.mem_cons_self
    obtain ⟨below, hble, hbeq⟩ := ihb fun m hm => Library.fits_child hfits hm
    obtain ⟨looks, hle, heq⟩ := ih fun m hm => hns m (List.mem_cons_of_mem _ hm)
    have hchildren := Library.length_children_le hfits
    rw [Arena.length_reserve, Nat.succ_mul] at hble
    rw [Arena.length_fill] at hle
    refine ⟨looks + below + 1, by rw [List.length_cons]; omega, fun k rest => ?_⟩
    rw [Arena.nodes_reserve, List.reverse_append, List.reverse_singleton, List.singleton_append] at hbeq
    rw [Arena.nodes_fill] at heq
    rw [← Nat.add_assoc, ← Nat.add_assoc, List.cons_append, Library.reach, if_neg (mt (hany a n).mp hn), hbeq, heq]

end Compiles

end GrammarScopes
