import GrammarScopes.Proofs.Except
import GrammarScopes.Proofs.Grammar.Compiled
import GrammarScopes.Proofs.Grammar.RuleView
import GrammarScopes.Proofs.Grammar.Surroundings

/-!
Compiled grammars and what they are compiled from, where no rule has a repository of its own.  Each
compiled rule is what is written at one place, and no two of them come from the same place; so a compiled
grammar, in which every place is compiled once, is the one in which every reference is followed anew.
-/

namespace GrammarScopes

namespace GrammarDescription

/-- No rule of a grammar has a repository of its own. -/
def Flat (g : GrammarDescription) : Prop :=
  ∀ steps r, steps ≠ [] → g.at? steps = some r → r.repository = none

theorem flat_of_all {g : GrammarDescription} (h : g.rules.all fun e => e.1.isEmpty || e.2.repository.isNone) :
    g.Flat := by
  intro steps r hsteps hr
  have hflat := List.all_eq_true.mp h _ (mem_rules_of_at? hr)
  simpa [hsteps] using hflat

end GrammarDescription

/-- The grammars of a set are stored under the scopes that they declare, and their rules have no repositories. -/
structure GrammarSet.Plain (grammars : GrammarSet) : Prop where
  scopeName : ∀ e ∈ grammars, e.2.scopeName = e.1
  ordered : ∀ e ∈ grammars, e.2.Ordered
  flat : ∀ e ∈ grammars, e.2.Flat

theorem GrammarSet.plain_of_all {grammars : GrammarSet} (h : grammars.all fun e =>
    e.2.scopeName == e.1 && e.2.isOrdered &&
      e.2.rules.all fun e => e.1.isEmpty || e.2.repository.isNone) : grammars.Plain := by
  have hall : ∀ e ∈ grammars, (e.2.scopeName = e.1 ∧ e.2.isOrdered) ∧
      e.2.rules.all fun e => e.1.isEmpty || e.2.repository.isNone := by
    intro e he
    simpa only [Bool.and_eq_true, beq_iff_eq] using List.all_eq_true.mp h e he
  exact ⟨fun e he => (hall e he).1.1, fun e he => GrammarDescription.ordered_of_isOrdered (hall e he).1.2,
    fun e he => GrammarDescription.flat_of_all (hall e he).2⟩

namespace RuleDescription

variable (grammars : GrammarSet) (base : String) (scanner : Scanner) (site : Site)

theorem view_eq (r : RuleDescription) : r.view grammars base scanner site =
    match r.shape with
    | .single p => .single (r.name.map .ofText) p (slots site .captures (r.captures.getD []))
    | .beginWhile b w =>
      .beginWhile (regionView grammars base scanner site r b w (slotsOr site r .whileCaptures r.whileCaptures))
    | .beginEnd b e =>
      .beginEnd (regionView grammars base scanner site r b e (slotsOr site r .endCaptures r.endCaptures))
        (r.applyEndPatternLast.any Switch.isSet)
    | .container =>
      match r.patterns, r.reference with
      | some rules, _ => .container (itemOrigins grammars base site rules)
      | none, some text => .container ((Reference.parse text).origin? grammars base site.grammar).toList
      | none, none => .container [] := by
  unfold view shape
  cases r.pattern with
  | some p => rfl
  | none =>
    cases r.beginPattern with
    | none => rfl
    | some b => cases r.whilePattern <;> rfl

end RuleDescription

namespace Library

variable {l : Library} {n m : Node} {k : NamedGrammar} {r : RuleDescription} {steps : List Place}
  {scope key : String} {reference : Reference}

inductive Placed (l : Library) : Node → Prop
  | grammar {k : NamedGrammar} (h : l.grammar? k.key = some k) : Placed l (.grammar k)
  | rule {k : NamedGrammar} {steps : List Place} {r : RuleDescription} (h : l.grammar? k.key = some k)
      (hsteps : steps ≠ []) (hr : k.grammar.at? steps = some r) :
      Placed l (.rule ⟨k.key, steps⟩ r k.surroundings)

section Targets

theorem scopeName_eq (hl : l.grammars.Plain) (h : l.grammar? scope = some k) : k.grammar.scopeName = k.key :=
  hl.scopeName _ (mem_of_grammar? h).2

theorem find?_of_grammar? (h : l.grammar? k.key = some k) :
    Dictionary.find? l.grammars k.key = some k.grammar := by
  obtain ⟨g, hg, hk⟩ := Option.map_eq_some_iff.mp h
  rw [hg, ← hk]

theorem origin_named (hk : l.grammar? k.key = some k) (key : String) :
    (named? key k.repository k.surroundings).map Node.origin = namedOrigin? l.grammars k.key key := by
  rw [named?, namedOrigin?, find?_of_grammar? hk, Option.map_map]
  rfl

theorem origin_target (hl : l.grammars.Plain) (hbase : l.grammar? l.base.key = some l.base)
    (hk : l.grammar? k.key = some k) (reference : Reference) :
    (l.target? k.surroundings reference).map Node.origin = reference.origin? l.grammars l.base.key k.key := by
  cases reference with
  | named key =>
    have hsome : l.target? k.surroundings (.named key) = named? key k.repository k.surroundings := by
      simp only [target?, NamedGrammar.surroundings, List.findSome?_cons, List.findSome?_nil]
      cases named? key k.repository ⟨k, [k.repository]⟩ <;> rfl
    rw [hsome]
    exact origin_named hk key
  | self => exact congrArg (some ∘ Origin.grammar) (scopeName_eq hl hk)
  | base => exact congrArg (some ∘ Origin.grammar) (scopeName_eq hl hbase)
  | grammar scope =>
    rw [target?, Reference.origin?, Option.map_map]
    cases hs : l.grammar? scope with
    | none =>
      rw [Option.map_eq_none_iff.mp hs]
      rfl
    | some k' =>
      obtain ⟨g, hg, rfl⟩ := Option.map_eq_some_iff.mp hs
      rw [hg]
      exact congrArg (some ∘ Origin.grammar) (scopeName_eq hl hs)
  | ruleOf scope key =>
    rw [target?, Reference.origin?]
    cases hs : l.grammar? scope with
    | none =>
      rw [namedOrigin?, Option.map_eq_none_iff.mp hs]
      rfl
    | some k' =>
      have hkey := (mem_of_grammar? hs).1
      subst hkey
      exact origin_named hs key

end Targets

section Items

theorem origins_patterns (hl : l.grammars.Plain) (hbase : l.grammar? l.base.key = some l.base)
    (hk : l.grammar? k.key = some k) (steps : List Place) (rules : List RuleDescription) :
    (l.patternNodes ⟨k.key, steps⟩ k.surroundings rules).map Node.origin =
      RuleDescription.itemOrigins l.grammars l.base.key ⟨k.key, steps⟩ rules := by
  rw [patternNodes, List.map_filterMap]
  refine List.filterMap_congr fun e _ => ?_
  dsimp only [patternNode?]
  cases e.1.reference with
  | none => rfl
  | some text => exact origin_target hl hbase hk (.parse text)

theorem inside_eq (hl : l.grammars.Plain) (hk : l.grammar? k.key = some k) (hsteps : steps ≠ [])
    (hr : k.grammar.at? steps = some r) (site : Site) (s : Surroundings) : r.inside site s = s := by
  rw [RuleDescription.inside, hl.flat _ (mem_of_grammar? hk).2 _ _ hsteps hr]

/-- Where no rule has a repository, the only repository around a rule is that of the grammar. -/
theorem surroundings_eq {s : Surroundings} {found : List Origin} (hl : l.grammars.Plain)
    (hs : s.Chained l found) (hsub : (s.grammar.enclosing steps).Sublist s.repositories) :
    s = s.grammar.surroundings := by
  have hall : ∀ rep ∈ s.repositories, rep = s.grammar.repository := by
    intro rep hrep
    obtain ⟨steps, hat, -, -⟩ := hs.owned rep hrep
    obtain ⟨r, hr, hrules, -⟩ := NamedGrammar.repositoryAt?_eq_some hat
    have hsteps : steps = [] := by
      by_contra hne
      rw [hl.flat _ (mem_of_grammar? hs.grammar).2 _ _ hne hr] at hrules
      cases hrules
    rw [hsteps] at hat
    exact (Option.some.inj hat).symm
  have hmem := hsub.subset (s.grammar.repository_mem_enclosing steps)
  have hone : s.repositories.length = 1 := by
    have hsubset : s.repositories ⊆ [s.grammar.repository] :=
      fun rep hrep => List.mem_singleton.mpr (hall rep hrep)
    exact le_antisymm (hs.nodup.of_map.subperm hsubset).length_le (List.length_pos_of_mem hmem)
  obtain ⟨grammar, repositories⟩ := s
  obtain ⟨rep, rfl⟩ := List.length_eq_one_iff.mp hone
  rw [NamedGrammar.surroundings, List.mem_singleton.mp hmem]

theorem placed_of_mem_nodes (hl : l.grammars.Plain) (hbase : l.grammar? l.base.key = some l.base) :
    ∀ n ∈ l.nodes, l.Placed n := by
  intro n hn
  obtain ⟨found, -, h⟩ := chained_of_mem_nodes hl.ordered hbase n hn
  cases h with
  | grammar hk => exact .grammar hk
  | rule hs hr hsub =>
    rw [surroundings_eq hl hs hsub]
    exact .rule hs.grammar (List.cons_ne_nil _ _) hr

end Items

section Views

variable {scanner : Scanner} {nodes : List Node} {f : RuleId → Option Origin} {site : Site}

def Numbered (nodes : List Node) (f : RuleId → Option Origin) (o : Origin) : Prop :=
  ∃ id, number? nodes o = some id ∧ f id = some o

theorem map_numbers {ms : List Node} (hms : ∀ m ∈ ms, Numbered nodes f m.origin) :
    (ms.filterMap fun m => number? nodes m.origin).map f = (ms.map Node.origin).map some := by
  induction ms with
  | nil => rfl
  | cons m ms ih =>
    obtain ⟨⟨id, hid, hf⟩, hms⟩ := List.forall_mem_cons.mp hms
    simp only [List.filterMap_cons, hid, List.map_cons, ih hms, hf]

theorem view_captureEntries {list : RuleList} {rules : RuleTable}
    (h : ∀ e ∈ captureEntries site list rules, e.rule.patterns.isSome → Numbered nodes f (.rule e.site)) :
    CaptureSlots.map f (CaptureTable.view (CaptureEntry.toTable nodes (captureEntries site list rules))) =
      CaptureSlots.map some (RuleDescription.slots site list rules) := by
  funext group
  have hgroup : ∀ e : String × RuleDescription,
      (((Text.word? e.1.toList).map fun n => (⟨n, site.within (.entry list e.1), e.2⟩ : CaptureEntry)).any
        fun e => e.group == group) = (Text.word? e.1.toList == some group) := by
    intro e
    cases Text.word? e.1.toList <;> rfl
  simp only [CaptureSlots.map, CaptureTable.view, CaptureTable.rule?, CaptureEntry.toTable, captureEntries,
    RuleDescription.slots, ← List.map_reverse, ← List.filterMap_reverse, List.find?_map, List.find?_filterMap,
    Function.comp_def, hgroup]
  cases hfind : rules.reverse.find? fun e => Text.word? e.1.toList == some group with
  | none => rfl
  | some e =>
    have hword : Text.word? e.1.toList = some group := by simpa using List.find?_some hfind
    have hmem : e ∈ rules := List.mem_reverse.mp (List.mem_of_find?_eq_some hfind)
    have hentry : (⟨group, site.within (.entry list e.1), e.2⟩ : CaptureEntry) ∈ captureEntries site list rules :=
      List.mem_filterMap.mpr ⟨e, hmem, congrArg (Option.map _) hword⟩
    simp only [Option.bind_some, hword, Option.map_some, CaptureEntry.toRule, CaptureRule.view, CaptureView.map]
    cases hpatterns : e.2.patterns.isSome with
    | false => rfl
    | true =>
      obtain ⟨id, hid, hf⟩ := h _ hentry hpatterns
      simp only [if_true, hid, Option.map_some, hf]

theorem view_captureList {list : RuleList} {rules : Option RuleTable}
    (h : ∀ e ∈ r.captureList site list rules, e.rule.patterns.isSome → Numbered nodes f (.rule e.site)) :
    CaptureSlots.map f (CaptureTable.view (CaptureEntry.toTable nodes (r.captureList site list rules))) =
      CaptureSlots.map some (RuleDescription.slotsOr site r list rules) := by
  unfold RuleDescription.captureList RuleDescription.slotsOr at *
  cases rules with
  | some rules => exact view_captureEntries h
  | none =>
    cases hcaptures : r.captures with
    | some rules =>
      rw [hcaptures] at h
      exact view_captureEntries h
    | none =>
      have hnil : ∀ e ∈ captureEntries site .captures [], e.rule.patterns.isSome →
          Numbered nodes f (.rule e.site) :=
        fun e he => absurd he List.not_mem_nil
      exact view_captureEntries hnil

theorem view_region {beginPattern limit : String} {limitEntries : List CaptureEntry} {patterns : List RuleId}
    {limitSlots : CaptureSlots Origin}
    (hbegin : ∀ e ∈ r.beginEntries site, e.rule.patterns.isSome → Numbered nodes f (.rule e.site))
    (hlimit : CaptureSlots.map f (CaptureTable.view (CaptureEntry.toTable nodes limitEntries)) =
      CaptureSlots.map some limitSlots)
    (hpatterns : patterns.map f =
      (RuleDescription.itemOrigins l.grammars l.base.key site (r.patterns.getD [])).map some) :
    (region scanner nodes r site beginPattern limit limitEntries patterns).view.map f =
      (RuleDescription.regionView l.grammars l.base.key scanner site r beginPattern limit limitSlots).map some := by
  simp only [region, Region.view, RegionView.map, RuleDescription.regionView, hpatterns, hlimit,
    RuleDescription.beginEntries, view_captureList hbegin]

theorem inner_eq_patternNodes {s : Surroundings}
    (hshape : (∃ b w, r.shape = .beginWhile b w) ∨ ∃ b e, r.shape = .beginEnd b e) :
    l.inner site r s = l.patternNodes site s (r.patterns.getD []) := by
  unfold inner
  rcases hshape with ⟨b, w, hshape⟩ | ⟨b, e, hshape⟩ <;> rw [hshape] <;> cases r.patterns <;> rfl

theorem origins_container (hl : l.grammars.Plain) (hbase : l.grammar? l.base.key = some l.base)
    (hk : l.grammar? k.key = some k) (hshape : r.shape = .container) :
    RuleView.container ((l.inner ⟨k.key, steps⟩ r k.surroundings).map Node.origin) =
      match r.patterns, r.reference with
      | some rules, _ => .container (RuleDescription.itemOrigins l.grammars l.base.key ⟨k.key, steps⟩ rules)
      | none, some text => .container ((Reference.parse text).origin? l.grammars l.base.key k.key).toList
      | none, none => .container [] := by
  unfold inner
  rw [hshape]
  cases r.patterns with
  | some rules => exact congrArg RuleView.container (origins_patterns hl hbase hk steps rules)
  | none =>
    cases r.reference with
    | none => rfl
    | some text =>
      refine congrArg RuleView.container ?_
      rw [Option.bind_some, ← origin_target hl hbase hk]
      cases l.target? k.surroundings (.parse text) <;> rfl

theorem view_rule (scanner : Scanner) (hl : l.grammars.Plain) (hbase : l.grammar? l.base.key = some l.base)
    (hn : l.Placed n) (hchildren : ∀ m ∈ l.children n, Numbered nodes f m.origin) :
    ∃ v, n.origin.view? l.grammars l.base.key scanner = some v ∧
      (l.rule scanner nodes n).view.map f = v.map some := by
  have hpatterns := map_numbers fun m hm => hchildren m (List.mem_append_left _ hm)
  cases hn with
  | @grammar k hk =>
    have horigin : (Node.grammar k).origin = .grammar k.key := congrArg Origin.grammar (scopeName_eq hl hk)
    refine ⟨k.grammar.body.view l.grammars l.base.key scanner ⟨k.key, []⟩, ?_, ?_⟩
    · rw [horigin, Origin.view?, Origin.description?]
      rw [Origin.site, find?_of_grammar? hk]
      rfl
    · refine congrArg RuleView.container (hpatterns.trans (congrArg _ ?_))
      exact origins_patterns hl hbase hk [] k.grammar.patterns
  | @rule k steps r hk hsteps hr =>
    have hinside := inside_eq hl hk hsteps hr ⟨k.key, steps⟩ k.surroundings
    have hcaptured : ∀ e ∈ r.entries ⟨k.key, steps⟩, e.rule.patterns.isSome →
        Numbered nodes f (.rule e.site) := by
      intro e he hsome
      refine hchildren (.rule e.site e.rule k.surroundings) (List.mem_append_right _ ?_)
      refine List.mem_filterMap.mpr ⟨e, he, ?_⟩
      rw [hinside, CaptureEntry.node?, if_pos hsome]
    refine ⟨r.view l.grammars l.base.key scanner ⟨k.key, steps⟩, ?_, ?_⟩
    · rw [Origin.view?, Origin.description?, Node.origin, Origin.site, find?_of_grammar? hk, Option.bind_some, hr]
      rfl
    · rw [patterns, hinside] at hpatterns
      rw [RuleDescription.view_eq]
      unfold rule
      dsimp only
      rw [patterns, hinside]
      cases hshape : r.shape with
      | single p =>
        rw [RuleDescription.entries, hshape] at hcaptured
        exact congrArg (RuleView.single _ p) (view_captureList hcaptured)
      | beginWhile b w =>
        rw [RuleDescription.entries, hshape] at hcaptured
        obtain ⟨hfirst, hsecond⟩ := List.forall_mem_append.mp hcaptured
        rw [inner_eq_patternNodes (.inl ⟨b, w, hshape⟩)] at hpatterns ⊢
        rw [origins_patterns hl hbase hk] at hpatterns
        exact congrArg RuleView.beginWhile (view_region hfirst (view_captureList hsecond) hpatterns)
      | beginEnd b e =>
        rw [RuleDescription.entries, hshape] at hcaptured
        obtain ⟨hfirst, hsecond⟩ := List.forall_mem_append.mp hcaptured
        rw [inner_eq_patternNodes (.inr ⟨b, e, hshape⟩)] at hpatterns ⊢
        rw [origins_patterns hl hbase hk] at hpatterns
        exact congrArg (RuleView.beginEnd · _) (view_region hfirst (view_captureList hsecond) hpatterns)
      | container =>
        exact (congrArg RuleView.container hpatterns).trans
          (congrArg (RuleView.map some) (origins_container hl hbase hk hshape))

end Views

end Library

namespace Grammar

open Library

variable {scope : String} {grammars : GrammarSet} {scanner : Scanner} {g : Grammar} {places : List Origin}

theorem unfold_eq (hlength : places.length = g.ruleCount)
    (hviews : ∀ id o, places[id]? = some o → ∃ rule view, g.rule? id = some rule ∧
      o.view? grammars scope scanner = some view ∧ rule.view.map (places[·]?) = view.map some)
    (depth : Nat) (id : RuleId) :
    g.unfold depth id = places[id]?.elim .cut (Origin.unfold grammars scope scanner depth) := by
  induction depth generalizing id with
  | zero => cases places[id]? <;> rfl
  | succ depth ih =>
    cases hid : places[id]? with
    | none =>
      have hrule : g.rule? id = none := by
        have hle := List.getElem?_eq_none_iff.mp hid
        rw [hlength] at hle
        exact Array.getElem?_eq_none_iff.mpr hle
      rw [unfold, hrule]
      rfl
    | some o =>
      obtain ⟨rule, view, hrule, hview, hmap⟩ := hviews id o hid
      -- one level down both go on with the places that the references have in common
      have hnode := congrArg (RuleView.map (Option.elim · .cut (Origin.unfold grammars scope scanner depth))) hmap
      rw [RuleView.map_map, RuleView.map_map] at hnode
      rw [unfold, hrule, Option.elim_some, Origin.unfold, hview]
      exact congrArg RuleTree.node ((congrArg (rule.view.map ·) (funext ih)).trans hnode)

/-- Each rule of a compiled grammar is what is written at one place, the root what is written around the rules of
the grammar of the compiled scope, and no two are written at the same place.  So all references may as well be
followed anew wherever they occur. -/
theorem rules_as_written (hgrammars : grammars.Plain) (h : compile scope grammars scanner = .ok g) :
    ∃ places : List Origin, places.Nodup ∧ places.length = g.ruleCount ∧ places[root]? = some (.grammar scope) ∧
      (∀ id o, places[id]? = some o → ∃ rule view, g.rule? id = some rule ∧
        o.view? grammars scope scanner = some view ∧ rule.view.map (places[·]?) = view.map some) ∧
      ∀ depth, g.unfold depth root = Origin.unfold grammars scope scanner depth (.grammar scope) := by
  -- the places are those of the nodes that are listed, in their order
  obtain ⟨l, rfl, hscope, hcount, hrules⟩ := compile_nodes h
  have hbase := grammar?_key hscope
  obtain ⟨rest, hrest⟩ := l.nodes_head
  have hkey : l.base.key = scope := (mem_of_grammar? hscope).1
  have hroot : (l.nodes.map Node.origin)[root]? = some (.grammar scope) := by
    rw [hrest, ← hkey, ← scopeName_eq hgrammars hscope]
    rfl
  have hlength : (l.nodes.map Node.origin).length = g.ruleCount := by rw [List.length_map, hcount]
  have hnodup : (l.nodes.map Node.origin).Nodup := by
    have hfound := (Reaches.nodes l).nodup
    rwa [List.map_reverse, List.nodup_reverse] at hfound
  have hviews : ∀ id o, (l.nodes.map Node.origin)[id]? = some o → ∃ rule view, g.rule? id = some rule ∧
      o.view? l.grammars scope scanner = some view ∧
      rule.view.map ((l.nodes.map Node.origin)[·]?) = view.map some := by
    intro id o ho
    rw [List.getElem?_map] at ho
    obtain ⟨n, hn, rfl⟩ := Option.map_eq_some_iff.mp ho
    have hmem := List.mem_of_getElem? hn
    have hnumbered : ∀ m ∈ l.children n, Numbered l.nodes ((l.nodes.map Node.origin)[·]?) m.origin := by
      intro m hm
      obtain ⟨id', m', hid', hm', horigin⟩ := exists_number hmem hm
      refine ⟨id', hid', ?_⟩
      beta_reduce
      rw [List.getElem?_map, hm', ← horigin]
      rfl
    obtain ⟨view, hview, hmap⟩ := view_rule scanner hgrammars hbase
      (placed_of_mem_nodes hgrammars hbase n hmem) hnumbered
    exact ⟨_, view, by rw [hrules, hn]; rfl, hkey ▸ hview, hmap⟩
  refine ⟨l.nodes.map Node.origin, hnodup, hlength, hroot, hviews, fun depth => ?_⟩
  rw [unfold_eq hlength hviews, hroot]
  rfl

def blockRule : RuleDescription where
  beginPattern := some "\\((x)"
  endPattern := some "\\)"
  captures := some [("1", { patterns := some [{ reference := some "$base" }] })]
  patterns := some [{ reference := some "#block" }, { reference := some "#none" }]

def groupRule : RuleDescription where
  pattern := some "(x)"
  captures := some [("01", { name := some "a", patterns := some [] }), ("1", { name := some "b" })]

def mutualSet : GrammarSet :=
  [("guest", { scopeName := "guest", patterns := [groupRule, { reference := some "host#block" }] }),
    ("host",
      { scopeName := "host", patterns := [{ reference := some "guest" }],
        repository := [("block", blockRule)] })]

theorem rules_as_written_mutual :
    GrammarSet.Plain mutualSet ∧ ∃ g, compile "host" mutualSet .standard = .ok g ∧ g.ruleCount = 6 ∧
      ∃ places : List Origin, places.Nodup ∧ places.length = 6 ∧ places[root]? = some (.grammar "host") ∧
        ∀ depth, g.unfold depth root = Origin.unfold mutualSet "host" .standard depth (.grammar "host") := by
  have hplain : GrammarSet.Plain mutualSet := GrammarSet.plain_of_all (by decide +kernel)
  obtain ⟨g, hg, hcount⟩ : ∃ g, compile "host" mutualSet .standard = .ok g ∧ g.ruleCount = 6 := by
    have hcount : (compile "host" mutualSet .standard).toOption.map ruleCount = some 6 := by decide +kernel
    obtain ⟨g, hg, hcount⟩ := Option.map_eq_some_iff.mp hcount
    exact ⟨g, ok_of_toOption hg, hcount⟩
  obtain ⟨places, hnodup, hlength, hroot, -, hunfold⟩ := rules_as_written hplain hg
  exact ⟨hplain, g, hg, hcount, places, hnodup, hlength.trans hcount, hroot, hunfold⟩

end Grammar

end GrammarScopes
