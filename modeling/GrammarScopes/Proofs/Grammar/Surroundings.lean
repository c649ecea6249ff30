import GrammarScopes.Proofs.Grammar.Places
import Mathlib.Data.List.Infix

/-!
What is around the nodes that are compiled.  The repositories around a rule are those of the rules in
which it is written, with those of rules through which it was first referred to between them.
-/

namespace GrammarScopes

namespace NamedGrammar

def repositoryAt? (g : NamedGrammar) (steps : List Place) : Option Repository :=
  ((g.grammar.at? steps).bind (·.repository)).map fun rules => ⟨⟨g.key, steps⟩, rules⟩

def enclosing (g : NamedGrammar) (steps : List Place) : List Repository := steps.tails.filterMap g.repositoryAt?

variable {g : NamedGrammar} {steps : List Place} {rep : Repository}

theorem enclosing_cons (g : NamedGrammar) (p : Place) (steps : List Place) :
    g.enclosing (p :: steps) = (g.repositoryAt? (p :: steps)).toList ++ g.enclosing steps :=
  Entries.filterMap_cons _ _ _

theorem enclosing_of_some {p : Place} (h : g.repositoryAt? (p :: steps) = some rep) :
    g.enclosing (p :: steps) = rep :: g.enclosing steps := by
  rw [enclosing_cons, h]
  rfl

theorem enclosing_of_none {p : Place} (h : g.repositoryAt? (p :: steps) = none) :
    g.enclosing (p :: steps) = g.enclosing steps := by
  rw [enclosing_cons, h]
  rfl

theorem repository_mem_enclosing (g : NamedGrammar) (steps : List Place) : g.repository ∈ g.enclosing steps :=
  List.mem_filterMap.mpr ⟨[], (List.mem_tails _ _).mpr (List.nil_suffix), rfl⟩

theorem repositoryAt?_of_at? {r : RuleDescription} (hr : g.grammar.at? steps = some r) :
    g.repositoryAt? steps = r.repository.map fun rules => ⟨⟨g.key, steps⟩, rules⟩ := by
  rw [repositoryAt?, hr]
  rfl

theorem repositoryAt?_eq_some (h : g.repositoryAt? steps = some rep) :
    ∃ r, g.grammar.at? steps = some r ∧ r.repository = some rep.rules ∧ rep.owner = ⟨g.key, steps⟩ := by
  obtain ⟨rules, hrules, rfl⟩ := Option.map_eq_some_iff.mp h
  obtain ⟨r, hr, hrep⟩ := Option.bind_eq_some_iff.mp hrules
  exact ⟨r, hr, hrep, rfl⟩

end NamedGrammar

/-- The repositories around a node are some of its grammar, each with those around it, and of rules that
have been found. -/
structure Surroundings.Chained (l : Library) (found : List Origin) (s : Surroundings) : Prop where
  grammar : l.grammar? s.grammar.key = some s.grammar
  owned : ∀ rep ∈ s.repositories, ∃ steps, s.grammar.repositoryAt? steps = some rep ∧
    (s.grammar.enclosing steps).Sublist s.repositories ∧ (steps = [] ∨ .rule ⟨s.grammar.key, steps⟩ ∈ found)
  nodup : (s.repositories.map (·.owner)).Nodup

inductive Node.Chained (l : Library) (found : List Origin) : Node → Prop
  | grammar {k : NamedGrammar} (h : l.grammar? k.key = some k) : Chained l found (.grammar k)
  | rule {p : Place} {steps : List Place} {r : RuleDescription} {s : Surroundings} (hs : s.Chained l found)
      (hr : s.grammar.grammar.at? (p :: steps) = some r)
      (hsub : (s.grammar.enclosing steps).Sublist s.repositories) :
      Chained l found (.rule ⟨s.grammar.key, p :: steps⟩ r s)

def Node.steps : Node → List Place
  | grammar _ => []
  | rule site _ _ => site.steps

namespace Library

variable {l : Library} {found : List Origin} {o : Origin} {n m : Node} {k : NamedGrammar} {s : Surroundings}
  {steps : List Place} {key : String} {rep : Repository}

theorem chained_mono (h : s.Chained l found) : s.Chained l (o :: found) where
  grammar := h.grammar
  owned rep hrep := by
    obtain ⟨steps, hat, hsub, hfound⟩ := h.owned rep hrep
    exact ⟨steps, hat, hsub, hfound.imp_right (List.mem_cons_of_mem _)⟩
  nodup := h.nodup

theorem node_chained_mono (h : n.Chained l found) : n.Chained l (o :: found) := by
  cases h with
  | grammar h => exact .grammar h
  | rule hs hr hsub => exact .rule (chained_mono hs) hr hsub

theorem chained_surroundings (hk : l.grammar? k.key = some k) : k.surroundings.Chained l found where
  grammar := hk
  owned rep hrep := by
    rw [List.mem_singleton.mp hrep]
    exact ⟨[], rfl, List.Sublist.refl _, .inl rfl⟩
  nodup := List.nodup_singleton _

theorem chained_named (hs : s.Chained l found) (hrep : rep ∈ s.repositories) (h : named? key rep s = some m) :
    m.Chained l found := by
  obtain ⟨steps, hat, hsub, -⟩ := hs.owned rep hrep
  obtain ⟨r, hr, hrules, howner⟩ := NamedGrammar.repositoryAt?_eq_some hat
  obtain ⟨rule, hrule, rfl⟩ := Option.map_eq_some_iff.mp h
  rw [howner]
  refine .rule hs ?_ hsub
  rw [GrammarDescription.at?, hr, Option.bind_some, RuleDescription.part?, RuleDescription.table, hrules]
  exact hrule

theorem chained_target {reference : Reference} (hbase : l.grammar? l.base.key = some l.base)
    (hs : s.Chained l found) (h : l.target? s reference = some m) : m.Chained l found := by
  rcases target_cases h with ⟨k, rfl | rfl | hk, rfl⟩ | ⟨key, rep, hrep, h⟩ | ⟨k, key, hk, h⟩
  · exact .grammar hs.grammar
  · exact .grammar hbase
  · exact .grammar hk
  · exact chained_named hs hrep h
  · exact chained_named (chained_surroundings hk) List.mem_cons_self h

theorem at?_of_chained (h : n.Chained l found) : l.grammar? n.around.grammar.key = some n.around.grammar ∧
    n.site = ⟨n.around.grammar.key, n.steps⟩ ∧
      ∃ r, n.around.grammar.grammar.at? n.steps = some r ∧ n.parts ⊆ r.parts := by
  cases h with
  | @grammar k hk => exact ⟨hk, rfl, k.grammar.body, rfl, fun p hp => GrammarDescription.mem_body_parts.mpr hp⟩
  | @rule p steps r s hs hr hsub =>
    have hgrammar : (Node.rule ⟨s.grammar.key, p :: steps⟩ r s).around.grammar = s.grammar := grammar_inside _ _ _
    rw [hgrammar]
    exact ⟨hs.grammar, rfl, r, hr, List.Subset.refl _⟩

/-- A rule that has not been found before is no owner of a repository around it. -/
theorem chained_cons {p : Place} {steps : List Place} {rep : Repository} (hs : s.Chained l found)
    (hat : s.grammar.repositoryAt? (p :: steps) = some rep)
    (hsub : (s.grammar.enclosing (p :: steps)).Sublist (rep :: s.repositories))
    (hnew : .rule ⟨s.grammar.key, p :: steps⟩ ∉ found) :
    Surroundings.Chained l (.rule ⟨s.grammar.key, p :: steps⟩ :: found) ⟨s.grammar, rep :: s.repositories⟩ where
  grammar := hs.grammar
  owned rep' hrep := by
    rcases List.mem_cons.mp hrep with rfl | hrep
    · exact ⟨p :: steps, hat, hsub, .inr List.mem_cons_self⟩
    · obtain ⟨steps', hat, hsub, hfound⟩ := hs.owned rep' hrep
      exact ⟨steps', hat, hsub.cons _, hfound.imp_right (List.mem_cons_of_mem _)⟩
  nodup := by
    refine List.nodup_cons.mpr ⟨fun hmem => ?_, hs.nodup⟩
    obtain ⟨rep', hrep, howner⟩ := List.mem_map.mp hmem
    obtain ⟨steps', hat', -, hfound⟩ := hs.owned rep' hrep
    obtain ⟨-, -, -, howner₁⟩ := NamedGrammar.repositoryAt?_eq_some hat
    obtain ⟨-, -, -, howner₂⟩ := NamedGrammar.repositoryAt?_eq_some hat'
    have hsteps : steps' = p :: steps :=
      (Site.mk.inj (howner₂.symm.trans (howner.trans howner₁))).2
    rcases hfound with hnil | hfound
    · exact absurd (hsteps.symm.trans hnil) (List.cons_ne_nil _ _)
    · exact hnew (hsteps ▸ hfound)

theorem chained_around (h : n.Chained l found) (hnew : n.origin ∉ found) :
    n.around.Chained l (n.origin :: found) ∧
      (n.around.grammar.enclosing n.steps).Sublist n.around.repositories := by
  cases h with
  | grammar hk => exact ⟨chained_surroundings hk, List.Sublist.refl _⟩
  | @rule p steps r s hs hr hsub =>
    have hown := NamedGrammar.repositoryAt?_of_at? hr
    rw [Node.around, Node.steps, grammar_inside]
    unfold RuleDescription.inside
    cases hrules : r.repository with
    | none =>
      rw [hrules] at hown
      exact ⟨chained_mono hs, NamedGrammar.enclosing_of_none hown ▸ hsub⟩
    | some rules =>
      rw [hrules] at hown
      have hsub' := NamedGrammar.enclosing_of_some hown ▸ hsub.cons_cons _
      exact ⟨chained_cons hs hown hsub' hnew, hsub'⟩

theorem chained_children (hordered : ∀ e ∈ l.grammars, e.2.Ordered)
    (hbase : l.grammar? l.base.key = some l.base) (h : n.Chained l found) (hnew : n.origin ∉ found) :
    ∀ m ∈ l.children n, m.Chained l (n.origin :: found) := by
  obtain ⟨hs, hsub⟩ := chained_around h hnew
  obtain ⟨hk, hsite, r, hr, hparts⟩ := at?_of_chained h
  intro m hm
  rcases child_cases hm with ⟨reference, hm⟩ | ⟨p, hp, rfl⟩
  · exact chained_target hbase hs hm
  · rw [hsite]
    refine .rule hs ?_ hsub
    rw [GrammarDescription.at?, hr]
    exact RuleDescription.part?_of_mem_parts (hordered _ (mem_of_grammar? hk).2 _ _ hr) (hparts hp)

theorem chained_of_mem_nodes (hordered : ∀ e ∈ l.grammars, e.2.Ordered)
    (hbase : l.grammar? l.base.key = some l.base) :
    ∀ n ∈ l.nodes, ∃ found, n.origin ∉ found ∧ n.Chained l found := by
  -- pending nodes know of what has been found so far, and found ones of what was found before them
  have hall := nodes_induction (l := l)
    (P := fun pending found => (∀ n ∈ pending, n.Chained l (found.map Node.origin)) ∧
      ∀ n ∈ found, ∃ found, n.origin ∉ found ∧ n.Chained l found)
    ⟨List.forall_mem_singleton.mpr (.grammar hbase), fun _ h => absurd h List.not_mem_nil⟩
    (fun _ _ _ h _ => ⟨fun m hm => h.1 m (List.mem_cons_of_mem _ hm), h.2⟩)
    fun n pending found h hnew => by
      obtain ⟨hn, hpending⟩ := List.forall_mem_cons.mp h.1
      refine ⟨List.forall_mem_append.mpr ⟨chained_children hordered hbase hn hnew, fun m hm => ?_⟩,
        List.forall_mem_cons.mpr ⟨⟨_, hnew, hn⟩, h.2⟩⟩
      exact node_chained_mono (hpending m hm)
  obtain ⟨_, -, hfound⟩ := hall
  exact fun n hn => hfound n (List.mem_reverse.mpr hn)

end Library

end GrammarScopes
