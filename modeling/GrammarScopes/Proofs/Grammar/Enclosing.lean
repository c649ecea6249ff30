import GrammarScopes.Proofs.Except
import GrammarScopes.Proofs.Grammar.Roots
import GrammarScopes.Proofs.Grammar.RuleView
import GrammarScopes.Proofs.Grammar.Surroundings

/-!
References by name, where rules have repositories of their own.  A name means a rule in the innermost of the
repositories around the reference, if no rule elsewhere in the grammar has a repository with that name:
otherwise it may be looked up where the rule was first referred to.
-/

namespace GrammarScopes

namespace NamedGrammar

/-- Where the rule is written that is meant by a name in the rule to which steps lead. -/
def meaning? (g : NamedGrammar) (steps : List Place) (key : String) : Option Site :=
  (g.enclosing steps).findSome? fun rep =>
    (Dictionary.find? rep.rules key).map fun _ => rep.owner.within (.entry .repository key)

/-- Only rules around the rule to which steps lead have a name in their repositories. -/
def NamedOnlyAround (g : NamedGrammar) (steps : List Place) (key : String) : Prop :=
  ∀ steps' rep, g.repositoryAt? steps' = some rep → (Dictionary.find? rep.rules key).isSome → steps' <:+ steps

variable {g : NamedGrammar} {steps : List Place} {rep : Repository} {key : String}

theorem namedOnlyAround_of_all (h : g.grammar.rules.all fun e =>
    !(e.2.repository.any fun rules => (Dictionary.find? rules key).isSome) || e.1.isSuffixOf steps) :
    g.NamedOnlyAround steps key := by
  intro steps' rep hat hsome
  obtain ⟨r, hr, hrules, -⟩ := repositoryAt?_eq_some hat
  have hentry := List.all_eq_true.mp h _ (GrammarDescription.mem_rules_of_at? hr)
  simpa [hrules, hsome] using hentry

end NamedGrammar

namespace Library

variable {l : Library} {found : List Origin} {s : Surroundings} {steps : List Place} {key : String}

theorem findSome?_sublist {α β : Type} {f : α → Option β} {xs ys : List α} (h : xs.Sublist ys) (hys : ys.Nodup)
    (hf : ∀ y ∈ ys, (f y).isSome → y ∈ xs) : ys.findSome? f = xs.findSome? f := by
  induction h with
  | slnil => rfl
  | @cons xs ys y hsub ih =>
    obtain ⟨hy, hys⟩ := List.nodup_cons.mp hys
    -- what is left out has nothing, since otherwise it would be in `xs` as well and twice in `ys`
    have hnone : f y = none := by
      rw [← Option.not_isSome_iff_eq_none]
      exact fun hsome => hy (hsub.subset (hf y List.mem_cons_self hsome))
    rw [List.findSome?_cons, hnone]
    exact ih hys fun z hz => hf z (List.mem_cons_of_mem _ hz)
  | @cons_cons xs ys y hsub ih =>
    obtain ⟨hy, hys⟩ := List.nodup_cons.mp hys
    rw [List.findSome?_cons, List.findSome?_cons]
    cases f y with
    | some b => rfl
    | none =>
      refine ih hys fun z hz hsome => ?_
      rcases List.mem_cons.mp (hf z (List.mem_cons_of_mem _ hz) hsome) with rfl | hz'
      · exact absurd hz hy
      · exact hz'

theorem origin_named_of_enclosing (hs : s.Chained l found)
    (hsub : (s.grammar.enclosing steps).Sublist s.repositories)
    (honly : s.grammar.NamedOnlyAround steps key) :
    (l.target? s (.named key)).map Node.origin = (s.grammar.meaning? steps key).map .rule := by
  have hfind := findSome?_sublist (f := fun rep : Repository =>
    (Dictionary.find? rep.rules key).map fun _ => rep.owner.within (.entry .repository key)) hsub hs.nodup.of_map
    fun rep hrep hsome => by
      obtain ⟨steps', hat, -⟩ := hs.owned rep hrep
      rw [Option.isSome_map] at hsome
      exact List.mem_filterMap.mpr ⟨steps', (List.mem_tails _ _).mpr (honly steps' rep hat hsome), hat⟩
  rw [NamedGrammar.meaning?, ← hfind, target?, List.map_findSome?, List.map_findSome?]
  refine congrArg (List.findSome? · s.repositories) (funext fun rep => ?_)
  simp only [Function.comp_apply, named?, Option.map_map]
  rfl

end Library

namespace Grammar

open Library

variable {scope : String} {grammars : GrammarSet} {scanner : Scanner} {g : Grammar}

/-- A reference by name comes to the rule of that name in the innermost repository around it, or to nothing if no
repository around it has the name, unless a rule that is not around it has a repository with that name. -/
theorem name_means_enclosing (hordered : ∀ e ∈ grammars, e.2.Ordered) (h : compile scope grammars scanner = .ok g) :
    ∃ l : Library, l.grammars = grammars ∧ l.grammar? scope = some l.base ∧ g.ruleCount = l.nodes.length ∧
      ∀ id n, l.nodes[id]? = some n →
        (∃ rule, g.rule? id = some rule ∧ rule.patterns = n.ruleIds l) ∧
        ∀ key, .reference ("#" ++ key) ∈ n.items →
          n.around.grammar.NamedOnlyAround n.steps key →
          match n.around.grammar.meaning? n.steps key with
          | some site => ∃ target m, (PatternItem.reference ("#" ++ key)).ruleId? l n.around = some target ∧
              l.nodes[target]? = some m ∧ m.origin = .rule site
          | none => (PatternItem.reference ("#" ++ key)).ruleId? l n.around = none := by
  obtain ⟨l, rfl, hscope, hcount, hrules⟩ := compile_nodes h
  have hbase : l.grammar? l.base.key = some l.base := by rwa [(mem_of_grammar? hscope).1]
  refine ⟨l, rfl, hscope, hcount, fun id n hn => ?_⟩
  refine ⟨⟨_, by rw [hrules, hn]; rfl, patterns_rule l scanner n⟩, fun key hitem honly => ?_⟩
  have hmem := List.mem_of_getElem? hn
  obtain ⟨found, hnew, hchained⟩ := chained_of_mem_nodes hordered hbase n hmem
  obtain ⟨hs, hsub⟩ := chained_around hchained hnew
  have horigin := origin_named_of_enclosing hs hsub honly
  have hnode : (PatternItem.reference ("#" ++ key)).node? l n.around = l.target? n.around (.named key) := by
    rw [PatternItem.node?, Reference.parse_eq_iff.mpr (.named key)]
  rw [PatternItem.ruleId?, hnode]
  cases hmeaning : n.around.grammar.meaning? n.steps key with
  | none =>
    rw [hmeaning] at horigin
    rw [Option.map_eq_none_iff.mp horigin]
    rfl
  | some site =>
    rw [hmeaning] at horigin
    obtain ⟨m, hm, hsite⟩ := Option.map_eq_some_iff.mp horigin
    have hchild : m ∈ l.children n := by
      refine List.mem_append_left _ ?_
      rw [patterns_eq]
      exact List.mem_filterMap.mpr ⟨_, hitem, hnode.trans hm⟩
    obtain ⟨target, m', htarget, hm', heq⟩ := exists_number hmem hchild
    refine ⟨target, m', ?_, hm', heq.trans hsite⟩
    rw [hm]
    exact htarget

def bracketRule (key : String) : RuleDescription where
  beginPattern := some "\\("
  endPattern := some "\\)"
  patterns := some [{ reference := some ("#" ++ key) }, { reference := some "#shared" }]
  repository := some [(key, { pattern := some "a", name := some "inner" })]

def sharedGrammar (patterns : List RuleDescription) : GrammarDescription where
  scopeName := "s"
  patterns := patterns
  repository := [("k", { pattern := some "a", name := some "outer" }),
    ("shared", { patterns := some [{ reference := some "#k" }] })]

def sharedLibrary (patterns : List RuleDescription) : Library :=
  ⟨[("s", sharedGrammar patterns)], ⟨"s", sharedGrammar patterns⟩⟩

theorem name_means_enclosing_bracket :
    (∀ e ∈ (sharedLibrary [bracketRule "j"]).grammars, e.2.Ordered) ∧
      (sharedLibrary [bracketRule "j"]).base.NamedOnlyAround [.pattern 0] "j" ∧
      ∃ g, compile "s" (sharedLibrary [bracketRule "j"]).grammars .standard = .ok g ∧
        ∃ target m, (sharedLibrary [bracketRule "j"]).nodes[target]? = some m ∧
          m.origin = .rule ⟨"s", [.entry .repository "j", .pattern 0]⟩ ∧
          ∃ rule, g.rule? 1 = some rule ∧ target ∈ rule.patterns := by
  have hordered : ∀ e ∈ (sharedLibrary [bracketRule "j"]).grammars, e.2.Ordered :=
    List.forall_mem_singleton.mpr (GrammarDescription.ordered_of_isOrdered (by decide +kernel))
  have honly : (sharedLibrary [bracketRule "j"]).base.NamedOnlyAround [.pattern 0] "j" :=
    NamedGrammar.namedOnlyAround_of_all (by decide +kernel)
  obtain ⟨g, hg⟩ : ∃ g, compile "s" (sharedLibrary [bracketRule "j"]).grammars .standard = .ok g := by
    have hok : (compile "s" (sharedLibrary [bracketRule "j"]).grammars .standard).toOption.isSome := by
      decide +kernel
    obtain ⟨g, hg⟩ := Option.isSome_iff_exists.mp hok
    exact ⟨g, ok_of_toOption hg⟩
  refine ⟨hordered, honly, g, hg, ?_⟩
  obtain ⟨l, hgrammars, hbase, -, hnodes⟩ := name_means_enclosing hordered hg
  obtain rfl : l = sharedLibrary [bracketRule "j"] := by
    obtain ⟨grammars, base⟩ := l
    obtain rfl : grammars = (sharedLibrary [bracketRule "j"]).grammars := hgrammars
    exact congrArg _ (Option.some.inj hbase).symm
  have hnode : (sharedLibrary [bracketRule "j"]).nodes[1]? = some (.rule ⟨"s", [.pattern 0]⟩ (bracketRule "j")
      (sharedLibrary [bracketRule "j"]).base.surroundings) := by rfl
  obtain ⟨⟨rule, hrule, hids⟩, hnames⟩ := hnodes 1 _ hnode
  obtain ⟨target, m, htarget, hm, horigin⟩ := hnames "j" List.mem_cons_self honly
  refine ⟨target, m, hm, horigin, rule, hrule, ?_⟩
  rw [hids]
  exact List.mem_filterMap.mpr ⟨_, List.mem_cons_self, htarget⟩

/-- Where a rule elsewhere has the name, it is looked up in the repositories around the first reference to the rule
that uses the name, and the order of the patterns decides what it means. -/
theorem name_means_first_reference :
    (sharedLibrary [bracketRule "k", { reference := some "#shared" }]).base.meaning?
        [.entry .repository "shared"] "k" = some ⟨"s", [.entry .repository "k"]⟩ ∧
      (sharedLibrary [bracketRule "k", { reference := some "#shared" }]).nodes.map Node.origin =
        [.grammar "s", .rule ⟨"s", [.pattern 0]⟩, .rule ⟨"s", [.entry .repository "k", .pattern 0]⟩,
          .rule ⟨"s", [.entry .repository "shared"]⟩] ∧
      (compile "s" (sharedLibrary [bracketRule "k", { reference := some "#shared" }]).grammars .standard).toOption.map
        (fun g => g.rules.toList.map Rule.patterns) = some [[1, 3], [2, 3], [], [2]] ∧
      (sharedLibrary [{ reference := some "#shared" }, bracketRule "k"]).nodes.map Node.origin =
        [.grammar "s", .rule ⟨"s", [.entry .repository "shared"]⟩, .rule ⟨"s", [.entry .repository "k"]⟩,
          .rule ⟨"s", [.pattern 1]⟩, .rule ⟨"s", [.entry .repository "k", .pattern 1]⟩] ∧
      (compile "s" (sharedLibrary [{ reference := some "#shared" }, bracketRule "k"]).grammars .standard).toOption.map
        (fun g => g.rules.toList.map Rule.patterns) = some [[1, 3], [2], [], [4, 1], []] := by
  refine ⟨by decide +kernel, by decide +kernel, by decide +kernel, by decide +kernel, by decide +kernel⟩

end Grammar

end GrammarScopes
