import GrammarScopes.Proofs.Grammar.Compiled
import GrammarScopes.Proofs.Grammar.Reach
import GrammarScopes.Proofs.Registry.IdleCollecting

/-!
References to other grammars: the ones that are followed when a grammar is compiled name scopes that have been asked
for when it was collected, unless a grammar declares the scope itself.
-/

namespace GrammarScopes

open Description

namespace Reference

def scope? : Reference → Option String
  | grammar scope | ruleOf scope _ => some scope
  | named _ | self | base => none

theorem takeWhile_eq (mark : Char) (cs : List Char) :
    cs.takeWhile (· != mark) = ((Text.splitOnce mark cs).map (·.1)).getD cs := by
  induction cs with
  | nil => rfl
  | cons c cs ih =>
    rw [List.takeWhile_cons, Text.splitOnce]
    by_cases hc : c = mark
    · simp [hc]
    · rw [if_pos (by simpa using hc), if_neg hc, ih]
      cases Text.splitOnce mark cs <;> rfl

theorem externalScope?_of_scope? {text s : String} (h : (parse text).scope? = some s)
    (hmark : text.toList.head? ≠ some '$') : externalScope? text = some s := by
  unfold parse at h
  unfold externalScope?
  split at h
  next => cases h
  next cs hhash =>
    split
    next heq => exact absurd heq (hhash _)
    next heq =>
      rw [heq] at hmark
      exact absurd rfl hmark
    next =>
      rw [takeWhile_eq]
      split at h
      next => cases h
      next =>
        split at h
        next => cases h
        next =>
          split at h
          next scope key hsplit =>
            rw [hsplit]
            exact h
          next hsplit =>
            rw [hsplit]
            have htext : text = s := Option.some.inj h
            rw [← htext]
            exact congrArg some (String.ofList_toList)

end Reference

namespace Library

variable {l : Library} {n : Node} {text s : String}

theorem embeds_of_reference (hn : n.Fits l) (hitem : .reference text ∈ n.items)
    (hs : Reference.externalScope? text = some s) :
    s ∈ n.around.grammar.grammar.externalScopes ∨ s = n.around.grammar.grammar.scopeName := by
  obtain ⟨site, r, hwrites, heq | ⟨_, heq, hreference⟩⟩ := item_cases hn hitem
  · cases heq
  · cases heq
    refine hwrites.mem_externalScopes ((mem_ruleScopes r).mpr (.inl ?_))
    rw [hreference]
    exact hs

end Library

namespace Registry

variable {table : GrammarTable} {source : Source} {r : Registry} {scope : String} {d : GrammarDescription}

/-- A reference to another grammar that is followed when a grammar is compiled, in a registry that nobody else
is using: the scope that it names has been collected, or asked for and failed; or it is the one that the grammar
with the reference declares although it is known by another. -/
theorem reference_asked (h : Idle table source r) (hscope : descriptionOf table source scope = .ok d) :
    ∃ c, (collectAll scope .standard { pending := [scope] } r).2 = .done (compileCollected scope .standard c) ∧
      Dictionary.find? c.found scope = some d ∧
      ∀ n ∈ (Library.mk c.found ⟨scope, d⟩).nodes, ∀ text s, .reference text ∈ n.items →
        (Reference.parse text).scope? = some s → text.toList.head? ≠ some '$' →
        (∃ g, Dictionary.find? c.found s = some g ∧ descriptionOf table source s = .ok g) ∨
        (s ∈ c.missing ∧ ∃ e, descriptionOf table source s = .error e) ∨
        (s = n.around.grammar.grammar.scopeName ∧ s ≠ n.around.grammar.key) := by
  obtain ⟨c, loaded, hcollects, hpending, hx⟩ := h.collectAll_ok hscope
  have hupholds := hcollects.upholds
  have hfind : ∀ s g, (s, g) ∈ c.found → Dictionary.find? c.found s = some g :=
    fun s g => Dictionary.find?_of_mem hupholds.sorted.nodup_keys
  have hreached : ∀ s, (s = scope ∨ ∃ e ∈ c.found, s ∈ e.2.externalScopes) →
      (∃ g, Dictionary.find? c.found s = some g ∧ descriptionOf table source s = .ok g) ∨
        (s ∈ c.missing ∧ ∃ e, descriptionOf table source s = .error e) := by
    intro s hs
    rcases hupholds.reached s hs with hknown | hmem
    · rcases Collection.isKnown_iff.mp hknown with hmem | hmem
      · obtain ⟨e, he, rfl⟩ := List.mem_map.mp hmem
        exact .inl ⟨e.2, hfind _ _ he, hupholds.found e he⟩
      · exact .inr ⟨hmem, hupholds.missing s hmem⟩
    · rw [hpending] at hmem
      cases hmem
  have hroot : Dictionary.find? c.found scope = some d := by
    rcases hreached scope (.inl rfl) with ⟨g, hg, hlookup⟩ | ⟨-, e, he⟩
    · rw [hg, Except.ok.inj (hlookup.symm.trans hscope)]
    · cases hscope.symm.trans he
  refine ⟨c, hx, hroot, fun n hn text s hitem hs hmark => ?_⟩
  have hfits := Library.fits_of_mem_nodes hn
  -- the grammar of the node is the one that was found for its key
  have howner : Dictionary.find? c.found n.around.grammar.key = some n.around.grammar.grammar := by
    rcases (Library.fits_around hfits).grammar with heq | hhas
    · rw [heq]
      exact hroot
    · obtain ⟨g, hg, heq⟩ := Option.map_eq_some_iff.mp hhas
      rw [hg, ← heq]
  rcases Library.embeds_of_reference hfits hitem (Reference.externalScope?_of_scope? hs hmark) with hembeds | hname
  · exact (hreached s (.inr ⟨_, Dictionary.mem_of_find? howner, hembeds⟩)).imp_right .inl
  · by_cases hkey : s = n.around.grammar.key
    · have hlookup := hupholds.found _ (Dictionary.mem_of_find? howner)
      rw [hkey]
      exact .inl ⟨_, howner, hlookup⟩
    · exact .inr (.inr ⟨hname, hkey⟩)

open ServiceSession in
theorem reference_asked_embedded :
    ∃ c, (collectAll "a" .standard { pending := ["a"] } partlyLoaded).2 = .done (compileCollected "a" .standard c) ∧
      ∃ g, Dictionary.find? c.found "b" = some g := by
  obtain ⟨d, g, hd, hpatterns, -, hname, hg⟩ := exists_descriptionOf_embedding
  obtain ⟨c, hc, -, hreferences⟩ := reference_asked idle_partlyLoaded hd
  refine ⟨c, hc, ?_⟩
  have hbase : Node.grammar ⟨"a", d⟩ ∈ (Library.mk c.found ⟨"a", d⟩).nodes := by
    obtain ⟨rest, hrest⟩ := (Library.mk c.found ⟨"a", d⟩).nodes_head
    rw [hrest]
    exact List.mem_cons_self
  have hitem : .reference "b" ∈ (Node.grammar ⟨"a", d⟩).items := by
    obtain ⟨rule, hrules, hrule⟩ := List.map_eq_singleton_iff.mp hpatterns
    rw [Node.items, hrules]
    refine List.mem_singleton.mpr ?_
    rw [PatternItem.ofPart, hrule]
  rcases hreferences _ hbase "b" "b" hitem (by decide) (by decide) with ⟨g', hg', -⟩ | ⟨-, e, he⟩ | ⟨hdeclared, -⟩
  · exact ⟨g', hg'⟩
  · cases hg.symm.trans he
  · have hsame : "b" = d.scopeName := hdeclared
    rw [hname] at hsame
    exact absurd hsame (by decide)

/-- The grammar for `a` declares the scope `b`, and refers to a rule of the grammar for `b`. -/
def misnamed : Registry where
  table := [("a", "a.json"), ("b", "b.json")]
  world := { source := .memory [
    ("a.json", "\x7b\"scopeName\": \"b\", \"patterns\": [\x7b\"include\": \"b#k\"\x7d]\x7d"),
    ("b.json", "\x7b\"scopeName\": \"b\", \"repository\": \x7b\"k\": \x7b\"match\": \"x\"\x7d\x7d\x7d")] }

/-- The grammar for `b` can be read, is referred to and is not asked for. -/
theorem reference_asked_misnamed :
    (descriptionOf misnamed.table misnamed.world.source "a").toOption.map (·.patterns.map (·.reference)) =
        some [some "b#k"] ∧
      (descriptionOf misnamed.table misnamed.world.source "b").toOption.map (·.repository.map (·.1)) = some ["k"] ∧
      (misnamed.load "a").2.toOption.map (fun g => g.rules.toList.map Rule.patterns) = some [[]] ∧
      (misnamed.load "a").1.world.readings = [⟨"a", "a.json"⟩] := by
  refine ⟨by decide +kernel, by decide +kernel, by decide +kernel, by decide +kernel⟩

end Registry

end GrammarScopes
