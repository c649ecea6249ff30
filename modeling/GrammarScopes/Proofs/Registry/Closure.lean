import GrammarScopes.Proofs.Dictionary
import GrammarScopes.Proofs.Registry.Collecting
import Mathlib.Computability.StateTransition
import Mathlib.Data.List.Perm.Subperm

/-!
What is collected for a grammar from fixed descriptions: one collection leads to the next, and a load
with no other task about comes to where they lead.
-/

namespace GrammarScopes

namespace Collection

variable {lookup : String → Except ScopeError GrammarDescription} {scope s : String} {rest : List String}
  {c c' : Collection} {g : GrammarDescription} {e : ScopeError}

/-- What is collected next for a scope: nothing once no scope is pending, or when the scope itself has no
description. -/
def next? (lookup : String → Except ScopeError GrammarDescription) (scope : String) (c : Collection) :
    Option Collection :=
  match c.pending with
  | [] => none
  | s :: rest =>
    if c.isKnown s then some { c with pending := rest }
    else match lookup s with
      | .ok g => some (({ c with pending := rest } : Collection).add s g)
      | .error _ =>
        if s = scope then none else some (({ c with pending := rest } : Collection).skip s)

theorem next?_of_nil (h : c.pending = []) : next? lookup scope c = none := by
  rw [next?, h]

theorem next?_known (h : c.isKnown s = true) :
    next? lookup scope { c with pending := s :: rest } = some { c with pending := rest } :=
  if_pos h

theorem next?_found (h : c.isKnown s = false) (hs : lookup s = .ok g) :
    next? lookup scope { c with pending := s :: rest } =
      some (({ c with pending := rest } : Collection).add s g) := by
  have hk : ({ c with pending := s :: rest } : Collection).isKnown s = false := h
  simp only [next?, hk, hs]
  rfl

theorem next?_skip (h : c.isKnown s = false) (hs : lookup s = .error e) :
    next? lookup scope { c with pending := s :: rest } =
      if s = scope then none else some (({ c with pending := rest } : Collection).skip s) := by
  have hk : ({ c with pending := s :: rest } : Collection).isKnown s = false := h
  simp only [next?, hk, hs]
  rfl

def Gathered (lookup : String → Except ScopeError GrammarDescription) (scope : String) (c : Collection) :
    Prop :=
  StateTransition.Reaches (next? lookup scope) { pending := [scope] } c

theorem Gathered.next (h : Gathered lookup scope c) (hc : next? lookup scope c = some c') :
    Gathered lookup scope c' :=
  Relation.ReflTransGen.tail h hc

theorem Gathered.unique (h : Gathered lookup scope c) (h' : Gathered lookup scope c')
    (hc : next? lookup scope c = none) (hc' : next? lookup scope c' = none) : c = c' :=
  Part.mem_unique (StateTransition.mem_eval.mpr ⟨h, hc⟩) (StateTransition.mem_eval.mpr ⟨h', hc'⟩)

theorem isKnown_iff : c.isKnown s = true ↔ s ∈ c.found.map (·.1) ∨ s ∈ c.missing := by
  simp [isKnown]

theorem not_mem_found (h : c.isKnown s = false) : s ∉ c.found.map (·.1) := by
  intro hmem
  rw [isKnown_iff.mpr (.inl hmem)] at h
  cases h

theorem perm_found_add (h : c.isKnown s = false) (g : GrammarDescription) :
    (c.add s g).found.Perm ((s, g) :: c.found) :=
  Dictionary.perm_insert (not_mem_found h)

theorem isKnown_add {k : String} (h : c.isKnown s = false) (g : GrammarDescription) :
    (c.add s g).isKnown k = true ↔ k = s ∨ c.isKnown k = true := by
  have hmem := ((perm_found_add h g).map (·.1)).mem_iff (a := k)
  rw [isKnown_iff, isKnown_iff, hmem, List.map_cons, List.mem_cons, or_assoc]
  rfl

theorem isKnown_skip {k : String} : (c.skip s).isKnown k = true ↔ k = s ∨ c.isKnown k = true := by
  rw [isKnown_iff, isKnown_iff, skip, Dictionary.mem_insertWord, or_left_comm]

inductive Follows (lookup : String → Except ScopeError GrammarDescription) (scope : String) :
    Collection → Collection → Prop
  | known {c : Collection} {s : String} {rest : List String} (hk : c.isKnown s = true) :
      Follows lookup scope { c with pending := s :: rest } { c with pending := rest }
  | found {c : Collection} {s : String} {rest : List String} {g : GrammarDescription}
      (hk : c.isKnown s = false) (hs : lookup s = .ok g) :
      Follows lookup scope { c with pending := s :: rest } (({ c with pending := rest } : Collection).add s g)
  | skip {c : Collection} {s : String} {rest : List String} {e : ScopeError}
      (hk : c.isKnown s = false) (hs : lookup s = .error e) (hne : s ≠ scope) :
      Follows lookup scope { c with pending := s :: rest } (({ c with pending := rest } : Collection).skip s)

theorem follows_of_next (h : next? lookup scope c = some c') : Follows lookup scope c c' := by
  obtain ⟨found, missing, pending⟩ := c
  cases pending with
  | nil => cases h
  | cons s rest =>
    have hnext : next? lookup scope { (⟨found, missing, []⟩ : Collection) with pending := s :: rest } =
        some c' := h
    cases hk : (⟨found, missing, []⟩ : Collection).isKnown s with
    | true =>
      rw [next?_known hk] at hnext
      cases hnext
      exact .known hk
    | false =>
      cases hs : lookup s with
      | ok g =>
        rw [next?_found hk hs] at hnext
        cases hnext
        exact .found (c := ⟨found, missing, []⟩) hk hs
      | error e =>
        rw [next?_skip hk hs] at hnext
        split at hnext
        next => cases hnext
        next hne =>
          cases hnext
          exact .skip (c := ⟨found, missing, []⟩) hk hs hne

theorem Gathered.found (h : Gathered lookup scope c) :
    (c.found.map (·.1)).Nodup ∧ ∀ s ∈ c.found.map (·.1), ∃ g, lookup s = .ok g := by
  induction h with
  | refl => exact ⟨List.nodup_nil, nofun⟩
  | tail _ hc ih =>
    cases follows_of_next hc with
    | known => exact ih
    | skip => exact ih
    | @found c s rest g hk hs =>
      have hkeys := (perm_found_add hk g).map (·.1)
      refine ⟨hkeys.nodup_iff.mpr (List.nodup_cons.mpr ⟨not_mem_found hk, ih.1⟩), fun k hmem => ?_⟩
      rcases List.mem_cons.mp (hkeys.mem_iff.mp hmem) with rfl | hmem
      · exact ⟨g, hs⟩
      · exact ih.2 k hmem

/-- What has been collected depends on no description but of the scopes it knows. -/
theorem Gathered.congr {lookup' : String → Except ScopeError GrammarDescription}
    (h : Gathered lookup scope c) (hagree : ∀ s, c.isKnown s = true → lookup' s = lookup s) :
    Gathered lookup' scope c := by
  induction h with
  | refl => exact .refl
  | tail _ hc ih =>
    cases follows_of_next hc with
    | known hk => exact (ih hagree).next (next?_known hk)
    | @found c s rest g hk hs =>
      have hknown (k : String) := isKnown_add (k := k) hk g
      have hs' : lookup' s = .ok g := (hagree s ((hknown s).mpr (.inl rfl))).trans hs
      exact (ih fun k hk => hagree k ((hknown k).mpr (.inr hk))).next (next?_found hk hs')
    | @skip c s rest e hk hs hne =>
      have hs' : lookup' s = .error e := (hagree s (isKnown_skip.mpr (.inl rfl))).trans hs
      exact (ih fun k hk => hagree k (isKnown_skip.mpr (.inr hk))).next
        ((next?_skip hk hs').trans (if_neg hne))

end Collection

namespace Registry

variable {table : GrammarTable} {source : Source} {scope s : String} {c : Collection} {g : Grammar}

/-- The description of a scope, as a source gives it. -/
def descriptionOf (table : GrammarTable) (source : Source) (scope : String) :
    Except ScopeError GrammarDescription :=
  match table.location? scope with
  | some location => readDescription { source := source } location
  | none => .error (.unmappedScope scope)

theorem mapped_of_descriptionOf {g : GrammarDescription} (h : descriptionOf table source s = .ok g) :
    (table.location? s).isSome := by
  unfold descriptionOf at h
  split at h
  next hs => simp [hs]
  next => cases h

/-- The grammar for a scope that a registry gives where nothing else is asked for. -/
def loadAlone (table : GrammarTable) (source : Source) (scope : String) : Except ScopeError Grammar :=
  (load scope { table := table, world := { source := source, backend := .immediate } }).2

def CompilesTo (table : GrammarTable) (source : Source) (scope : String) (g : Grammar) : Prop :=
  ∃ c : Collection, Collection.Gathered (descriptionOf table source) scope c ∧ c.pending = [] ∧
    compileCollected scope .standard c = .ok g

theorem CompilesTo.exists_compile (h : CompilesTo table source scope g) :
    ∃ found, Grammar.compile scope found .standard = .ok g := by
  obtain ⟨c, -, -, hg⟩ := h
  refine ⟨c.found, ?_⟩
  unfold compileCollected at hg
  cases hc : Grammar.compile scope c.found .standard with
  | ok g' => rw [hc] at hg; cases hg; rfl
  | error e => rw [hc] at hg; cases hg

end Registry

open Registry in
def Promise.ofSource (table : GrammarTable) (source : Source) : Promise table where
  sources s := s = source
  answered s result := result = descriptionOf table source s
  collected := Collection.Gathered (descriptionOf table source)
  forsaken _ _ := False
  compiled := CompilesTo table source
  read {w scope location} hsource hlocation := by
    rw [descriptionOf, hlocation, ← hsource]
    rfl
  unmapped {scope} hnone := by rw [descriptionOf, hnone]
  start scope := Relation.ReflTransGen.refl
  known h hk := h.next (Collection.next?_known hk)
  found h hk hs := h.next (Collection.next?_found hk hs.symm)
  skip h hk hs he := h.next ((Collection.next?_skip hk he.symm).trans (if_neg hs))
  lose _ _ _ hforsaken := hforsaken.elim
  finish h hg := ⟨_, h, rfl, hg⟩

namespace Registry

variable {table : GrammarTable} {source : Source} {scope s : String} {c : Collection} {g : Grammar}
  {r r₀ : Registry}

theorem length_found_le (h : Collection.Gathered (descriptionOf table source) scope c) :
    c.found.length ≤ table.length := by
  obtain ⟨hnodup, hlookup⟩ := h.found
  have hsub : c.found.map (·.1) ⊆ table.map (·.1) := by
    intro s hs
    obtain ⟨g, hg⟩ := hlookup s hs
    exact Dictionary.mem_keys_of_find? (mapped_of_descriptionOf hg)
  have hle := (hnodup.subperm hsub).length_le
  rwa [List.length_map, List.length_map] at hle

section Alone

theorem describe_alone (h : r.Holds (.ofSource table source) [] []) (hheld : r.world.held = []) (s : String) :
    (describe s r).2 = .done (descriptionOf table source s) := by
  have hidle : (describe s r).2.task? = none := by
    cases hs : r.table.location? s with
    | none =>
      rw [describe_of_unmapped hs]
      rfl
    | some location =>
      have hlocates := (h.asked hs).located _ List.mem_cons_self
      obtain ⟨notes, hserves, -⟩ := h.descriptions
      rw [describe_of_mapped hs]
      cases hslot : r.descriptions.slot? s with
      | none =>
        have hheld' : r.world.holds location = false := by
          rw [World.holds, hheld]
          cases r.world.source <;> rfl
        rw [done_of_runs (.opens hslot) hlocates rfl hheld']
        rfl
      | some slot =>
        cases slot with
        | ready value =>
          rw [Task.poll_asked_of_ready (l := descriptionLoader) _ hslot]
          rfl
        | loading a =>
          -- no task is there that leads
          cases (hserves.led.loading_iff s a).mp hslot
  cases hp : (describe s r).2 with
  | pending task =>
    rw [hp] at hidle
    cases hidle
  | done result =>
    have hanswered : result = descriptionOf table source s := h.answered_of_describe hp
    rw [hanswered]

/-- Where a load stands as it goes on collecting with no other task about, and may find `n` descriptions
more. -/
structure GathersAlone (table : GrammarTable) (source : Source) (scope : String) (r₀ : Registry) (n : Nat)
    (c : Collection) (r : Registry) : Prop extends Gathers (.ofSource table source) scope [] [] r₀ c r where
  held : r.world.held = []
  enough : table.length ≤ c.found.length + n

theorem collectRule_alone {c' : Collection} (hc' : Collection.Gathered (descriptionOf table source) scope c')
    (hpending : c'.pending = []) :
    CollectRule scope .standard (GathersAlone table source scope r₀)
      (·.2 = .done (compileCollected scope .standard c')) where
  known h hk := { h with collected := Promise.known _ h.collected hk }
  round := by
    intro n c s rest r h hk
    have hadvances := h.holds.advances_describe h.ready s
    have hholds := h.holds.describe s
    have hanswer := describe_alone h.holds h.held s
    rcases hx : describe s r with ⟨r', p⟩
    rw [hx] at hadvances hholds hanswer
    cases hanswer
    -- where the load would stand with another collection, as far as no more need be found for it
    have hgathers : ∀ m c, Collection.Gathered (descriptionOf table source) scope c →
        table.length ≤ c.found.length + m → GathersAlone table source scope r₀ m c r' :=
      fun m c hcollected henough =>
        ⟨⟨h.advances.trans hadvances, hholds, hadvances.ready h.ready, hcollected⟩,
          hadvances.held_eq.trans h.held, henough⟩
    have henough : table.length ≤ c.found.length + n := h.enough
    cases hs : descriptionOf table source s with
    | ok d =>
      have hnext := h.collected.next (Collection.next?_found hk hs)
      have hle := length_found_le hnext
      have hadd : (({ c with pending := rest } : Collection).add s d).found.length = c.found.length + 1 :=
        (Collection.perm_found_add (c := { c with pending := rest }) hk d).length_eq
      cases n with
      | zero =>
        -- more would have been found than there are scopes in the table
        omega
      | succ n => exact hgathers n _ hnext (by omega)
    | error e =>
      have hnext : Collection.next? (descriptionOf table source) scope { c with pending := s :: rest } = _ :=
        Collection.next?_skip hk hs
      rw [Proceeds]
      by_cases heq : s = scope
      · -- nothing comes next here, while the collection that is compiled has come to its end
        rw [if_pos heq] at hnext
        have hsame := h.collected.unique hc' hnext (Collection.next?_of_nil hpending)
        rw [← hsame] at hpending
        cases hpending
      · rw [if_neg heq] at hnext ⊢
        exact hgathers n _ (h.collected.next hnext) henough
  finish := by
    intro n c r h
    have hsame := h.collected.unique hc' (Collection.next?_of_nil rfl) (Collection.next?_of_nil hpending)
    rw [← hsame]
    rfl

theorem mapped_of_compilesTo (h : CompilesTo table source scope g) : (table.location? scope).isSome := by
  obtain ⟨c, hc, hpending, -⟩ := h
  cases hs : descriptionOf table source scope with
  | ok d => exact mapped_of_descriptionOf hs
  | error e =>
    have hend : Collection.next? (descriptionOf table source) scope { pending := [scope] } = none :=
      (Collection.next?_skip (c := {}) rfl hs).trans (if_pos rfl)
    have hsame := Collection.Gathered.unique .refl hc hend (Collection.next?_of_nil hpending)
    rw [← hsame] at hpending
    cases hpending

def beginning (table : GrammarTable) (source : Source) (scope : String) : Registry where
  table := table
  world := { source := source, backend := .immediate }
  grammars := (LoadCache.begin {} scope).1

theorem holds_beginning (table : GrammarTable) (source : Source) (scope : String) :
    (beginning table source scope).Holds (.ofSource table source) [.asked () {}] [] :=
  ⟨rfl, rfl, ⟨[], LoadCache.Serves.asked_cons_iff.mpr .empty, nofun⟩, ⟨[], .empty, nofun⟩, nofun⟩

theorem loadAlone_eq_ok_iff : loadAlone table source scope = .ok g ↔
    (table.location? scope).isSome ∧
      (runGrammar (.scanner scope (.asked () {})) (beginning table source scope)).2 = .done (.ok g) := by
  let r : Registry := { table := table, world := { source := source, backend := .immediate } }
  have hload : loadAlone table source scope = .ok g ↔ (r.poll (ask scope)).2 = .done (.ok g) := by
    unfold loadAlone load
    rcases r.poll (ask scope) with ⟨r', result | task⟩
    · simp
    · simp
  rw [hload]
  cases hlocation : table.location? scope with
  | none =>
    rw [poll_of_unmapped hlocation]
    simp
  | some location =>
    rw [poll_of_mapped hlocation, ask, Task.poll_asked_of_empty rfl]
    exact Task.lead_done_iff.trans ⟨fun hrun => ⟨rfl, hrun⟩, And.right⟩

theorem compilesTo_of_loadAlone (h : loadAlone table source scope = .ok g) : CompilesTo table source scope g := by
  obtain ⟨-, hrun⟩ := loadAlone_eq_ok_iff.mp h
  exact (Holds.runGrammar (holds_beginning table source scope) (.scanner _) nofun).compiled g hrun

theorem loadAlone_of_compilesTo (h : CompilesTo table source scope g) :
    loadAlone table source scope = .ok g := by
  refine loadAlone_eq_ok_iff.mpr ⟨mapped_of_compilesTo h, ?_⟩
  obtain ⟨c, hc, hpending, hg⟩ := h
  have hholds := holds_beginning table source scope
  have hdone : ((Task.asked () {} : Task Unit ScannerLoad).poll scannerLoader
    (beginning table source scope)).2 = .done (.ok .standard) := rfl
  have hready := (hholds.ready_of_ok hdone).2
  have hadvances := hholds.advances_scanner
  have hholds' := hholds.poll_scanner
  rw [runGrammar_scanner]
  rcases hp : (Task.asked () {} : Task Unit ScannerLoad).poll scannerLoader (beginning table source scope) with ⟨r, p⟩
  rw [hp] at hdone hready hadvances hholds'
  cases hdone
  rw [← hg]
  refine (collectRule_alone hc hpending).collect _ _ _ ⟨⟨hadvances, hholds', hready, .refl⟩, ?_, ?_⟩
  · exact hadvances.held_eq
  · change table.length ≤ 0 + r.table.length
    rw [hholds'.table_eq, Nat.zero_add]

end Alone

end Registry

end GrammarScopes
