import GrammarScopes.Proofs.Except
import GrammarScopes.Proofs.Registry.Cancellation
import GrammarScopes.Proofs.Registry.CollectingOrder

/-!
Collecting in a registry that nobody else is using: what has been loaded before makes no difference, and
what is collected are the scopes that a grammar needs.
-/

namespace GrammarScopes

namespace Registry

variable {table : GrammarTable} {source : Source} {r r₀ : Registry} {scope s k : String} {scanner : Scanner}
  {d : GrammarDescription} {e : ScopeError}

section Readings

/-- Since `r₀`, there has been one more read at most for each scope, and none but for some scopes. -/
def ReadsOnce (r₀ : Registry) (scopes : String → Prop) (r : Registry) : Prop :=
  ∀ k, r.world.readingsOf k = r₀.world.readingsOf k ∨
    scopes k ∧ ∃ location, r.world.readingsOf k = ⟨k, location⟩ :: r₀.world.readingsOf k

theorem readsOnce_describe (s : String) (r : Registry) : ReadsOnce r (· = s) (describe s r).1 := by
  intro k
  cases hs : r.table.location? s with
  | none =>
    rw [describe_of_unmapped hs]
    exact .inl rfl
  | some location =>
    rw [describe_of_mapped hs]
    have hlocates : (Task.asked s ⟨s, location, false⟩ : Task String DescriptionLoad).Locates r.table := ⟨rfl, hs⟩
    rcases Task.runs_or_idle (l := descriptionLoader) (Task.asked s ⟨s, location, false⟩) r with
      ⟨a, load, r', hruns⟩ | ⟨-, hidle, -⟩
    · by_cases hk : k = s
      · subst hk
        refine .inr ⟨rfl, load.location, ?_⟩
        have hreadings := readingsOf_of_runs hruns hlocates
        have hstarted : load.isStarted = false := by
          cases hruns
          rfl
        rw [hstarted] at hreadings
        exact hreadings
      · exact .inl (readingsOf_of_runs_ne hruns hlocates hk)
    · rw [hidle]
      exact .inl rfl

theorem ReadsOnce.mono {p q : String → Prop} (h : ReadsOnce r₀ p r) (hpq : ∀ k, p k → q k) : ReadsOnce r₀ q r :=
  fun k => (h k).imp_right (.imp_left (hpq k))

theorem ReadsOnce.describe {p : String → Prop} (h : ReadsOnce r₀ p r) (hs : ¬ p s) :
    ReadsOnce r₀ (fun k => k = s ∨ p k) (describe s r).1 := by
  intro k
  rcases readsOnce_describe s r k with hsame | ⟨rfl, location, hmore⟩
  · rw [hsame]
    exact (h k).imp_right (.imp_left .inr)
  · rcases h k with hsame | ⟨hk, -⟩
    · rw [hmore, hsame]
      exact .inr ⟨.inl rfl, location, rfl⟩
    · exact absurd hk hs

theorem collectRule_readsOnce :
    CollectRule scope scanner (fun _ c r => ReadsOnce r₀ (c.isKnown · = true) r)
      (fun x => ReadsOnce r₀ (fun _ => True) x.1) where
  known h _ := h
  round {n c s rest r} h hk := by
    have hreads : ReadsOnce r₀ (fun k => k = s ∨ c.isKnown k = true) (Registry.describe s r).1 :=
      h.describe (Bool.eq_false_iff.mp hk)
    rcases hx : Registry.describe s r with ⟨r', p⟩
    rw [hx] at hreads
    cases p with
    | pending task => exact hreads.mono fun _ _ => trivial
    | done result =>
      cases result with
      | ok g =>
        cases n with
        | zero => exact hreads.mono fun _ _ => trivial
        | succ n => exact hreads.mono fun k => (Collection.isKnown_add (c := { c with pending := rest }) hk g).mpr
      | error e =>
        rw [Proceeds]
        split
        next => exact hreads.mono fun _ _ => trivial
        next => exact hreads.mono fun k => (Collection.isKnown_skip (c := { c with pending := rest })).mpr
  finish h := h.mono fun _ _ => trivial

end Readings

/-- A registry as a service leaves it after some events in which no text is edited, when no task is there any
more, nothing is held back and the scanner is up. -/
def Idle (table : GrammarTable) (source : Source) (r : Registry) : Prop :=
  ∃ (world : World) (rootScope : String) (maxLineLength : Nat) (events : List ServiceEvent),
    world.source = source ∧ (∀ e ∈ events, e.isEdit = false) ∧
      let s := ServiceSession.after (.fresh table world rootScope maxLineLength) events
      s.tasks = [] ∧ s.service.registry = r ∧ r.world.held = [] ∧ r.isReady = true

namespace Idle

variable (h : Idle table source r)

include h

theorem holds : r.Holds (.ofSource table source) [] [] := by
  obtain ⟨world, rootScope, maxLineLength, events, rfl, hedits, htasks, rfl, -, -⟩ := h
  let s : ServiceSession := { service := .fresh table world rootScope maxLineLength }
  have hallows : ServiceSession.AllowsAll (.lacking table world.source (s.forsaken events)) s events :=
    ServiceSession.allowsAll_lacking (List.Subset.refl _) hedits
  have hinv := (ServiceSession.run_keeps (ServiceSession.fresh_inv rfl) hallows).1
  have hholds := hinv.consistent.holds
  change Holds _ _ (ServiceTask.scannerTasks ((ServiceSession.after _ events).tasks.map (·.2)))
    (ServiceTask.descriptionTasks ((ServiceSession.after _ events).tasks.map (·.2))) at hholds
  rw [htasks] at hholds
  exact ⟨hholds.table_eq, hholds.source, hholds.scanner, hholds.descriptions, hholds.located⟩

theorem collectAll_error (hscope : descriptionOf table source scope = .error e) :
    (collectAll scope .standard { pending := [scope] } r).2 = .done (.error e) := by
  obtain ⟨-, -, -, -, -, -, -, -, hheld, -⟩ := id h
  have hanswer := describe_alone h.holds hheld scope
  rw [hscope] at hanswer
  have hdrain : ∀ found, (drain scope .standard found [scope] { pending := [scope] } r).2 = .done (.error e) := by
    intro found
    rw [drain, if_neg (by simp [Collection.isKnown])]
    rcases hx : describe scope r with ⟨r', p⟩
    rw [hx] at hanswer
    cases hanswer
    rw [proceed, if_pos rfl]
  unfold collectAll
  cases r.table.length with
  | zero => exact hdrain _
  | succ n => exact hdrain _

theorem collectAll_ok (hscope : descriptionOf table source scope = .ok d) :
    ∃ c loaded, Collection.Collects (descriptionOf table source) scope loaded c ∧ c.pending = [] ∧
      (collectAll scope .standard { pending := [scope] } r).2 = .done (compileCollected scope .standard c) := by
  obtain ⟨-, -, -, -, -, -, -, -, hheld, hready⟩ := id h
  obtain ⟨c, hgathered, hpending⟩ := Collection.exists_gathered_end
    (fun s g hs => Dictionary.mem_keys_of_find? (mapped_of_descriptionOf hs)) hscope
  obtain ⟨loaded, hcollects⟩ := hgathered.exists_collects
  refine ⟨c, loaded, hcollects, hpending, ?_⟩
  have hstart : GathersAlone table source scope r r.table.length { pending := [scope] } r := by
    refine ⟨⟨.refl r, h.holds, hready, .refl⟩, hheld, ?_⟩
    rw [h.holds.table_eq]
    exact Nat.le_add_left _ _
  exact (collectRule_alone hgathered hpending).collect _ _ _ hstart

end Idle

/-- Collecting for a scope in a registry that nobody else is using.  No scope is read twice.  The pending scopes
could not be looked at for ever in any order.  The one error is that of the scope itself; otherwise what is
compiled has the descriptions of the least set with the scope that contains, with each of its scopes, what the
grammar of that scope embeds and can be loaded; and in whatever order pending scopes are looked at, no scope
is asked for twice, and the same descriptions are found. -/
theorem collectAll_closure (h : Idle table source r) (scope : String) :
    let lookup := descriptionOf table source
    let x := collectAll scope .standard { pending := [scope] } r
    (∀ s, x.1.world.readingsOf s = r.world.readingsOf s ∨
      ∃ location, x.1.world.readingsOf s = ⟨s, location⟩ :: r.world.readingsOf s) ∧
    (WellFounded fun c' c => ∃ s, Collection.Visits lookup scope s c c') ∧
    (∀ e, lookup scope = .error e → x.2 = .done (.error e)) ∧
    ∀ d, lookup scope = .ok d → ∃ c, x.2 = .done (compileCollected scope .standard c) ∧
      IsLeast (Collection.closedSets lookup scope) {s | s ∈ c.found.map (·.1)} ∧
      (∀ e ∈ c.found, lookup e.1 = .ok e.2) ∧
      ∀ loaded c', Collection.Collects lookup scope loaded c' →
        loaded.Nodup ∧ ((∀ s c'', ¬ Collection.Visits lookup scope s c' c'') → c'.found = c.found) := by
  intro lookup x
  have hmapped : ∀ s g, lookup s = .ok g → s ∈ table.map (·.1) :=
    fun s g hs => Dictionary.mem_keys_of_find? (mapped_of_descriptionOf hs)
  refine ⟨fun s => ?_, Collection.visits_wellFounded hmapped scope, fun e hscope => h.collectAll_error hscope,
    fun d hscope => ?_⟩
  · have hreads : ReadsOnce r (fun _ => True) x.1 := collectRule_readsOnce.collectAll fun _ _ => .inl rfl
    exact (hreads s).imp_right (·.2)
  · obtain ⟨c, loaded, hcollects, hpending, hx⟩ := h.collectAll_ok hscope
    have hupholds := hcollects.upholds
    refine ⟨c, hx, hupholds.isLeast hscope hpending, hupholds.found, fun loaded' c' hcollects' => ?_⟩
    refine ⟨hcollects'.upholds.nodup, fun hend => ?_⟩
    exact hcollects'.found_eq hcollects hscope (Collection.pending_eq_nil hscope hend) hpending

section Example

open ServiceSession

/-- The description of `b` has been asked for, but not that of `a`, which embeds it. -/
def partlyLoaded : Registry := (after embeddingService [.ask none (.load "b")]).service.registry

theorem idle_partlyLoaded :
    Idle embeddingService.registry.table embeddingService.registry.world.source partlyLoaded := by
  have hservice : Service.fresh embeddingService.registry.table embeddingService.registry.world "a" 100 =
      embeddingService := rfl
  refine ⟨embeddingService.registry.world, "a", 100, [.ask none (.load "b")], rfl, by decide +kernel, ?_⟩
  rw [hservice]
  exact ⟨List.isEmpty_iff.mp (by decide +kernel), rfl, by decide +kernel, by decide +kernel⟩

theorem exists_descriptionOf_embedding : ∃ d g,
    descriptionOf embeddingService.registry.table embeddingService.registry.world.source "a" = .ok d ∧
    d.patterns.map (·.reference) = [some "b"] ∧ d.externalScopes = ["b"] ∧ d.scopeName = "a" ∧
    descriptionOf embeddingService.registry.table embeddingService.registry.world.source "b" = .ok g := by
  have hembeds : (descriptionOf embeddingService.registry.table embeddingService.registry.world.source
      "a").toOption.map (fun d => (d.patterns.map (·.reference), d.externalScopes, d.scopeName)) =
        some ([some "b"], ["b"], "a") := by
    decide +kernel
  have hloads : (descriptionOf embeddingService.registry.table embeddingService.registry.world.source
      "b").toOption.isSome := by decide +kernel
  obtain ⟨d, hd, hsays⟩ := Option.map_eq_some_iff.mp hembeds
  obtain ⟨g, hg⟩ := Option.isSome_iff_exists.mp hloads
  simp only [Prod.mk.injEq] at hsays
  exact ⟨d, g, ok_of_toOption hd, hsays.1, hsays.2.1, hsays.2.2, ok_of_toOption hg⟩

theorem collectAll_closure_embedded :
    (partlyLoaded.descriptions.value? "b").isSome ∧
      ∃ c, (collectAll "a" .standard { pending := ["a"] } partlyLoaded).2 =
          .done (compileCollected "a" .standard c) ∧ "b" ∈ c.found.map (·.1) := by
  obtain ⟨d, g, hd, -, hexternal, -, hg⟩ := exists_descriptionOf_embedding
  obtain ⟨-, -, -, hcollects⟩ := collectAll_closure idle_partlyLoaded "a"
  obtain ⟨c, hc, ⟨⟨hmem, hclosed⟩, -⟩, -⟩ := hcollects d hd
  refine ⟨by decide +kernel, c, hc, ?_⟩
  exact hclosed "a" hmem d hd "b" (hexternal ▸ List.mem_singleton_self "b") ⟨g, hg⟩

end Example

end Registry

end GrammarScopes
