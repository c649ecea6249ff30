import GrammarScopes.Proofs.Registry.Closure
import GrammarScopes.Proofs.Registry.Session

/-!
Dropped tasks and the grammars of others: a grammar that has been compiled in a session is the one that
would have been compiled alone, unless its load has waited for a description in vain since another task
was dropped.
-/

namespace GrammarScopes

def GrammarTable.without (table : GrammarTable) (scopes : List String) : GrammarTable :=
  table.filter (!scopes.contains ·.1)

namespace Dictionary

theorem find?_filter {α : Type} (p : String → Bool) (es : List (String × α)) (key : String) :
    find? (es.filter (p ·.1)) key = if p key then find? es key else none := by
  have hkey : (fun e : String × α => decide (p e.1 = true ∧ (e.1 == key) = true)) =
      fun e => p key && e.1 == key := by
    funext e
    by_cases he : e.1 = key <;> simp [he]
  rw [find?, List.find?_filter, hkey]
  cases p key <;> simp [find?]

end Dictionary

namespace Registry

variable {table : GrammarTable} {source : Source} {scope s k : String} {rest lost lost' : List String}
  {c : Collection} {g : GrammarDescription} {e : ScopeError}

theorem location?_without (table : GrammarTable) (lost : List String) (s : String) :
    (table.without lost).location? s = if s ∈ lost then none else table.location? s := by
  rw [GrammarTable.without, GrammarTable.location?, Dictionary.find?_filter (!lost.contains ·)]
  by_cases hs : s ∈ lost <;> simp [hs, GrammarTable.location?]

theorem without_nil (table : GrammarTable) : table.without [] = table :=
  List.filter_true _

theorem descriptionOf_without_of_mem (h : s ∈ lost) :
    descriptionOf (table.without lost) source s = .error (.unmappedScope s) := by
  rw [descriptionOf, location?_without, if_pos h]

theorem descriptionOf_without_congr (h : s ∈ lost' ↔ s ∈ lost) :
    descriptionOf (table.without lost') source s = descriptionOf (table.without lost) source s := by
  rw [descriptionOf, descriptionOf, location?_without, location?_without, if_congr h rfl rfl]

/-- What has been collected for a scope although the descriptions of some scopes were lost. -/
structure GathersWithout (table : GrammarTable) (source : Source) (scope : String) (lost : List String)
    (c : Collection) : Prop where
  known : ∀ s ∈ lost, c.isKnown s = true
  gathered : Collection.Gathered (descriptionOf (table.without lost) source) scope c

namespace GathersWithout

theorem descriptionOf_eq (h : GathersWithout table source scope lost c) (hk : c.isKnown s = false) :
    descriptionOf (table.without lost) source s = descriptionOf table source s := by
  have hnot : s ∉ lost := by
    intro hmem
    rw [h.known s hmem] at hk
    cases hk
  have hiff : s ∈ lost ↔ s ∈ ([] : List String) := by simp [hnot]
  rw [descriptionOf_without_congr hiff, without_nil]

theorem start (scope : String) : GathersWithout table source scope [] { pending := [scope] } :=
  ⟨nofun, .refl⟩

theorem next_known (h : GathersWithout table source scope lost { c with pending := s :: rest })
    (hk : c.isKnown s = true) : GathersWithout table source scope lost { c with pending := rest } :=
  ⟨h.known, h.gathered.next (Collection.next?_known hk)⟩

theorem next_found (h : GathersWithout table source scope lost { c with pending := s :: rest })
    (hk : c.isKnown s = false) (hs : descriptionOf table source s = .ok g) :
    GathersWithout table source scope lost (({ c with pending := rest } : Collection).add s g) where
  known k hmem := (Collection.isKnown_add hk g).mpr (.inr (h.known k hmem))
  gathered := h.gathered.next (Collection.next?_found hk ((h.descriptionOf_eq hk).trans hs))

theorem next_skip (h : GathersWithout table source scope lost { c with pending := s :: rest })
    (hk : c.isKnown s = false) (hs : descriptionOf table source s = .error e) (hne : s ≠ scope) :
    GathersWithout table source scope lost (({ c with pending := rest } : Collection).skip s) where
  known k hmem := Collection.isKnown_skip.mpr (.inr (h.known k hmem))
  gathered := h.gathered.next
    ((Collection.next?_skip hk ((h.descriptionOf_eq hk).trans hs)).trans (if_neg hne))

/-- One more description is lost.  Nothing that has been collected so far depends on it. -/
theorem next_lost (h : GathersWithout table source scope lost { c with pending := s :: rest })
    (hk : c.isKnown s = false) (hne : s ≠ scope) :
    GathersWithout table source scope (s :: lost) (({ c with pending := rest } : Collection).skip s) where
  known k hmem := by
    apply Collection.isKnown_skip.mpr
    rcases List.mem_cons.mp hmem with rfl | hmem
    · exact .inl rfl
    · exact .inr (h.known k hmem)
  gathered := by
    have hgathered : Collection.Gathered (descriptionOf (table.without (s :: lost)) source) scope
        { c with pending := s :: rest } := by
      apply h.gathered.congr
      intro k hknown
      have hks : k ≠ s := by
        rintro rfl
        exact nomatch hk.symm.trans hknown
      apply descriptionOf_without_congr
      simp [hks]
    have hs : descriptionOf (table.without (s :: lost)) source s = .error (.unmappedScope s) :=
      descriptionOf_without_of_mem List.mem_cons_self
    exact hgathered.next ((Collection.next?_skip hk hs).trans (if_neg hne))

end GathersWithout

end Registry

open Registry in
/-- All is as one source describes it, but that some hosts may go without some scopes. -/
def Promise.lacking (table : GrammarTable) (source : Source) (forsaken : List (String × String)) :
    Promise table where
  sources s := s = source
  answered s result := result = descriptionOf table source s
  collected scope c := ∃ lost, (∀ s ∈ lost, (scope, s) ∈ forsaken) ∧ GathersWithout table source scope lost c
  forsaken scope s := (scope, s) ∈ forsaken
  compiled scope g := ∃ lost, (∀ s ∈ lost, (scope, s) ∈ forsaken) ∧
    CompilesTo (table.without lost) source scope g
  read := (Promise.ofSource table source).read
  unmapped := (Promise.ofSource table source).unmapped
  start scope := ⟨[], nofun, .start scope⟩
  known := by
    rintro scope s rest c ⟨lost, hlost, h⟩ hk
    exact ⟨lost, hlost, h.next_known hk⟩
  found := by
    rintro scope s rest c g ⟨lost, hlost, h⟩ hk hs
    exact ⟨lost, hlost, h.next_found hk hs.symm⟩
  skip := by
    rintro scope s rest c e ⟨lost, hlost, h⟩ hk hne hs
    exact ⟨lost, hlost, h.next_skip hk hs.symm hne⟩
  lose := by
    rintro scope s rest c ⟨lost, hlost, h⟩ hk hne hs
    exact ⟨s :: lost, List.forall_mem_cons.mpr ⟨hs, hlost⟩, h.next_lost hk hne⟩
  finish := by
    rintro scope c g ⟨lost, hlost, h⟩ hg
    exact ⟨lost, hlost, _, h.gathered, rfl, hg⟩

namespace World

theorem source_holdScanner (w : World) (isHeld : Bool) : (w.holdScanner isHeld).source = w.source := by
  unfold holdScanner
  split <;> rfl

theorem source_failScanner (w : World) (times : Nat) : (w.failScanner times).source = w.source := by
  unfold failScanner
  split <;> rfl

end World

def ServiceEvent.isEdit : ServiceEvent → Bool
  | write .. | remove _ => true
  | _ => false

namespace ServiceSession

open Registry

variable {table : GrammarTable} {source : Source} {P : Promise table} {s : ServiceSession} {e : ServiceEvent}
  {events : List ServiceEvent} {scope : String} {grammar : Grammar}
  {pairs : List (String × String)}

/-- The host whose load goes on at an event without the description of an embedded scope, and that scope,
since the task that was reading it has been dropped. -/
def forsaken? (s : ServiceSession) (e : ServiceEvent) : Option (String × String) :=
  ((s.polled? e).bind ServiceTask.load?).bind (·.forsaken? s.service.registry)

/-- The hosts whose loads go on without embedded scopes since other tasks have been dropped. -/
def forsaken (s : ServiceSession) : List ServiceEvent → List (String × String)
  | [] => []
  | e :: events => (s.forsaken? e).toList ++ forsaken (s.step e).1 events

theorem source_of_change {f : World → World} (he : e.change? = some f) (hedit : e.isEdit = false)
    (w : World) : (f w).source = w.source := by
  cases e with
  | write | remove => cases hedit
  | hold | release => cases he; rfl
  | holdScanner isHeld => cases he; exact w.source_holdScanner isHeld
  | failScanner times => cases he; exact w.source_failScanner times
  | ask | askScanner | poll | drop | isReady | cached => cases he

theorem allows_lacking (hforsaken : (s.forsaken? e).toList ⊆ pairs) (hedit : e.isEdit = false) :
    Allows (.lacking table source pairs) s e where
  spared t hp load host scope hload hf := by
    have heq : s.forsaken? e = some (host, scope) := by
      rw [forsaken?, hp, Option.bind_some, hload]
      exact hf
    rw [heq] at hforsaken
    exact hforsaken List.mem_cons_self
  sources f hf w hsource := (source_of_change hf hedit w).trans hsource

theorem allowsAll_lacking (hforsaken : s.forsaken events ⊆ pairs) (hedits : ∀ e ∈ events, e.isEdit = false) :
    AllowsAll (.lacking table source pairs) s events := by
  induction events generalizing s with
  | nil => trivial
  | cons e events ih =>
    obtain ⟨he, hevents⟩ := List.append_subset.mp hforsaken
    obtain ⟨hedit, hedits⟩ := List.forall_mem_cons.mp hedits
    exact ⟨allows_lacking he hedit, ih hevents hedits⟩

theorem compiled_of_cached (h : s.Inv P) (hcached : s.service.registry.cached? scope = some grammar) :
    P.compiled scope grammar := by
  obtain ⟨notes, hserves, hcompiled⟩ := h.consistent.compiled
  obtain ⟨a, hmem⟩ := hserves.records.ready_iff.mp (LoadCache.value?_eq_some_iff.mp hcached)
  exact hcompiled scope a grammar hmem

/-- After any events of a service that edit no text, a cached grammar is the one that its scope has alone,
from a table that lacks nothing but scopes that its load went on without, since other tasks were dropped;
and if there are none, from the table as it is. -/
theorem cached_eq_loadAlone (table : GrammarTable) (world : World) (rootScope : String) (maxLineLength : Nat)
    (hedits : ∀ e ∈ events, e.isEdit = false)
    (hcached : (after (.fresh table world rootScope maxLineLength) events).service.registry.cached? scope =
      some grammar) :
    let s : ServiceSession := { service := .fresh table world rootScope maxLineLength }
    (∃ lost, (∀ k ∈ lost, (scope, k) ∈ s.forsaken events) ∧
      loadAlone (table.without lost) world.source scope = .ok grammar) ∧
    ((∀ k, (scope, k) ∉ s.forsaken events) → loadAlone table world.source scope = .ok grammar) := by
  intro s
  have hfresh : s.Inv (.lacking table world.source (s.forsaken events)) := fresh_inv rfl
  have hinv := (run_keeps hfresh (allowsAll_lacking (List.Subset.refl _) hedits)).1
  obtain ⟨lost, hlost, hcompiles⟩ := compiled_of_cached hinv hcached
  have halone := loadAlone_of_compilesTo hcompiles
  refine ⟨⟨lost, hlost, halone⟩, fun hnone => ?_⟩
  have hlost' : lost = [] := List.eq_nil_iff_forall_not_mem.mpr fun k hk => hnone k (hlost k hk)
  rwa [hlost', without_nil] at halone

def embeddingService : Service :=
  .fresh [("a", "a.json"), ("b", "b.json")]
    { source := .memory [
        ("a.json", "\x7b\"scopeName\": \"a\", \"patterns\": [\x7b\"include\": \"b\"\x7d]\x7d"),
        ("b.json", "\x7b\"scopeName\": \"b\", \"patterns\": [\x7b\"match\": \"x\", \"name\": \"n\"\x7d]\x7d")] }
    "a" 100

/-- The load of `a` waits for the description of `b` while `x` reads it; another task is dropped. -/
def keptReader : List ServiceEvent :=
  [.hold "b.json", .ask (some "x") (.load "b"), .ask (some "y") (.load "a"), .ask (some "z") (.load "b"),
    .drop "z", .release "b.json", .poll "x", .poll "y"]

theorem cached_eq_loadAlone_keptReader :
    ∃ grammar, (after embeddingService keptReader).service.registry.cached? "a" = some grammar ∧
      loadAlone embeddingService.registry.table embeddingService.registry.world.source "a" = .ok grammar := by
  obtain ⟨grammar, hcached⟩ :
      ∃ grammar, (after embeddingService keptReader).service.registry.cached? "a" = some grammar :=
    Option.isSome_iff_exists.mp (by decide +kernel)
  have hedits : ∀ e ∈ keptReader, e.isEdit = false := by decide +kernel
  have hforsaken : forsaken { service := embeddingService } keptReader = [] := by decide +kernel
  have h := @cached_eq_loadAlone keptReader "a" grammar embeddingService.registry.table
    embeddingService.registry.world "a" 100 hedits
  have hservice : Service.fresh embeddingService.registry.table embeddingService.registry.world "a" 100 =
      embeddingService := rfl
  rw [hservice] at h
  exact ⟨grammar, hcached, (h hcached).2 fun k => by simp [hforsaken]⟩

/-- The load of `a` waits for the description of `b` while `x` reads it, and `x` is dropped. -/
def droppedReader : List ServiceEvent :=
  [.hold "b.json", .ask (some "x") (.load "b"), .ask (some "y") (.load "a"), .drop "x", .release "b.json",
    .poll "y"]

/-- All can be read, and yet `a` is kept without what it embeds. -/
theorem cached_ne_loadAlone_droppedReader :
    (∀ e ∈ embeddingService.registry.table, (readDescription embeddingService.registry.world e.2).isOk) ∧
    forsaken { service := embeddingService } droppedReader = [("a", "b")] ∧
    ∃ grammar, (after embeddingService droppedReader).service.registry.cached? "a" = some grammar ∧
      loadAlone embeddingService.registry.table embeddingService.registry.world.source "a" ≠ .ok grammar := by
  refine ⟨by decide +kernel, by decide +kernel, ?_⟩
  have hkept : ((after embeddingService droppedReader).service.registry.cached? "a").map Grammar.ruleCount =
      some 1 := by decide +kernel
  have halone : ((loadAlone embeddingService.registry.table embeddingService.registry.world.source
      "a").toOption.map Grammar.ruleCount) = some 3 := by decide +kernel
  obtain ⟨grammar, hcached, hcount⟩ := Option.map_eq_some_iff.mp hkept
  refine ⟨grammar, hcached, fun heq => ?_⟩
  rw [heq] at halone
  have hcount' : grammar.ruleCount = 3 := Option.some.inj halone
  omega

end ServiceSession

end GrammarScopes
