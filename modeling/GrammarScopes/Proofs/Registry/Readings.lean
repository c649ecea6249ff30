import GrammarScopes.Proofs.Except
import GrammarScopes.Proofs.Registry.Session

/-!
Reads over whole sessions: a scope is read by one task at a time, and no more once its text has given a
grammar; and a compiled grammar is had without any.
-/

namespace GrammarScopes

def ServiceTask.reads? (t : ServiceTask) : Option String :=
  (t.descriptionTask?.bind Task.led?).map (·.1)

namespace Registry

variable {table : GrammarTable} {P : Promise table} {r : Registry} {scope location : String}
  {t : GrammarTask} {ts : List ServiceTask} {q : Question} {e : ScopeError} {g : GrammarDescription}

/-- The load of a task makes an attempt of its own to bring the scanner up, which fails. -/
def FailsScanner (r : Registry) (t : GrammarTask) (e : ScopeError) : Prop :=
  ∃ a scope task r₁ b load r₂, t.Runs grammarLoader r a (.scanner scope task) r₁ ∧
    task.Runs scannerLoader r₁ b load r₂ ∧ (runScanner load r₂).2 = .done (.error e)

theorem FailsScanner.poll (h : r.FailsScanner t e) :
    (t.poll grammarLoader r).2 = .done (.error e) ∧ (t.poll grammarLoader r).1.isReady = false := by
  obtain ⟨a, scope, task, r₁, b, load, r₂, hruns, htask, hfails⟩ := h
  have hscanner : task.poll scannerLoader r₁ = Task.lead scannerLoader task.key b load r₂ :=
    Task.poll_of_runs htask
  rw [Task.lead_of_done hfails] at hscanner
  have hrun : runGrammar (.scanner scope task) r₁ =
      ((task.poll scannerLoader r₁).1, .done (.error e)) := by
    rw [runGrammar_scanner, hscanner]
  have hready : (runGrammar (.scanner scope task) r₁).1.isReady = false := by
    have hslot := fun c : LoadCache Unit Scanner => c.slot?_settle () () b (.error e)
    rw [hrun, hscanner, isReady]
    change (LoadCache.value? (LoadCache.settle _ () b (.error e)) ()).isSome = false
    rw [LoadCache.value?, hslot]
    rfl
  obtain ⟨c, hlead⟩ := lead_grammar t.key a (.scanner scope task) r₁
  rw [Task.poll_of_runs hruns]
  refine ⟨Task.lead_done_iff.mpr (congrArg (·.2) hrun), ?_⟩
  rw [hlead]
  exact hready

theorem leading_of_reads (hfits : TaskFits P r t) (hreads : (ServiceTask.question q t).reads? = some scope) :
    ∃ key a host scanner c current b load,
      t = .leading key a (.collect host scanner c current (.leading scope b load)) := by
  cases t with
  | asked key load =>
    obtain rfl := hfits
    cases hreads
  | waiting => cases hreads
  | leading key a load =>
    cases load with
    | scanner => cases hreads
    | collect host scanner c current task =>
      cases task with
      | asked => cases hreads
      | waiting => cases hreads
      | leading s b load =>
        cases hreads
        exact ⟨key, a, host, scanner, c, current, b, load, rfl⟩

theorem Holds.value_of_leading {ss : List (Task Unit ScannerLoad)} {ds : List (Task String DescriptionLoad)}
    {b : AttemptId} {load : DescriptionLoad} (h : r.Holds P ss (.leading scope b load :: ds))
    (hlocation : table.location? scope = some location) (hheld : r.world.holds location = false)
    (hg : readDescription r.world location = .ok g) :
    ((Task.leading scope b load).poll descriptionLoader r).1.descriptions.value? scope = some g := by
  obtain ⟨notes, hserves, -⟩ := h.descriptions
  have hlocates := h.located _ List.mem_cons_self
  have hloaded : load.location = location := Option.some.inj (hlocates.2.symm.trans hlocation)
  have hdone := done_of_runs .leads hlocates hloaded hheld
  exact hserves.value?_of_done descriptionLoader_lawful (hg ▸ hdone)

theorem Consistent.value_of_reads (h : r.Consistent P (.question q t :: ts))
    (hspared : (ServiceTask.question q t).Spared P r) (hreads : (ServiceTask.question q t).reads? = some scope)
    (hlocation : table.location? scope = some location) (hheld : r.world.holds location = false)
    (hg : readDescription r.world location = .ok g) :
    (t.poll grammarLoader r).1.descriptions.value? scope = some g := by
  obtain ⟨key, a, host, scanner, c, current, b, load, rfl⟩ := leading_of_reads h.fits_question hreads
  have hholds : r.Holds P (ServiceTask.scannerTasks ts)
      (.leading scope b load :: ServiceTask.descriptionTasks ts) := h.holds_question
  have hvalue := hholds.value_of_leading hlocation hheld hg
  have hleaves := hholds.runGrammar_collect h.fits_question.2 fun host s hf => hspared _ host s rfl hf
  obtain ⟨c', hlead⟩ := lead_grammar key a (.collect host scanner c current (.leading scope b load)) r
  change (Task.lead grammarLoader key a _ r).1.descriptions.value? scope = some g
  rw [hlead]
  -- the load may go on from the text in the same poll, which loses no description
  exact (hleaves.advances.described scope g hvalue).1

end Registry

namespace ServiceSession

open Registry

variable {table : GrammarTable} {P : Promise table} {s : ServiceSession} {e : ServiceEvent} {t : ServiceTask}
  {q : Question} {id : Option String} {result : Except ScopeError Grammar} {scope location : String}
  {g : GrammarDescription}

def readerCount (s : ServiceSession) (scope : String) : Nat :=
  s.tasks.countP (·.2.reads? == some scope)

/-- A read for a scope begins or goes on at an event. -/
def Reads (s : ServiceSession) (e : ServiceEvent) (scope : String) : Prop :=
  (s.step e).1.service.registry.world.readingsOf scope ≠ s.service.registry.world.readingsOf scope ∨
    ∃ t, s.polled? e = some t ∧ t.reads? = some scope

theorem readerCount_eq (h : s.Inv P) (scope : String) :
    s.readerCount scope = if s.service.registry.descriptions.isLoading scope then 1 else 0 := by
  obtain ⟨notes, hserves, -⟩ := h.consistent.holds.descriptions
  have hcount := hserves.led.countP_eq scope
  rw [ServiceTask.descriptionTasks, List.filterMap_filterMap, List.countP_filterMap, List.countP_map] at hcount
  rw [← hcount, readerCount]
  refine List.countP_congr fun t _ => ?_
  rw [ServiceTask.reads?, Function.comp_apply]
  cases t.2.descriptionTask?.bind Task.led? <;> simp

theorem start_of_done (hdone : (t.poll s.service).2.1 = none) :
    s.start id t = ({ s with service := (t.poll s.service).1 }, (t.poll s.service).2.2) := by
  unfold start
  rcases ht : t.poll s.service with ⟨service, rest, reply⟩
  rw [ht] at hdone
  subst hdone
  cases id <;> rfl

theorem step_of_done (hp : s.polled? e = some t) (hdone : (t.poll s.service).2.1 = none) :
    (s.step e).1.service = (t.poll s.service).1 ∧ (s.step e).2 = (t.poll s.service).2.2 := by
  cases e with
  | ask id q =>
    cases hp
    rw [step, start_of_done hdone]
    exact ⟨rfl, rfl⟩
  | askScanner id =>
    cases hp
    rw [step, start_of_done hdone]
    exact ⟨rfl, rfl⟩
  | poll id =>
    have ht : s.task? id = some t := hp
    simp only [step, ht]
    exact ⟨rfl, rfl⟩
  | drop | isReady | cached | write | remove | hold | release | holdScanner | failScanner => cases hp

theorem step_ask_of_done
    (h : s.service.registry.poll (ask (q.scope s.service.rootScope)) = (s.service.registry, .done result)) :
    s.step (.ask id q) = (s, .answered (s.service.reply q result)) := by
  have hpoll := ServiceTask.poll_question q (ask (q.scope s.service.rootScope)) s.service
  rw [h] at hpoll
  rw [step, start_of_done (congrArg (·.2.1) hpoll), hpoll]
  rfl

theorem step_of_answered {t : GrammarTask} (hp : s.polled? e = some (.question q t))
    (hdone : (s.service.registry.poll t).2 = .done result) :
    (s.step e).1.service.registry = (s.service.registry.poll t).1 ∧
      (s.step e).2 = .answered (s.service.reply q result) := by
  have hpoll := ServiceTask.poll_question q t s.service
  rw [hdone] at hpoll
  obtain ⟨hservice, hreply⟩ := step_of_done hp (congrArg (·.2.1) hpoll)
  rw [hservice, hreply, hpoll]
  exact ⟨rfl, rfl⟩

theorem polled_of_reads (hp : s.polled? e = some t) (hreads : t.reads? = some scope) :
    ∃ id, e = .poll id ∧ s.task? id = some t := by
  cases e with
  | poll id => exact ⟨id, rfl, hp⟩
  | ask id q => cases hp; cases hreads
  | askScanner id => cases hp; cases hreads
  | drop | isReady | cached | write | remove | hold | release | holdScanner | failScanner => cases hp

theorem not_reads_of_change {f : World → World} (he : e.change? = some f) : ¬ s.Reads e scope := by
  rintro (hne | ⟨t, hp, -⟩)
  · refine hne ?_
    rw [step_of_change he, World.readingsOf, World.readingsOf]
    exact congrArg _ (readings_of_change he _)
  · cases e with
    | write | remove | hold | release | holdScanner | failScanner => cases hp
    | ask | askScanner | poll | drop | isReady | cached => cases he

section Invariant

variable (h : s.Inv P)

include h

theorem consistent_polled (hp : s.polled? e = some t) :
    ∃ ts, s.service.registry.Consistent P (t :: ts) := by
  cases e with
  | ask id q => cases hp; exact ⟨_, h.consistent.question q _⟩
  | askScanner id => cases hp; exact ⟨_, h.consistent.scanner⟩
  | poll id => exact ⟨_, h.consistent.perm (perm_of_task [] h.names hp)⟩
  | drop | isReady | cached | write | remove | hold | release | holdScanner | failScanner => cases hp

theorem step_of_failsScanner {t : GrammarTask} {error : ScopeError}
    (hp : s.polled? e = some (.question q t)) (hmapped : (table.location? t.key).isSome)
    (hfails : s.service.registry.FailsScanner t error) :
    (s.step e).2 = .answered (s.service.reply q (.error error)) ∧
      (s.step e).1.service.registry.isReady = false := by
  obtain ⟨ts, hconsistent⟩ := consistent_polled h hp
  obtain ⟨hdone, hready⟩ := hfails.poll
  rcases hconsistent.poll_cases with ⟨-, hpoll⟩ | ⟨hnone, -⟩
  · rw [← hpoll] at hdone hready
    obtain ⟨hregistry, hreply⟩ := step_of_answered hp hdone
    rw [hregistry]
    exact ⟨hreply, hready⟩
  · rw [hnone] at hmapped
    cases hmapped

theorem cached_of_answered {t : GrammarTask} {grammar : Grammar} (hp : s.polled? e = some (.question q t))
    (hdone : (s.service.registry.poll t).2 = .done (.ok grammar)) :
    (table.location? t.key).isSome ∧ (s.step e).1.service.registry.cached? t.key = some grammar := by
  obtain ⟨ts, hconsistent⟩ := consistent_polled h hp
  obtain ⟨hregistry, -⟩ := step_of_answered hp hdone
  rcases hconsistent.poll_cases with ⟨hmapped, hpoll⟩ | ⟨-, -, hpoll⟩
  · rw [hpoll] at hdone
    rw [hregistry, hpoll]
    exact ⟨hmapped, hconsistent.cached_of_done hdone⟩
  · rw [hpoll] at hdone
    cases hdone

theorem poll_ask_of_cached {grammar : Grammar} (hmapped : (table.location? scope).isSome)
    (hcached : s.service.registry.cached? scope = some grammar) :
    s.service.registry.poll (ask scope) = (s.service.registry, .done (.ok grammar)) := by
  rcases (h.consistent.question (.load scope) scope).poll_cases with ⟨-, hpoll⟩ | ⟨hnone, -⟩
  · rw [hpoll]
    exact Task.poll_asked_of_ready _ (LoadCache.value?_eq_some_iff.mp hcached)
  · have hscope : table.location? scope = none := hnone
    rw [hscope] at hmapped
    cases hmapped

theorem value_of_polled_reads (hp : s.polled? e = some t) (hspared : t.Spared P s.service.registry)
    (hreads : t.reads? = some scope) (hlocation : table.location? scope = some location)
    (hheld : s.service.registry.world.holds location = false)
    (hg : readDescription s.service.registry.world location = .ok g) :
    (s.step e).1.service.registry.descriptions.value? scope = some g := by
  obtain ⟨id, rfl, ht⟩ := polled_of_reads hp hreads
  have hregistry : (s.step (.poll id)).1.service.registry = (t.poll s.service).1.registry := by
    simp only [step, ht, poll_eq]
  cases t with
  | scanner t => cases hreads
  | question q t =>
    have hconsistent := h.consistent.perm (perm_of_task [] h.names ht)
    have hvalue := hconsistent.value_of_reads hspared hreads hlocation hheld hg
    rw [hregistry, ServiceTask.poll_question]
    rcases hconsistent.poll_cases with ⟨-, hpoll⟩ | ⟨-, hask, -⟩
    · rw [hpoll]
      exact hvalue
    · -- a task that is new reads nothing yet
      rw [hask] at hreads
      cases hreads

theorem step_of_reads (hallows : Allows P s e) (hreads : s.Reads e scope)
    (hlocation : table.location? scope = some location)
    (hheld : s.service.registry.world.holds location = false)
    (hg : readDescription s.service.registry.world location = .ok g) :
    (s.step e).1.service.registry.descriptions.value? scope = some g ∧
    ((s.step e).1.service.registry.world.readingsOf scope =
        s.service.registry.world.readingsOf scope ∨
      (s.step e).1.service.registry.world.readingsOf scope =
        ⟨scope, location⟩ :: s.service.registry.world.readingsOf scope) := by
  cases he : e.change? with
  | some f => exact absurd hreads (not_reads_of_change he)
  | none =>
    obtain ⟨-, hadvances⟩ := step_inv h hallows he
    have hread := hadvances.read scope location g (h.consistent.holds.table_eq ▸ hlocation) hheld hg
    refine ⟨?_, hread.imp_right (·.2)⟩
    rcases hreads with hne | ⟨t, hp, hreads⟩
    · rcases hread with heq | ⟨hvalue, -⟩
      · exact absurd heq hne
      · exact hvalue
    · exact value_of_polled_reads h hp (hallows.spared t hp) hreads hlocation hheld hg

end Invariant

/-- After any events of a service: a scope outside the table is refused and nothing is touched; a load
whose own attempt to bring the scanner up fails is told so, and nothing has been read so far; one task at
most is reading for a scope; a read of a text that is a grammar is kept, with no further read for the scope
whatever comes later; and who asks for a grammar that has been given gets it, and nothing is touched. -/
theorem reads_once (table : GrammarTable) (world : World) (rootScope : String) (maxLineLength : Nat)
    (events : List ServiceEvent) :
    let service := Service.fresh table world rootScope maxLineLength
    let s := after service events
    let r := s.service.registry
    (∀ id q, table.location? (q.scope s.service.rootScope) = none →
      s.step (.ask id q) =
        (s, .answered (s.service.reply q (.error (.unmappedScope (q.scope s.service.rootScope)))))) ∧
    (∀ e q t error, s.polled? e = some (.question q t) → (table.location? t.key).isSome →
      r.FailsScanner t error →
      (s.step e).2 = .answered (s.service.reply q (.error error)) ∧
        (s.step e).1.service.registry.world.readings = world.readings) ∧
    (∀ scope, s.readerCount scope = if r.descriptions.isLoading scope then 1 else 0) ∧
    (∀ e scope location g, s.Reads e scope → table.location? scope = some location →
      r.world.holds location = false → readDescription r.world location = .ok g →
      let r' := (s.step e).1.service.registry
      (r'.world.readingsOf scope = r.world.readingsOf scope ∨
        r'.world.readingsOf scope = ⟨scope, location⟩ :: r.world.readingsOf scope) ∧
      ∀ later, let r'' := (after service (events ++ e :: later)).service.registry
        r''.descriptions.value? scope = some g ∧
          r''.world.readingsOf scope = r'.world.readingsOf scope) ∧
    ∀ e q t grammar, s.polled? e = some (.question q t) → (r.poll t).2 = .done (.ok grammar) →
      ∀ later id q', let s' := after service (events ++ e :: later)
        q'.scope s'.service.rootScope = t.key →
        s'.step (.ask id q') = (s', .answered (s'.service.reply q' (.ok grammar))) := by
  intro service s r
  have hinv : s.Inv (.nothing table) := after_consistent table world rootScope maxLineLength events
  have hlater : ∀ e later, (after service (events ++ e :: later)).Inv (.nothing table) ∧
      (s.step e).1.service.registry.Keeps (after service (events ++ e :: later)).service.registry := by
    intro e later
    rw [after_append]
    exact run_keeps (step_keeps hinv (allows_nothing s e)).1 (allowsAll_nothing _ later)
  -- what one event has done is kept in whatever comes later, by `hlater`
  refine ⟨fun id q hunmapped => ?_, fun e q t error hp hmapped hfails => ?_,
    fun scope => readerCount_eq hinv scope, fun e scope location g hreads hlocation hheld hg => ?_,
    fun e q t grammar hp hdone later id q' => ?_⟩
  · refine step_ask_of_done ?_
    rcases (hinv.consistent.question q (q.scope s.service.rootScope)).poll_cases with
      ⟨hmapped, -⟩ | ⟨-, -, hpoll⟩
    · have hscope : (table.location? (q.scope s.service.rootScope)).isSome := hmapped
      rw [hunmapped] at hscope
      cases hscope
    · exact hpoll
  · obtain ⟨hreply, hready⟩ := step_of_failsScanner hinv hp hmapped hfails
    have hfresh : Inv (.nothing table) { service := service } := fresh_inv trivial
    have hkeeps := (run_keeps hfresh (allowsAll_nothing _ (events ++ [e]))).2
    rw [run, List.foldl_append] at hkeeps
    exact ⟨hreply, hkeeps.unread hready⟩
  · obtain ⟨hvalue, hreadings⟩ := step_of_reads hinv (allows_nothing s e) hreads hlocation hheld hg
    exact ⟨hreadings, fun later => (hlater e later).2.described scope g hvalue⟩
  · intro s' hscope
    obtain ⟨hmapped, hcached⟩ := cached_of_answered hinv hp hdone
    obtain ⟨hinv', hkeeps⟩ := hlater e later
    refine step_ask_of_done ?_
    rw [hscope]
    exact poll_ask_of_cached hinv' hmapped (hkeeps.compiled _ _ hcached)

def plainService : Service :=
  .fresh [("a", "a.json")]
    { source := .memory [("a.json", "\x7b\"scopeName\": \"a\", \"patterns\": []\x7d")] } "a" 100

/-- The text is held back at its first read. -/
def heldRead : List ServiceEvent := [.hold "a.json", .ask (some "x") (.load "a"), .release "a.json"]

theorem reads_once_held :
    (after plainService heldRead).readerCount "a" = 1 ∧
    (after plainService (heldRead ++ [.poll "x", .ask none (.load "a")])).service.registry.world.readingsOf
      "a" = [⟨"a", "a.json"⟩] ∧
    ∃ grammar, let s := after plainService [.ask none (.load "a")]
      s.step (.ask none (.load "a")) = (s, .answered (s.service.reply (.load "a") (.ok grammar))) := by
  have h := reads_once [("a", "a.json")] plainService.registry.world "a" 100
  have hservice : Service.fresh [("a", "a.json")] plainService.registry.world "a" 100 = plainService := rfl
  rw [hservice] at h
  obtain ⟨-, -, hreaders, hreads, -⟩ := h heldRead
  obtain ⟨-, -, -, -, hgiven⟩ := h []
  refine ⟨?_, ?_, ?_⟩
  · have hloading : (after plainService heldRead).service.registry.descriptions.isLoading "a" = true := by
      decide +kernel
    have hreader := hreaders "a"
    rwa [hloading] at hreader
  · have hpolled : ∃ t, (after plainService heldRead).polled? (.poll "x") = some t ∧ t.reads? = some "a" :=
      Option.bind_eq_some_iff.mp (by decide +kernel)
    have hheld : (after plainService heldRead).service.registry.world.holds "a.json" = false := by
      decide +kernel
    obtain ⟨g, hg⟩ : ∃ g,
        (readDescription (after plainService heldRead).service.registry.world "a.json").toOption = some g :=
      Option.isSome_iff_exists.mp (by decide +kernel)
    obtain ⟨-, hlater⟩ := hreads (.poll "x") "a" "a.json" g (.inr hpolled) (by decide +kernel) hheld
      (ok_of_toOption hg)
    have hfirst : ((after plainService heldRead).step (.poll "x")).1.service.registry.world.readingsOf "a" =
        [⟨"a", "a.json"⟩] := by decide +kernel
    have hkept := (hlater [.ask none (.load "a")]).2
    rw [hfirst] at hkept
    exact hkept
  · obtain ⟨grammar, hdone⟩ :
        ∃ grammar, (plainService.registry.poll (ask "a")).2 = .done (.ok grammar) := by
      have hok : (plainService.registry.load "a").2.isOk = true := by decide +kernel
      rw [load] at hok
      rcases hp : plainService.registry.poll (ask "a") with ⟨r, pending | error | grammar⟩
      · rw [hp] at hok
        cases hok
      · rw [hp] at hok
        cases hok
      · exact ⟨grammar, rfl⟩
    have hgrammar := hgiven (.ask none (.load "a")) (.load "a") (ask "a") grammar rfl hdone [] none (.load "a")
    exact ⟨grammar, hgrammar rfl⟩

end ServiceSession

end GrammarScopes
