import GrammarScopes.Loading.ServiceSession
import GrammarScopes.Proofs.Registry.Collecting

/-!
The tasks of a service: as they are polled and dropped, they leave the registry consistent with those
that remain, and what is loaded stays loaded.
-/

namespace GrammarScopes

def Task.load? {κ ι : Type} : Task κ ι → Option ι
  | asked _ load | leading _ _ load => some load
  | waiting .. => none

namespace ServiceTask

def grammarTask? : ServiceTask → Option Registry.GrammarTask
  | question _ t => some t
  | scanner _ => none

def load? (t : ServiceTask) : Option GrammarLoad := t.grammarTask?.bind Task.load?

def scannerTask? : ServiceTask → Option (Task Unit ScannerLoad)
  | question _ t => t.load?.bind GrammarLoad.scannerTask?
  | scanner t => some t

def descriptionTask? (t : ServiceTask) : Option (Task String DescriptionLoad) :=
  t.load?.bind GrammarLoad.descriptionTask?

def scannerTasks (ts : List ServiceTask) : List (Task Unit ScannerLoad) := ts.filterMap scannerTask?

def descriptionTasks (ts : List ServiceTask) : List (Task String DescriptionLoad) :=
  ts.filterMap descriptionTask?

def grammarTasks (ts : List ServiceTask) : List Registry.GrammarTask := ts.filterMap grammarTask?

end ServiceTask

namespace Registry

open ServiceTask (scannerTasks descriptionTasks grammarTasks)

variable {table : GrammarTable} {P : Promise table} {r r' : Registry} {scope : String}
  {t t' : GrammarTask} {ts us : List ServiceTask} {q : Question} {a : AttemptId} {load : GrammarLoad}
  {ss : List (Task Unit ScannerLoad)} {ds : List (Task String DescriptionLoad)}

/-- How a task for a grammar may stand; only a scope of the table gets beyond the first poll. -/
def TaskFits (P : Promise table) (r : Registry) : GrammarTask → Prop
  | .asked scope load => load = .scanner scope (.asked () {})
  | .leading scope _ load => (table.location? scope).isSome ∧ load.Fits P r scope
  | .waiting scope _ => (table.location? scope).isSome

/-- What the caches of a registry hold is what is expected, as the tasks have it that ask for it. -/
structure Consistent (P : Promise table) (r : Registry) (ts : List ServiceTask) : Prop where
  holds : r.Holds P (scannerTasks ts) (descriptionTasks ts)
  compiled : ∃ notes, r.grammars.Serves (grammarTasks ts) notes ∧
    ∀ scope a g, .finished scope a (.ok g) ∈ notes → P.compiled scope g
  fits : ∀ t ∈ grammarTasks ts, TaskFits P r t

theorem TaskFits.mono (h : TaskFits P r t) (hready : r.isReady = true → r'.isReady = true) :
    TaskFits P r' t := by
  cases t with
  | asked => exact h
  | leading => exact ⟨h.1, h.2.mono hready⟩
  | waiting => exact h

theorem Holds.of_asked {key : Unit} {load : ScannerLoad} (h : r.Holds P (.asked key load :: ss) ds) :
    r.Holds P ss ds where
  table_eq := h.table_eq
  source := h.source
  scanner := by
    obtain ⟨notes, hserves, hstandard⟩ := h.scanner
    exact ⟨notes, LoadCache.Serves.asked_cons_iff.mp hserves, hstandard⟩
  descriptions := h.descriptions
  located := h.located

theorem Holds.cons_asked {key : Unit} {load : ScannerLoad} (h : r.Holds P ss ds) :
    r.Holds P (.asked key load :: ss) ds where
  table_eq := h.table_eq
  source := h.source
  scanner := by
    obtain ⟨notes, hserves, hstandard⟩ := h.scanner
    exact ⟨notes, LoadCache.Serves.asked_cons_iff.mpr hserves, hstandard⟩
  descriptions := h.descriptions
  located := h.located

theorem Holds.perm {ss' : List (Task Unit ScannerLoad)} {ds' : List (Task String DescriptionLoad)}
    (h : r.Holds P ss ds) (hss : ss.Perm ss') (hds : ds.Perm ds') : r.Holds P ss' ds' where
  table_eq := h.table_eq
  source := h.source
  scanner := by
    obtain ⟨notes, hserves, hstandard⟩ := h.scanner
    exact ⟨notes, hserves.perm hss, hstandard⟩
  descriptions := by
    obtain ⟨notes, hserves, hanswered⟩ := h.descriptions
    exact ⟨notes, hserves.perm hds, hanswered⟩
  located t hmem := h.located t (hds.mem_iff.mpr hmem)

theorem Consistent.perm (h : r.Consistent P ts) (hp : ts.Perm us) : r.Consistent P us where
  holds := h.holds.perm (hp.filterMap _) (hp.filterMap _)
  compiled := by
    obtain ⟨notes, hserves, hcompiled⟩ := h.compiled
    exact ⟨notes, hserves.perm (hp.filterMap _), hcompiled⟩
  fits t hmem := h.fits t ((hp.filterMap _).mem_iff.mpr hmem)

theorem Consistent.with_world {w : World} (h : r.Consistent P ts) (hsource : P.sources w.source) :
    ({ r with world := w } : Registry).Consistent P ts where
  holds := ⟨h.holds.table_eq, hsource, h.holds.scanner, h.holds.descriptions, h.holds.located⟩
  compiled := h.compiled
  fits t hmem := (h.fits t hmem).mono fun hready => hready

section Grammar

theorem Consistent.holds_question (h : r.Consistent P (.question q t :: ts)) :
    r.Holds P ((t.load?.bind GrammarLoad.scannerTask?).toList ++ scannerTasks ts)
      ((t.load?.bind GrammarLoad.descriptionTask?).toList ++ descriptionTasks ts) := by
  have hholds := h.holds
  rw [scannerTasks, descriptionTasks, Entries.filterMap_cons, Entries.filterMap_cons] at hholds
  exact hholds

theorem Consistent.fits_question (h : r.Consistent P (.question q t :: ts)) : TaskFits P r t :=
  h.fits t List.mem_cons_self

theorem Consistent.question (h : r.Consistent P ts) (q : Question) (scope : String) :
    r.Consistent P (.question q (ask scope) :: ts) where
  holds := h.holds.cons_asked
  compiled := by
    obtain ⟨notes, hserves, hcompiled⟩ := h.compiled
    exact ⟨notes, LoadCache.Serves.asked_cons_iff.mpr hserves, hcompiled⟩
  fits t hmem := by
    rcases List.mem_cons.mp hmem with rfl | hmem
    · rfl
    · exact h.fits t hmem

theorem Consistent.of_idle (h : r.Consistent P (.question q t :: ts)) (hled : t.led? = none) :
    r.Consistent P ts where
  holds := by
    have hholds := h.holds_question
    cases t with
    | asked scope load =>
      obtain rfl := h.fits_question
      exact hholds.of_asked
    | leading => cases hled
    | waiting => exact hholds
  compiled := by
    obtain ⟨notes, hserves, hcompiled⟩ := h.compiled
    refine ⟨notes, ⟨hserves.records, ?_, fun k a hmem => hserves.awaited k a (List.mem_cons_of_mem _ hmem)⟩,
      hcompiled⟩
    have hled' := hserves.led_cons
    rwa [hled] at hled'
  fits t hmem := h.fits t (List.mem_cons_of_mem _ hmem)

theorem state_of_runs (hruns : t.Runs grammarLoader r a load r') :
    t.load? = some load ∧ ∃ c, r' = { r with grammars := c } := by
  cases hruns with
  | opens hs => exact ⟨rfl, _, rfl⟩
  | leads => exact ⟨rfl, r.grammars, rfl⟩

theorem lead_grammar (key : String) (a : AttemptId) (load : GrammarLoad) (r : Registry) :
    ∃ c, (Task.lead grammarLoader key a load r).1 = { (runGrammar load r).1 with grammars := c } := by
  cases hrun : (runGrammar load r).2 with
  | pending load' =>
    rw [Task.lead_of_pending hrun]
    exact ⟨(runGrammar load r).1.grammars, rfl⟩
  | done result =>
    rw [Task.lead_of_done hrun]
    exact ⟨_, rfl⟩

variable (h : r.Consistent P (.question q t :: ts))
  (hspared : ∀ load host s, t.load? = some load → load.forsaken? r = some (host, s) → P.forsaken host s)

include h hspared

theorem Consistent.leaves (hruns : t.Runs grammarLoader r a load r') :
    Leaves P t.key (scannerTasks ts) (descriptionTasks ts) r' (runGrammar load r') := by
  have hholds := h.holds_question
  have hfits := h.fits_question
  cases hruns with
  | opens hs =>
    obtain rfl := hfits
    exact (hholds.with_grammars _).runGrammar (.scanner _) nofun
  | leads => exact hholds.runGrammar hfits.2 fun host s hf => hspared _ host s rfl hf

theorem Consistent.advances_grammar : r.Advances (t.poll grammarLoader r).1 := by
  obtain ⟨notes, hserves, -⟩ := h.compiled
  have hkept := fun scope g (hv : r.cached? scope = some g) =>
    LoadCache.Serves.value?_poll grammarLoader_lawful hserves hv
  rcases Task.runs_or_idle (l := grammarLoader) t r with ⟨a, load, r', hruns⟩ | ⟨-, hidle, -⟩
  · have hadvances := (h.leaves hspared hruns).advances
    obtain ⟨-, c, rfl⟩ := state_of_runs hruns
    obtain ⟨c', hlead⟩ := lead_grammar t.key a load { r with grammars := c }
    rw [Task.poll_of_runs hruns, hlead] at hkept ⊢
    exact hadvances.with_grammars hkept
  · rw [hidle]
    exact .refl r

theorem Consistent.holds_grammar :
    (t.poll grammarLoader r).1.Holds P
      ((((t.poll grammarLoader r).2.task?.bind Task.load?).bind GrammarLoad.scannerTask?).toList ++ scannerTasks ts)
      ((((t.poll grammarLoader r).2.task?.bind Task.load?).bind GrammarLoad.descriptionTask?).toList ++
        descriptionTasks ts) := by
  rcases Task.runs_or_idle (l := grammarLoader) t r with
    ⟨a, load, r', hruns⟩ | ⟨hled, hidle, -, ⟨a, hp⟩ | ⟨result, hp⟩⟩
  · have hholds := (h.leaves hspared hruns).holds
    rw [Task.poll_of_runs hruns]
    cases hrun : (runGrammar load r').2 with
    | pending load' =>
      rw [Task.lead_of_pending hrun]
      rw [hrun] at hholds
      exact hholds
    | done result =>
      rw [Task.lead_of_done hrun]
      rw [hrun] at hholds
      exact hholds.with_grammars _
  · rw [hidle, hp]
    exact (h.of_idle hled).holds
  · rw [hidle, hp]
    exact (h.of_idle hled).holds

theorem Consistent.fits_grammar (hmapped : (table.location? t.key).isSome)
    (hp : (t.poll grammarLoader r).2 = .pending t') : TaskFits P (t.poll grammarLoader r).1 t' := by
  rcases Task.runs_or_idle (l := grammarLoader) t r with
    ⟨a, load, r', hruns⟩ | ⟨-, -, -, ⟨a, hidle⟩ | ⟨result, hidle⟩⟩
  · have hfits := (h.leaves hspared hruns).fits
    rw [Task.poll_of_runs hruns] at hp ⊢
    cases hrun : (runGrammar load r').2 with
    | pending load' =>
      rw [Task.lead_of_pending hrun] at hp ⊢
      cases hp
      exact ⟨hmapped, hfits load' hrun⟩
    | done result =>
      rw [Task.lead_of_done hrun] at hp
      cases hp
  · rw [hidle] at hp
    cases hp
    exact hmapped
  · rw [hidle] at hp
    cases hp

theorem Consistent.poll_grammar (hmapped : (table.location? t.key).isSome) :
    (t.poll grammarLoader r).1.Consistent P
      (((t.poll grammarLoader r).2.task?.map (.question q)).toList ++ ts) where
  holds := by
    have hholds := h.holds_grammar hspared
    cases hp : (t.poll grammarLoader r).2 with
    | pending t' =>
      rw [hp] at hholds
      change Holds P _ (scannerTasks (.question q t' :: ts)) (descriptionTasks (.question q t' :: ts))
      rw [scannerTasks, descriptionTasks, Entries.filterMap_cons, Entries.filterMap_cons]
      exact hholds
    | done result =>
      rw [hp] at hholds
      exact hholds
  compiled := by
    obtain ⟨notes, hserves, hcompiled⟩ := h.compiled
    have hserves' := LoadCache.Serves.poll grammarLoader_lawful hserves
    -- a grammar that is new in the notes is what the load of this task has just given
    refine ⟨t.pollNotes grammarLoader r ++ notes, ?_, fun scope a g hmem => ?_⟩
    · cases hp : (t.poll grammarLoader r).2 with
      | pending t' => rw [hp] at hserves'; exact hserves'
      | done result => rw [hp] at hserves'; exact hserves'
    · rcases List.mem_append.mp hmem with hmem | hmem
      · obtain ⟨rfl, -, load, r', hruns, hrun⟩ := Task.finished_of_mem_pollNotes hmem
        exact (h.leaves hspared hruns).compiled g hrun
      · exact hcompiled scope a g hmem
  fits t' hmem := by
    have hold : t' ∈ grammarTasks ts → TaskFits P (t.poll grammarLoader r).1 t' := fun hmem =>
      (h.fits t' (List.mem_cons_of_mem _ hmem)).mono (h.advances_grammar hspared).ready
    cases hp : (t.poll grammarLoader r).2 with
    | pending t'' =>
      rw [hp] at hmem
      rcases List.mem_cons.mp hmem with rfl | hmem
      · exact h.fits_grammar hspared hmapped hp
      · exact hold hmem
    | done result =>
      rw [hp] at hmem
      exact hold hmem

omit hspared in
theorem Consistent.drop_grammar :
    (r.drop t).Consistent P ts ∧ r.Advances (r.drop t) := by
  cases t with
  | asked => exact ⟨h.of_idle rfl, .refl r⟩
  | waiting => exact ⟨h.of_idle rfl, .refl r⟩
  | leading key a load =>
    obtain ⟨notes, hserves, hcompiled⟩ := h.compiled
    obtain ⟨hholds, hadvances⟩ := Holds.dropGrammar h.holds_question
    refine ⟨⟨hholds.with_grammars _, ?_, fun t hmem => ?_⟩, ?_⟩
    · refine ⟨_, LoadCache.Serves.drop grammarLoader_lawful hserves, fun scope b g hmem => ?_⟩
      rcases List.mem_append.mp hmem with hmem | hmem
      · cases List.mem_singleton.mp hmem
      · exact hcompiled scope b g hmem
    · exact (h.fits t (List.mem_cons_of_mem _ hmem)).mono hadvances.ready
    · exact hadvances.with_grammars fun scope g hv =>
        LoadCache.Serves.value?_drop grammarLoader_lawful hserves hv

omit hspared in
theorem Consistent.cached_of_done {g : Grammar} (hp : (t.poll grammarLoader r).2 = .done (.ok g)) :
    (t.poll grammarLoader r).1.cached? t.key = some g := by
  obtain ⟨notes, hserves, -⟩ := h.compiled
  exact LoadCache.Serves.value?_of_done grammarLoader_lawful hserves hp

omit hspared in
theorem Consistent.poll_cases :
    (table.location? t.key).isSome ∧ r.poll t = t.poll grammarLoader r ∨
      table.location? t.key = none ∧ t = ask t.key ∧
        r.poll t = (r, .done (.error (.unmappedScope t.key))) := by
  have hfits := h.fits_question
  have htable := h.holds.table_eq
  cases t with
  | asked scope load =>
    obtain rfl := hfits
    cases hlocation : table.location? scope with
    | none => exact .inr ⟨hlocation, rfl, poll_of_unmapped (htable ▸ hlocation)⟩
    | some location =>
      exact .inl ⟨Option.isSome_iff_exists.mpr ⟨location, hlocation⟩, poll_of_mapped (htable ▸ hlocation)⟩
  | leading => exact .inl ⟨hfits.1, rfl⟩
  | waiting => exact .inl ⟨hfits, rfl⟩

end Grammar

section Scanner

variable {t : Task Unit ScannerLoad}

theorem Consistent.scanner (h : r.Consistent P ts) : r.Consistent P (.scanner (.asked () {}) :: ts) :=
  ⟨h.holds.cons_asked, h.compiled, h.fits⟩

theorem Consistent.poll_scanner (h : r.Consistent P (.scanner t :: ts)) :
    (t.poll scannerLoader r).1.Consistent P
      (((t.poll scannerLoader r).2.task?.map .scanner).toList ++ ts) ∧
    r.Advances (t.poll scannerLoader r).1 := by
  have hholds := Holds.poll_scanner h.holds
  have hadvances := Holds.advances_scanner h.holds
  have hgrammars := grammars_scanner t r
  refine ⟨?_, hadvances⟩
  cases hp : (t.poll scannerLoader r).2 with
  | pending t' =>
    rw [hp] at hholds
    exact ⟨hholds, hgrammars ▸ h.compiled, fun t hmem => (h.fits t hmem).mono hadvances.ready⟩
  | done result =>
    rw [hp] at hholds
    exact ⟨hholds, hgrammars ▸ h.compiled, fun t hmem => (h.fits t hmem).mono hadvances.ready⟩

theorem Consistent.drop_scanner (h : r.Consistent P (.scanner t :: ts)) :
    (t.drop scannerLoader r).Consistent P ts ∧ r.Advances (t.drop scannerLoader r) := by
  have hadvances := Holds.advances_drop_scanner h.holds
  have hgrammars := t.frame_drop (l := scannerLoader) (·.grammars) (fun _ _ => rfl) (fun _ _ => rfl) r
  exact ⟨⟨Holds.drop_scanner h.holds, hgrammars ▸ h.compiled,
    fun t hmem => (h.fits t hmem).mono hadvances.ready⟩, hadvances⟩

end Scanner

end Registry

def Service.tell (s : Service) (q : Question) : Poll Registry.GrammarTask Grammar → ServiceReply
  | .pending _ => .pending
  | .done result => .answered (s.reply q result)

namespace ServiceTask

open Registry

variable {table : GrammarTable} {P : Promise table} {s : Service} {t : ServiceTask} {ts : List ServiceTask}

/-- A task does not go on without a description because others were dropped, unless that is expected. -/
def Spared (P : Promise table) (r : Registry) (t : ServiceTask) : Prop :=
  ∀ load host scope, t.load? = some load → load.forsaken? r = some (host, scope) → P.forsaken host scope

theorem poll_question (q : Question) (t : GrammarTask) (s : Service) :
    (question q t).poll s = ({ s with registry := (s.registry.poll t).1 },
      (s.registry.poll t).2.task?.map (question q), s.tell q (s.registry.poll t).2) := by
  rw [poll]
  rcases s.registry.poll t with ⟨r, p⟩
  cases p <;> rfl

theorem poll_scanner (t : Task Unit ScannerLoad) (s : Service) :
    ((scanner t).poll s).1 = { s with registry := (t.poll scannerLoader s.registry).1 } ∧
    ((scanner t).poll s).2.1 = (t.poll scannerLoader s.registry).2.task?.map scanner := by
  rw [poll]
  rcases t.poll scannerLoader s.registry with ⟨r, p⟩
  cases p with
  | pending t' => exact ⟨rfl, rfl⟩
  | done result => cases result <;> exact ⟨rfl, rfl⟩

theorem consistent_poll (h : s.registry.Consistent P (t :: ts)) (hspared : t.Spared P s.registry) :
    (t.poll s).1.registry.Consistent P ((t.poll s).2.1.toList ++ ts) ∧
      s.registry.Advances (t.poll s).1.registry := by
  cases t with
  | question q t =>
    rw [poll_question]
    rcases h.poll_cases with ⟨hmapped, hpoll⟩ | ⟨-, ht, hpoll⟩
    · rw [hpoll]
      exact ⟨h.poll_grammar hspared hmapped, h.advances_grammar hspared⟩
    · rw [hpoll]
      rw [ht] at h
      exact ⟨h.of_idle rfl, .refl s.registry⟩
  | scanner t =>
    obtain ⟨hservice, hrest⟩ := poll_scanner t s
    rw [hservice, hrest]
    exact h.poll_scanner

theorem consistent_drop (h : s.registry.Consistent P (t :: ts)) :
    (t.drop s).registry.Consistent P ts ∧ s.registry.Advances (t.drop s).registry := by
  cases t with
  | question q t => exact h.drop_grammar
  | scanner t => exact h.drop_scanner

end ServiceTask

end GrammarScopes
