import GrammarScopes.Proofs.Registry.Tasks

/-!
Sessions of a service: whatever is asked, polled and dropped in which order, the registry stays
consistent with the tasks that are not done, and what is loaded stays loaded.
-/

namespace GrammarScopes

def Service.fresh (table : GrammarTable) (world : World) (rootScope : String) (maxLineLength : Nat) :
    Service where
  registry := { table := table, world := world }
  rootScope := rootScope
  maxLineLength := maxLineLength

def ServiceEvent.change? : ServiceEvent → Option (World → World)
  | write path content => some (·.write path content)
  | remove path => some (·.remove path)
  | hold location => some (·.hold location)
  | release location => some (·.release location)
  | holdScanner isHeld => some (·.holdScanner isHeld)
  | failScanner times => some (·.failScanner times)
  | ask .. | askScanner _ | poll _ | drop _ | isReady | cached _ => none

namespace World

theorem readings_write (w : World) (path : String) (content : FileContent) :
    (w.write path content).readings = w.readings := by
  unfold write
  split <;> rfl

theorem readings_remove (w : World) (path : String) : (w.remove path).readings = w.readings := by
  unfold remove
  split <;> rfl

theorem readings_holdScanner (w : World) (isHeld : Bool) :
    (w.holdScanner isHeld).readings = w.readings := by
  unfold holdScanner
  split <;> rfl

theorem readings_failScanner (w : World) (times : Nat) :
    (w.failScanner times).readings = w.readings := by
  unfold failScanner
  split <;> rfl

end World

namespace ServiceSession

open Registry

def run (s : ServiceSession) (events : List ServiceEvent) : ServiceSession :=
  events.foldl (fun s e => (s.step e).1) s

def after (service : Service) (events : List ServiceEvent) : ServiceSession :=
  run { service := service } events

def polled? (s : ServiceSession) : ServiceEvent → Option ServiceTask
  | .ask _ q => some (.question q (ask (q.scope s.service.rootScope)))
  | .askScanner _ => some (.scanner (.asked () {}))
  | .poll id => s.task? id
  | _ => none

variable {table : GrammarTable} {P : Promise table} {s : ServiceSession} {e : ServiceEvent} {id : String}
  {t : ServiceTask} {service : Service}

structure Inv (P : Promise table) (s : ServiceSession) : Prop where
  names : (s.tasks.map (·.1)).Nodup
  consistent : s.service.registry.Consistent P (s.tasks.map (·.2))

/-- What is expected goes on to hold at an event: no load does without a description because its reader
has been dropped, and a change of the world leaves the sources as they are to be. -/
structure Allows (P : Promise table) (s : ServiceSession) (e : ServiceEvent) : Prop where
  spared : ∀ t, s.polled? e = some t → t.Spared P s.service.registry
  sources : ∀ f, e.change? = some f → ∀ w : World, P.sources w.source → P.sources (f w).source

def AllowsAll (P : Promise table) : ServiceSession → List ServiceEvent → Prop
  | _, [] => True
  | s, e :: events => Allows P s e ∧ AllowsAll P (s.step e).1 events

theorem after_append (service : Service) (events later : List ServiceEvent) :
    after service (events ++ later) = (after service events).run later :=
  List.foldl_append

section Steps

theorem perm_of_task (us : List ServiceTask) (hnames : (s.tasks.map (·.1)).Nodup) (ht : s.task? id = some t) :
    (us ++ s.tasks.map (·.2)).Perm (t :: (us ++ (s.removeTask id).tasks.map (·.2))) :=
  (((Entries.perm_of_lookup hnames ht).map (·.2)).append_left us).trans List.perm_middle

theorem tasks_drop (s : ServiceSession) (id : String) : (s.drop id).tasks = (s.removeTask id).tasks := by
  unfold drop
  cases ht : s.task? id with
  | none => exact (Entries.filter_ne_eq_self (Entries.not_mem_keys_of_lookup ht)).symm
  | some t => rfl

theorem drop_spec (us : List ServiceTask) (hnames : (s.tasks.map (·.1)).Nodup)
    (h : s.service.registry.Consistent P (us ++ s.tasks.map (·.2))) (id : String) :
    (s.drop id).service.registry.Consistent P (us ++ (s.removeTask id).tasks.map (·.2)) ∧
      s.service.registry.Advances (s.drop id).service.registry := by
  rw [← tasks_drop]
  unfold drop
  cases ht : s.task? id with
  | none => exact ⟨h, .refl _⟩
  | some t => exact ServiceTask.consistent_drop (h.perm (perm_of_task us hnames ht))

theorem nodup_keys_removeTask (hnames : (s.tasks.map (·.1)).Nodup) (id : String) (t? : Option ServiceTask) :
    ((t?.toList.map (id, ·) ++ (s.removeTask id).tasks).map (·.1)).Nodup := by
  have hrest : ((s.removeTask id).tasks.map (·.1)).Nodup := Entries.nodup_keys_filter _ hnames
  cases t? with
  | none => exact hrest
  | some t => exact List.nodup_cons.mpr ⟨by simp [removeTask], hrest⟩

theorem drop_inv (h : s.Inv P) (id : String) :
    (s.drop id).Inv P ∧ s.service.registry.Advances (s.drop id).service.registry := by
  obtain ⟨hconsistent, hadvances⟩ := drop_spec [] h.names h.consistent id
  rw [List.nil_append, ← tasks_drop] at hconsistent
  refine ⟨⟨?_, hconsistent⟩, hadvances⟩
  rw [tasks_drop]
  exact Entries.nodup_keys_filter _ h.names

theorem keep_eq (s : ServiceSession) (id : String) (t : ServiceTask) :
    s.keep id t = { service := (s.drop id).service, tasks := (id, t) :: (s.removeTask id).tasks } := by
  rw [keep, tasks_drop]

theorem keep_inv (hnames : (s.tasks.map (·.1)).Nodup)
    (h : s.service.registry.Consistent P (t :: s.tasks.map (·.2))) (id : String) :
    (s.keep id t).Inv P ∧ s.service.registry.Advances (s.keep id t).service.registry := by
  obtain ⟨hconsistent, hadvances⟩ := drop_spec [t] hnames h id
  rw [keep_eq]
  exact ⟨⟨nodup_keys_removeTask hnames id (some t), hconsistent⟩, hadvances⟩

theorem poll_eq (s : ServiceSession) (id : String) (t : ServiceTask) :
    (s.poll id t).1 =
      { service := (t.poll s.service).1
        tasks := (t.poll s.service).2.1.toList.map (fun t => (id, t)) ++ (s.removeTask id).tasks } := rfl

theorem poll_inv (h : s.Inv P) (ht : s.task? id = some t) (hspared : t.Spared P s.service.registry) :
    (s.poll id t).1.Inv P ∧ s.service.registry.Advances (s.poll id t).1.service.registry := by
  obtain ⟨hpoll, hadvances⟩ :=
    ServiceTask.consistent_poll (h.consistent.perm (perm_of_task [] h.names ht)) hspared
  rw [poll_eq]
  generalize t.poll s.service = polled at hpoll hadvances
  obtain ⟨service, rest, reply⟩ := polled
  have hconsistent : service.registry.Consistent P
      ((rest.toList.map (fun t => (id, t)) ++ (s.removeTask id).tasks).map (·.2)) := by
    cases rest with
    | none => exact hpoll
    | some t' => exact hpoll
  exact ⟨⟨nodup_keys_removeTask h.names id rest, hconsistent⟩, hadvances⟩

theorem start_inv (h : s.Inv P) (hnew : s.service.registry.Consistent P (t :: s.tasks.map (·.2)))
    (hspared : t.Spared P s.service.registry) (id : Option String) :
    (s.start id t).1.Inv P ∧ s.service.registry.Advances (s.start id t).1.service.registry := by
  obtain ⟨hpoll, hadvances⟩ := ServiceTask.consistent_poll hnew hspared
  unfold start
  rcases hp : t.poll s.service with ⟨service, rest, reply⟩
  rw [hp] at hpoll hadvances
  cases rest with
  | none => exact ⟨⟨h.names, hpoll⟩, hadvances⟩
  | some t' =>
    cases id with
    | none =>
      obtain ⟨hdrop, hadvances'⟩ := ServiceTask.consistent_drop hpoll
      exact ⟨⟨h.names, hdrop⟩, hadvances.trans hadvances'⟩
    | some id =>
      have hkeep := keep_inv (s := { s with service := service }) h.names hpoll id
      exact ⟨hkeep.1, hadvances.trans hkeep.2⟩

theorem readings_of_change {f : World → World} (he : e.change? = some f) (w : World) :
    (f w).readings = w.readings := by
  cases e with
  | write path content => cases he; exact w.readings_write path content
  | remove path => cases he; exact w.readings_remove path
  | hold | release => cases he; rfl
  | holdScanner isHeld => cases he; exact w.readings_holdScanner isHeld
  | failScanner times => cases he; exact w.readings_failScanner times
  | ask | askScanner | poll | drop | isReady | cached => cases he

theorem step_of_change {f : World → World} (he : e.change? = some f) :
    s.step e = s.changeWorld f := by
  cases e with
  | write | remove | hold | release | holdScanner | failScanner => cases he; rfl
  | ask | askScanner | poll | drop | isReady | cached => cases he

/-- An event that polls or drops tasks leaves the registry consistent, and takes away nothing that is
loaded. -/
theorem step_inv (h : s.Inv P) (hallows : Allows P s e) (he : e.change? = none) :
    (s.step e).1.Inv P ∧ s.service.registry.Advances (s.step e).1.service.registry := by
  cases e with
  | ask id q => exact start_inv h (h.consistent.question q _) (hallows.spared _ rfl) id
  | askScanner id => exact start_inv h h.consistent.scanner (hallows.spared _ rfl) id
  | poll id =>
    cases ht : s.task? id with
    | none =>
      simp only [step, ht]
      exact ⟨h, .refl _⟩
    | some t =>
      simp only [step, ht]
      exact poll_inv h ht (hallows.spared t ht)
  | drop id =>
    cases ht : s.task? id with
    | none =>
      simp only [step, ht]
      exact ⟨h, .refl _⟩
    | some t =>
      simp only [step, ht]
      exact drop_inv h id
  | isReady | cached => exact ⟨h, .refl _⟩
  | write | remove | hold | release | holdScanner | failScanner => cases he

theorem change_inv {f : World → World} (h : s.Inv P) (hallows : Allows P s e) (he : e.change? = some f) :
    (s.step e).1.Inv P ∧ s.service.registry.Keeps (s.step e).1.service.registry := by
  have hsource := hallows.sources f he _ h.consistent.holds.source
  rw [step_of_change he]
  exact ⟨⟨h.names, h.consistent.with_world hsource⟩, keeps_with_world (readings_of_change he _)⟩

theorem step_keeps (h : s.Inv P) (hallows : Allows P s e) :
    (s.step e).1.Inv P ∧ s.service.registry.Keeps (s.step e).1.service.registry := by
  cases he : e.change? with
  | none =>
    obtain ⟨hinv, hadvances⟩ := step_inv h hallows he
    exact ⟨hinv, hadvances.toKeeps⟩
  | some f => exact change_inv h hallows he

end Steps

section Runs

variable {world : World} {rootScope : String} {maxLineLength : Nat} {events : List ServiceEvent}

theorem fresh_inv (hsource : P.sources world.source) :
    ({ service := .fresh table world rootScope maxLineLength } : ServiceSession).Inv P where
  names := List.nodup_nil
  consistent := {
    holds := ⟨rfl, hsource, ⟨[], .empty, nofun⟩, ⟨[], .empty, nofun⟩, nofun⟩
    compiled := ⟨[], .empty, nofun⟩
    fits := nofun }

theorem run_keeps (h : s.Inv P) (hallows : AllowsAll P s events) :
    (s.run events).Inv P ∧ s.service.registry.Keeps (s.run events).service.registry := by
  induction events generalizing s with
  | nil => exact ⟨h, (Advances.refl _).toKeeps⟩
  | cons e events ih =>
    obtain ⟨hstep, hkeeps⟩ := step_keeps h hallows.1
    obtain ⟨hinv, hkeeps'⟩ := ih hstep hallows.2
    exact ⟨hinv, hkeeps.trans hkeeps'⟩

theorem allows_nothing (s : ServiceSession) (e : ServiceEvent) : Allows (.nothing table) s e :=
  ⟨fun _ _ _ _ _ _ _ => trivial, fun _ _ _ _ => trivial⟩

theorem allowsAll_nothing (s : ServiceSession) (events : List ServiceEvent) :
    AllowsAll (.nothing table) s events := by
  induction events generalizing s with
  | nil => trivial
  | cons e events ih => exact ⟨allows_nothing s e, ih _⟩

theorem after_consistent (table : GrammarTable) (world : World) (rootScope : String) (maxLineLength : Nat)
    (events : List ServiceEvent) :
    (after (.fresh table world rootScope maxLineLength) events).Inv (.nothing table) :=
  (run_keeps (fresh_inv trivial) (allowsAll_nothing _ events)).1

end Runs

end ServiceSession

end GrammarScopes
