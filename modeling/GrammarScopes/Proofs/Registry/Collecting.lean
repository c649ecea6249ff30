import GrammarScopes.Proofs.Registry.Consistency

/-!
Loads of grammars: how a load stands between polls, and what a poll leaves, as the load waits for the
scanner or collects descriptions.
-/

namespace GrammarScopes

namespace GrammarLoad

def scannerTask? : GrammarLoad → Option (Task Unit ScannerLoad)
  | scanner _ task => some task
  | collect .. => none

def descriptionTask? : GrammarLoad → Option (Task String DescriptionLoad)
  | scanner .. => none
  | collect _ _ _ _ task => some task

variable {table : GrammarTable}

inductive Fits (P : Promise table) (r : Registry) (scope : String) : GrammarLoad → Prop
  | scanner (task : Task Unit ScannerLoad) : Fits P r scope (.scanner scope task)
  | collect {c : Collection} {current : String} {task : Task String DescriptionLoad}
      (hready : r.isReady = true) (hkey : task.key = current) (hknown : c.isKnown current = false)
      (hcollected : P.collected scope { c with pending := current :: c.pending }) :
      Fits P r scope (.collect scope .standard c current task)

/-- The host and the embedded scope for whose description its load has waited in vain, since the task that
was reading it has been dropped. -/
def forsaken? (r : Registry) : GrammarLoad → Option (String × String)
  | collect scope _ _ current (.waiting _ a) =>
    match r.descriptions.status? a with
    | some .abandoned => if current = scope then none else some (scope, current)
    | _ => none
  | _ => none

theorem forsaken?_waiting {r : Registry} {scope current key : String} {a : AttemptId} {scanner : Scanner}
    {c : Collection} (hstatus : r.descriptions.status? a = some .abandoned) (hs : current ≠ scope) :
    (collect scope scanner c current (.waiting key a)).forsaken? r = some (scope, current) := by
  rw [forsaken?, hstatus]
  exact if_neg hs

theorem Fits.mono {P : Promise table} {r r' : Registry} {scope : String} {load : GrammarLoad}
    (h : load.Fits P r scope) (hready : r.isReady = true → r'.isReady = true) : load.Fits P r' scope := by
  cases h with
  | scanner task => exact .scanner task
  | collect hr hkey hknown hcollected => exact .collect (hready hr) hkey hknown hcollected

end GrammarLoad

namespace Registry

variable {table : GrammarTable} {P : Promise table} {r r₀ : Registry} {scope s : String}
  {ss : List (Task Unit ScannerLoad)} {ds : List (Task String DescriptionLoad)} {load : GrammarLoad}

/-- Where a load stands as it goes on collecting, in a poll that has begun at `r₀`. -/
structure Gathers (P : Promise table) (scope : String) (ss : List (Task Unit ScannerLoad))
    (ds : List (Task String DescriptionLoad)) (r₀ : Registry) (c : Collection) (r : Registry) : Prop where
  advances : r₀.Advances r
  holds : r.Holds P ss ds
  ready : r.isReady = true
  collected : P.collected scope c

/-- What a poll of a load leaves that has begun at `r₀`. -/
structure Leaves (P : Promise table) (scope : String) (ss : List (Task Unit ScannerLoad))
    (ds : List (Task String DescriptionLoad)) (r₀ : Registry) (x : Registry × Poll GrammarLoad Grammar) :
    Prop where
  advances : r₀.Advances x.1
  holds : x.1.Holds P ((x.2.task?.bind GrammarLoad.scannerTask?).toList ++ ss)
    ((x.2.task?.bind GrammarLoad.descriptionTask?).toList ++ ds)
  fits : ∀ load, x.2 = .pending load → load.Fits P x.1 scope
  compiled : ∀ g, x.2 = .done (.ok g) → P.compiled scope g

section Collecting

variable {c : Collection} {rest : List String}
  {answer : Registry × Poll (Task String DescriptionLoad) GrammarDescription}
  {found : Collection → Registry → Prop}

theorem Leaves.error (hadvances : r₀.Advances r) (hholds : r.Holds P ss ds) (e : ScopeError) :
    Leaves P scope ss ds r₀ (r, .done (.error e)) where
  advances := hadvances
  holds := hholds
  fits _ h := nomatch h
  compiled _ h := nomatch h

theorem proceeds (hfound : ∀ c r, Gathers P scope ss ds r₀ c r → found c r)
    (hadvances : r₀.Advances answer.1) (hholds : answer.1.Holds P ss (answer.2.task?.toList ++ ds))
    (hready : answer.1.isReady = true) (hkey : ∀ task, answer.2 = .pending task → task.key = s)
    (hanswered : ∀ result, answer.2 = .done result →
      P.answered s result ∨ (∃ e, result = .error e) ∧ (s ≠ scope → P.forsaken scope s))
    (hknown : c.isKnown s = false) (hcollected : P.collected scope { c with pending := s :: rest }) :
    Proceeds scope .standard found (Gathers P scope ss ds r₀) (Leaves P scope ss ds r₀)
      { c with pending := rest } s answer := by
  obtain ⟨r, p⟩ := answer
  cases p with
  | pending task =>
    -- the load waits as one that fits, with the scope put back in front of the pending ones
    refine ⟨hadvances, hholds, fun load heq => ?_, nofun⟩
    cases heq
    exact .collect hready (hkey task rfl) hknown hcollected
  | done result =>
    cases result with
    | ok g =>
      rcases hanswered _ rfl with hg | ⟨⟨e, heq⟩, -⟩
      · exact hfound _ _ ⟨hadvances, hholds, hready, P.found hcollected hknown hg⟩
      · cases heq
    | error e =>
      rw [Proceeds]
      by_cases hs : s = scope
      · rw [if_pos hs]
        exact .error hadvances hholds e
      · rw [if_neg hs]
        rcases hanswered _ rfl with he | ⟨-, hforsaken⟩
        · exact ⟨hadvances, hholds, hready, P.skip hcollected hknown hs he⟩
        · exact ⟨hadvances, hholds, hready, P.lose hcollected hknown hs (hforsaken hs)⟩

theorem collectRule : CollectRule scope .standard (fun _ => Gathers P scope ss ds r₀)
    (Leaves P scope ss ds r₀) where
  known h hk := ⟨h.advances, h.holds, h.ready, P.known h.collected hk⟩
  round {n c s rest r} h hk := by
    have hadvances := h.holds.advances_describe h.ready s
    refine proceeds (fun c r h' => ?_) (h.advances.trans hadvances) (h.holds.describe s)
      (hadvances.ready h.ready) (fun task hp => key_of_describe hp)
      (fun result hp => .inl (h.holds.answered_of_describe hp)) hk h.collected
    cases n with
    | zero => exact .error h'.advances h'.holds _
    | succ n => exact h'
  finish h := ⟨h.advances, h.holds, nofun, fun g heq => P.finish h.collected (Poll.done.inj heq)⟩

end Collecting

theorem Leaves.after_advance {r₁ : Registry} {x : Registry × Poll GrammarLoad Grammar}
    (h : Leaves P scope ss ds r₁ x) (hadvances : r₀.Advances r₁) : Leaves P scope ss ds r₀ x :=
  ⟨hadvances.trans h.advances, h.holds, h.fits, h.compiled⟩

theorem Holds.runGrammar_collect {host : String} {scanner : Scanner} {c : Collection} {current : String}
    {task : Task String DescriptionLoad} (h : r.Holds P ss (task :: ds))
    (hfits : (GrammarLoad.collect host scanner c current task).Fits P r scope)
    (hspared : ∀ k s, (GrammarLoad.collect host scanner c current task).forsaken? r = some (k, s) →
      P.forsaken k s) :
    Leaves P scope ss ds (task.poll descriptionLoader r).1
      (runGrammar (.collect host scanner c current task) r) := by
  cases hfits with
  | collect hready hkey hknown hcollected =>
    have hready' := (h.advances_description hready).ready hready
    refine proceed_spec (fun c r h' => collectRule.collectAll fun _ => h')
      (fun h' => collectRule.collectAll fun _ => h')
      (proceeds (fun c r h' => h') (.refl _) h.poll_description hready'
        (fun task' hp => (Task.key_of_poll hp).trans hkey) (fun result hp => ?_) hknown hcollected)
    rcases h.answer hp with hanswered | ⟨a, htask, hstatus, hresult⟩
    · exact .inl (hkey ▸ hanswered)
    · rw [hkey] at htask hresult
      subst htask
      exact .inr ⟨⟨_, hresult⟩, fun hs => hspared _ _ (GrammarLoad.forsaken?_waiting hstatus hs)⟩

theorem Holds.runGrammar (h : r.Holds P (load.scannerTask?.toList ++ ss) (load.descriptionTask?.toList ++ ds))
    (hfits : load.Fits P r scope)
    (hspared : ∀ host s, load.forsaken? r = some (host, s) → P.forsaken host s) :
    Leaves P scope ss ds r (runGrammar load r) := by
  cases hfits with
  | scanner task =>
    have hadvances := Holds.advances_scanner h
    have hholds := Holds.poll_scanner h
    have hok := fun v => Holds.ready_of_ok (v := v) h
    rw [runGrammar_scanner]
    rcases hp : task.poll scannerLoader r with ⟨r', p⟩
    rw [hp] at hadvances hholds hok
    cases p with
    | pending task' =>
      refine ⟨hadvances, hholds, fun load heq => ?_, nofun⟩
      cases heq
      exact .scanner task'
    | done result =>
      cases result with
      | ok v =>
        obtain ⟨rfl, hready⟩ := hok v rfl
        exact collectRule.collectAll fun _ => ⟨hadvances, hholds, hready, P.start scope⟩
      | error e => exact .error hadvances hholds e
  | collect hready hkey hknown hcollected =>
    exact (Holds.runGrammar_collect h (.collect hready hkey hknown hcollected) hspared).after_advance
      (Holds.advances_description h hready)

theorem Holds.dropGrammar
    (h : r.Holds P (load.scannerTask?.toList ++ ss) (load.descriptionTask?.toList ++ ds)) :
    (dropGrammar load r).Holds P ss ds ∧ r.Advances (dropGrammar load r) := by
  cases load with
  | scanner scope task => exact ⟨Holds.drop_scanner h, Holds.advances_drop_scanner h⟩
  | collect scope scanner c current task =>
    exact ⟨Holds.drop_description h, Holds.advances_drop_description h⟩

section Grammars

theorem grammars_scanner (t : Task Unit ScannerLoad) (r : Registry) :
    (t.poll scannerLoader r).1.grammars = r.grammars :=
  frame_scanner (·.grammars) (fun _ _ => rfl) (fun _ _ _ => rfl) t r

theorem grammars_description (t : Task String DescriptionLoad) (r : Registry) :
    (t.poll descriptionLoader r).1.grammars = r.grammars :=
  frame_description (·.grammars) (fun _ _ => rfl) (fun _ _ => rfl) t r

theorem grammars_describe (s : String) (r : Registry) : (describe s r).1.grammars = r.grammars := by
  unfold describe
  split
  next => rfl
  next => exact grammars_description _ r

theorem proceeds_same {gs : LoadCache String Grammar} {found : Collection → Registry → Prop} {c : Collection}
    {scanner : Scanner} {answer : Registry × Poll (Task String DescriptionLoad) GrammarDescription}
    (h : answer.1.grammars = gs) (hfound : ∀ c r, r.grammars = gs → found c r) :
    Proceeds scope scanner found (fun _ r => r.grammars = gs) (·.1.grammars = gs) c s answer := by
  obtain ⟨r, p⟩ := answer
  cases p with
  | pending task => exact h
  | done result =>
    cases result with
    | ok g => exact hfound _ _ h
    | error e =>
      rw [Proceeds]
      split
      next => exact h
      next => exact h

theorem collectRule_same {scanner : Scanner} {gs : LoadCache String Grammar} :
    CollectRule scope scanner (fun _ _ r => r.grammars = gs) (·.1.grammars = gs) where
  known h _ := h
  round {n c s rest r} h _ := by
    refine proceeds_same ((grammars_describe s r).trans h) fun c r h' => ?_
    cases n with
    | zero => exact h'
    | succ n => exact h'
  finish h := h

theorem grammars_runGrammar (load : GrammarLoad) (r : Registry) :
    (runGrammar load r).1.grammars = r.grammars := by
  cases load with
  | scanner scope task =>
    have hgrammars := grammars_scanner task r
    rw [runGrammar_scanner]
    rcases hp : task.poll scannerLoader r with ⟨r', p⟩
    rw [hp] at hgrammars
    cases p with
    | pending task' => exact hgrammars
    | done result =>
      cases result with
      | ok v => exact collectRule_same.collectAll fun _ => hgrammars
      | error e => exact hgrammars
  | collect scope scanner c current task =>
    rw [runGrammar_collect]
    exact proceed_spec (fun c r h => collectRule_same.collectAll fun _ => h)
      (fun h => collectRule_same.collectAll fun _ => h)
      (proceeds_same (grammars_description task r) fun c r h => h)

theorem grammars_dropGrammar (load : GrammarLoad) (r : Registry) :
    (dropGrammar load r).grammars = r.grammars := by
  cases load with
  | scanner scope task => exact task.frame_drop (l := scannerLoader) (·.grammars) (fun _ _ => rfl) (fun _ _ => rfl) r
  | collect scope scanner c current task =>
    exact task.frame_drop (l := descriptionLoader) (·.grammars) (fun _ _ => rfl) (fun _ _ => rfl) r

theorem grammarLoader_lawful : grammarLoader.Lawful where
  get_set _ _ := rfl
  get_run := grammars_runGrammar
  get_drop := grammars_dropGrammar

end Grammars

end Registry

end GrammarScopes
