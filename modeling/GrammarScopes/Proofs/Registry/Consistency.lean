import GrammarScopes.Proofs.Registry.Loads

/-!
Consistency of a registry: what its caches hold is what their loads have given, whatever is expected of
them, and the tasks of a load never give up what is loaded.
-/

namespace GrammarScopes

/-- What is expected of the results of loads, for a table and for some sources. -/
structure Promise (table : GrammarTable) where
  sources : Source → Prop
  answered : String → Except ScopeError GrammarDescription → Prop
  /-- What may have been collected for a scope when its pending scopes are looked at. -/
  collected : String → Collection → Prop
  /-- Which scopes a host may go without whose readers have been dropped. -/
  forsaken : String → String → Prop
  compiled : String → Grammar → Prop
  read : ∀ {w : World} {scope location}, sources w.source → table.location? scope = some location →
    answered scope (Registry.readDescription w location)
  unmapped : ∀ {scope}, table.location? scope = none → answered scope (.error (.unmappedScope scope))
  start : ∀ scope, collected scope { pending := [scope] }
  known : ∀ {scope s rest} {c : Collection}, collected scope { c with pending := s :: rest } →
    c.isKnown s = true → collected scope { c with pending := rest }
  found : ∀ {scope s rest} {c : Collection} {g}, collected scope { c with pending := s :: rest } →
    c.isKnown s = false → answered s (.ok g) →
    collected scope (({ c with pending := rest } : Collection).add s g)
  skip : ∀ {scope s rest} {c : Collection} {e}, collected scope { c with pending := s :: rest } →
    c.isKnown s = false → s ≠ scope → answered s (.error e) →
    collected scope (({ c with pending := rest } : Collection).skip s)
  lose : ∀ {scope s rest} {c : Collection}, collected scope { c with pending := s :: rest } →
    c.isKnown s = false → s ≠ scope → forsaken scope s →
    collected scope (({ c with pending := rest } : Collection).skip s)
  finish : ∀ {scope} {c : Collection} {g}, collected scope { c with pending := [] } →
    Registry.compileCollected scope .standard c = .ok g → compiled scope g

def Promise.nothing (table : GrammarTable) : Promise table where
  sources _ := True
  answered _ _ := True
  collected _ _ := True
  forsaken _ _ := True
  compiled _ _ := True
  read _ _ := trivial
  unmapped _ := trivial
  start _ := trivial
  known _ _ := trivial
  found _ _ _ := trivial
  skip _ _ _ _ := trivial
  lose _ _ _ _ := trivial
  finish _ _ := trivial

def Task.Locates (table : GrammarTable) : Task String DescriptionLoad → Prop
  | asked key load | leading key _ load =>
    load.scope = key ∧ table.location? key = some load.location
  | waiting .. => True

def World.readingsOf (w : World) (scope : String) : List Reading :=
  w.readings.filter (·.scope == scope)

namespace Registry

variable {table : GrammarTable} {P : Promise table} {r r' r'' : Registry} {scope s : String}
  {ss : List (Task Unit ScannerLoad)} {ds : List (Task String DescriptionLoad)}

/-- The scanner and the descriptions of a registry are as the tasks have them that ask for them. -/
structure Holds (P : Promise table) (r : Registry) (ss : List (Task Unit ScannerLoad))
    (ds : List (Task String DescriptionLoad)) : Prop where
  table_eq : r.table = table
  source : P.sources r.world.source
  scanner : ∃ notes, r.scanner.Serves ss notes ∧ ∀ a v, .finished () a (.ok v) ∈ notes → v = .standard
  descriptions : ∃ notes, r.descriptions.Serves ds notes ∧
    ∀ key a result, .finished key a result ∈ notes → P.answered key result
  located : ∀ t ∈ ds, t.Locates table

/-- What is loaded stays loaded and is read no more, and nothing is read before the scanner has come
up. -/
structure Keeps (r r' : Registry) : Prop where
  table_eq : r'.table = r.table
  ready : r.isReady = true → r'.isReady = true
  described : ∀ scope g, r.descriptions.value? scope = some g →
    r'.descriptions.value? scope = some g ∧ r'.world.readingsOf scope = r.world.readingsOf scope
  compiled : ∀ scope g, r.cached? scope = some g → r'.cached? scope = some g
  unread : r'.isReady = false → r'.world.readings = r.world.readings

/-- As tasks go on, moreover, a text that can be read is read to be kept. -/
structure Advances (r r' : Registry) : Prop extends Keeps r r' where
  source_eq : r'.world.source = r.world.source
  held_eq : r'.world.held = r.world.held
  read : ∀ scope location g, r.table.location? scope = some location →
    r.world.holds location = false → readDescription r.world location = .ok g →
    r'.world.readingsOf scope = r.world.readingsOf scope ∨
      r'.descriptions.value? scope = some g ∧
        r'.world.readingsOf scope = ⟨scope, location⟩ :: r.world.readingsOf scope

theorem holds_congr {w w' : World} (hsource : w'.source = w.source) (hheld : w'.held = w.held)
    (location : String) : w'.holds location = w.holds location := by
  unfold World.holds
  rw [hsource, hheld]

theorem readDescription_congr {w w' : World} (hsource : w'.source = w.source) (location : String) :
    readDescription w' location = readDescription w location := by
  unfold readDescription
  rw [hsource]

theorem keeps_with_world {w : World} (h : w.readings = r.world.readings) :
    r.Keeps { r with world := w } where
  table_eq := rfl
  ready hready := hready
  described scope g hv := ⟨hv, by rw [World.readingsOf, h, World.readingsOf]⟩
  compiled scope g hv := hv
  unread _ := h

theorem Keeps.trans (h : r.Keeps r') (h' : r'.Keeps r'') : r.Keeps r'' where
  table_eq := h'.table_eq.trans h.table_eq
  ready hr := h'.ready (h.ready hr)
  described scope g hv := by
    obtain ⟨hv', heq⟩ := h.described scope g hv
    obtain ⟨hv'', heq'⟩ := h'.described scope g hv'
    exact ⟨hv'', heq'.trans heq⟩
  compiled scope g hv := h'.compiled scope g (h.compiled scope g hv)
  unread hnot := by
    have hnot' : r'.isReady = false := by
      cases hr : r'.isReady with
      | false => rfl
      | true => exact nomatch hnot.symm.trans (h'.ready hr)
    exact (h'.unread hnot).trans (h.unread hnot')

namespace Advances

theorem refl (r : Registry) : r.Advances r where
  table_eq := rfl
  ready h := h
  described _ _ h := ⟨h, rfl⟩
  compiled _ _ h := h
  unread _ := rfl
  source_eq := rfl
  held_eq := rfl
  read _ _ _ _ _ _ := .inl rfl

theorem trans (h : r.Advances r') (h' : r'.Advances r'') : r.Advances r'' where
  toKeeps := h.toKeeps.trans h'.toKeeps
  source_eq := h'.source_eq.trans h.source_eq
  held_eq := h'.held_eq.trans h.held_eq
  read scope location g hmapped hheld hg := by
    rcases h.read scope location g hmapped hheld hg with heq | ⟨hv, heq⟩
    · have hheld' := (holds_congr h.source_eq h.held_eq location).trans hheld
      have hg' := (readDescription_congr h.source_eq location).trans hg
      have h := h'.read scope location g (h.table_eq ▸ hmapped) hheld' hg'
      rwa [heq] at h
    · obtain ⟨hv', heq'⟩ := h'.described scope g hv
      exact .inr ⟨hv', heq'.trans heq⟩

theorem of_unread (htable : r'.table = r.table) (hsource : r'.world.source = r.world.source)
    (hheld : r'.world.held = r.world.held) (hreadings : r'.world.readings = r.world.readings)
    (hgrammars : r'.grammars = r.grammars) (hready : r.isReady = true → r'.isReady = true)
    (hdescribed : ∀ scope g, r.descriptions.value? scope = some g →
      r'.descriptions.value? scope = some g) : r.Advances r' := by
  have hof : ∀ scope, r'.world.readingsOf scope = r.world.readingsOf scope := fun scope => by
    rw [World.readingsOf, hreadings]
    rfl
  exact {
    table_eq := htable
    ready := hready
    described scope g hv := ⟨hdescribed scope g hv, hof scope⟩
    compiled scope g hv := by
      rw [cached?, hgrammars]
      exact hv
    unread _ := hreadings
    source_eq := hsource
    held_eq := hheld
    read scope _ _ _ _ _ := .inl (hof scope) }

theorem with_grammars {c c' : LoadCache String Grammar}
    (h : ({ r with grammars := c } : Registry).Advances r')
    (hcompiled : ∀ scope g, r.cached? scope = some g → c'.value? scope = some g) :
    r.Advances { r' with grammars := c' } where
  table_eq := h.table_eq
  ready := h.ready
  described := h.described
  compiled := hcompiled
  unread := h.unread
  source_eq := h.source_eq
  held_eq := h.held_eq
  read := h.read

end Advances

theorem Holds.with_grammars (h : r.Holds P ss ds) (c : LoadCache String Grammar) :
    ({ r with grammars := c } : Registry).Holds P ss ds :=
  ⟨h.table_eq, h.source, h.scanner, h.descriptions, h.located⟩

theorem isReady_congr (h : r'.scanner = r.scanner) : r'.isReady = r.isReady := by
  unfold isReady
  rw [h]

theorem isReady_iff : r.isReady = true ↔ ∃ v, r.scanner.value? () = some v := Option.isSome_iff_exists

section Scanner

variable {t : Task Unit ScannerLoad} {v : Scanner}

theorem Holds.poll_scanner (h : r.Holds P (t :: ss) ds) :
    (t.poll scannerLoader r).1.Holds P ((t.poll scannerLoader r).2.task?.toList ++ ss) ds where
  table_eq := (frame_scanner (·.table) (fun _ _ => rfl) (fun _ _ _ => rfl) t r).trans h.table_eq
  source := by
    rw [frame_scanner (·.world.source) (fun _ _ => rfl) (fun _ _ _ => rfl) t r]
    exact h.source
  scanner := by
    obtain ⟨notes, hserves, hstandard⟩ := h.scanner
    refine ⟨_, hserves.poll scannerLoader_lawful, fun a v hmem => ?_⟩
    rcases List.mem_append.mp hmem with hmem | hmem
    · obtain ⟨-, -, load, r', -, hrun⟩ := Task.finished_of_mem_pollNotes hmem
      exact runScanner_ok hrun
    · exact hstandard a v hmem
  descriptions := by
    rw [frame_scanner (·.descriptions) (fun _ _ => rfl) (fun _ _ _ => rfl) t r]
    exact h.descriptions
  located := h.located

theorem Holds.drop_scanner (h : r.Holds P (t :: ss) ds) : (t.drop scannerLoader r).Holds P ss ds where
  table_eq := (t.frame_drop (·.table) (fun _ _ => rfl) (fun _ _ => rfl) r).trans h.table_eq
  source := by
    rw [t.frame_drop (·.world.source) (fun _ _ => rfl) (fun _ _ => rfl) r]
    exact h.source
  scanner := by
    obtain ⟨notes, hserves, hstandard⟩ := h.scanner
    refine ⟨_, hserves.drop scannerLoader_lawful, fun a v hmem => ?_⟩
    rcases List.mem_append.mp hmem with hmem | hmem
    · obtain ⟨key, b, heq⟩ := Task.dropped_of_mem_dropNotes hmem
      cases heq
    · exact hstandard a v hmem
  descriptions := by
    rw [t.frame_drop (·.descriptions) (fun _ _ => rfl) (fun _ _ => rfl) r]
    exact h.descriptions
  located := h.located

theorem Holds.advances_scanner (h : r.Holds P (t :: ss) ds) : r.Advances (t.poll scannerLoader r).1 := by
  obtain ⟨notes, hserves, -⟩ := h.scanner
  have hdescriptions := frame_scanner (·.descriptions) (fun _ _ => rfl) (fun _ _ _ => rfl) t r
  refine .of_unread (frame_scanner (·.table) (fun _ _ => rfl) (fun _ _ _ => rfl) t r)
    (frame_scanner (·.world.source) (fun _ _ => rfl) (fun _ _ _ => rfl) t r)
    (frame_scanner (·.world.held) (fun _ _ => rfl) (fun _ _ _ => rfl) t r)
    (frame_scanner (·.world.readings) (fun _ _ => rfl) (fun _ _ _ => rfl) t r)
    (frame_scanner (·.grammars) (fun _ _ => rfl) (fun _ _ _ => rfl) t r) (fun hready => ?_)
    (fun scope g hv => hdescriptions ▸ hv)
  obtain ⟨v, hv⟩ := isReady_iff.mp hready
  exact isReady_iff.mpr ⟨v, hserves.value?_poll scannerLoader_lawful hv⟩

theorem Holds.advances_drop_scanner (h : r.Holds P (t :: ss) ds) : r.Advances (t.drop scannerLoader r) := by
  obtain ⟨notes, hserves, -⟩ := h.scanner
  have hworld := t.frame_drop (l := scannerLoader) (·.world) (fun _ _ => rfl) (fun _ _ => rfl) r
  have hdescriptions := t.frame_drop (l := scannerLoader) (·.descriptions) (fun _ _ => rfl) (fun _ _ => rfl) r
  refine .of_unread (t.frame_drop (·.table) (fun _ _ => rfl) (fun _ _ => rfl) r) (congrArg (·.source) hworld)
    (congrArg (·.held) hworld) (congrArg (·.readings) hworld)
    (t.frame_drop (·.grammars) (fun _ _ => rfl) (fun _ _ => rfl) r) (fun hready => ?_)
    (fun scope g hv => hdescriptions ▸ hv)
  obtain ⟨v, hv⟩ := isReady_iff.mp hready
  exact isReady_iff.mpr ⟨v, hserves.value?_drop scannerLoader_lawful hv⟩

theorem Holds.ready_of_ok (h : r.Holds P (t :: ss) ds)
    (hp : (t.poll scannerLoader r).2 = .done (.ok v)) :
    v = .standard ∧ (t.poll scannerLoader r).1.isReady = true := by
  obtain ⟨notes, hserves, hstandard⟩ := h.scanner
  have hv := hserves.value?_of_done scannerLoader_lawful hp
  refine ⟨?_, isReady_iff.mpr ⟨v, hv⟩⟩
  obtain ⟨notes, hserves, hstandard⟩ := h.poll_scanner.scanner
  obtain ⟨a, hmem⟩ := hserves.records.ready_iff.mp (LoadCache.value?_eq_some_iff.mp hv)
  exact hstandard a v hmem

end Scanner

section Descriptions

variable {t t' : Task String DescriptionLoad} {a : AttemptId} {load : DescriptionLoad}
  {result : Except ScopeError GrammarDescription}

theorem located_of_runs (hruns : t.Runs descriptionLoader r a load r') (ht : t.Locates table) :
    r'.world = r.world ∧ load.scope = t.key ∧ table.location? t.key = some load.location := by
  cases hruns with
  | opens hs => exact ⟨rfl, ht⟩
  | leads => exact ⟨rfl, ht⟩

theorem locates_of_poll (ht : t.Locates table) (hp : (t.poll descriptionLoader r).2 = .pending t') :
    t'.Locates table := by
  rcases Task.runs_or_idle (l := descriptionLoader) t r with
    ⟨a, load, r', hruns⟩ | ⟨-, -, -, ⟨a, hidle⟩ | ⟨result, hidle⟩⟩
  · obtain ⟨-, hlocates⟩ := located_of_runs hruns ht
    rw [Task.poll_of_runs hruns] at hp
    cases hrun : (runDescription load r').2 with
    | done result =>
      rw [Task.lead_of_done hrun] at hp
      cases hp
    | pending load' =>
      rw [Task.lead_of_pending hrun] at hp
      cases hp
      rw [runDescription_eq] at hrun
      split at hrun
      next => cases hrun; exact hlocates
      next => cases hrun
  · rw [hidle] at hp
    cases hp
    trivial
  · rw [hidle] at hp
    cases hp

theorem Holds.answered_of_finished (h : r.Holds P ss (t :: ds))
    (hmem : .finished s a result ∈ t.pollNotes descriptionLoader r) : P.answered s result := by
  obtain ⟨rfl, -, load, r', hruns, hrun⟩ := Task.finished_of_mem_pollNotes hmem
  obtain ⟨hworld, -, hlocation⟩ := located_of_runs hruns (h.located t List.mem_cons_self)
  change (runDescription load r').2 = _ at hrun
  rw [runDescription_eq] at hrun
  split at hrun
  next => cases hrun
  next =>
    cases hrun
    exact P.read (hworld ▸ h.source) hlocation

theorem Holds.poll_description (h : r.Holds P ss (t :: ds)) :
    (t.poll descriptionLoader r).1.Holds P ss ((t.poll descriptionLoader r).2.task?.toList ++ ds) where
  table_eq := (frame_description (·.table) (fun _ _ => rfl) (fun _ _ => rfl) t r).trans h.table_eq
  source := by
    rw [frame_description (·.world.source) (fun _ _ => rfl) (fun _ _ => rfl) t r]
    exact h.source
  scanner := by
    rw [frame_description (·.scanner) (fun _ _ => rfl) (fun _ _ => rfl) t r]
    exact h.scanner
  descriptions := by
    obtain ⟨notes, hserves, hanswered⟩ := h.descriptions
    refine ⟨_, hserves.poll descriptionLoader_lawful, fun key a result hmem => ?_⟩
    rcases List.mem_append.mp hmem with hmem | hmem
    · exact h.answered_of_finished hmem
    · exact hanswered key a result hmem
  located t' hmem := by
    rcases List.mem_append.mp hmem with hmem | hmem
    · cases hp : (t.poll descriptionLoader r).2 with
      | pending t'' =>
        rw [hp] at hmem
        rw [List.mem_singleton.mp hmem]
        exact locates_of_poll (h.located t List.mem_cons_self) hp
      | done result =>
        rw [hp] at hmem
        cases hmem
    · exact h.located t' (List.mem_cons_of_mem _ hmem)

theorem Holds.drop_description (h : r.Holds P ss (t :: ds)) :
    (t.drop descriptionLoader r).Holds P ss ds where
  table_eq := (t.frame_drop (·.table) (fun _ _ => rfl) (fun _ _ => rfl) r).trans h.table_eq
  source := by
    rw [t.frame_drop (·.world.source) (fun _ _ => rfl) (fun _ _ => rfl) r]
    exact h.source
  scanner := by
    rw [t.frame_drop (·.scanner) (fun _ _ => rfl) (fun _ _ => rfl) r]
    exact h.scanner
  descriptions := by
    obtain ⟨notes, hserves, hanswered⟩ := h.descriptions
    refine ⟨_, hserves.drop descriptionLoader_lawful, fun key a result hmem => ?_⟩
    rcases List.mem_append.mp hmem with hmem | hmem
    · obtain ⟨key, b, heq⟩ := Task.dropped_of_mem_dropNotes hmem
      cases heq
    · exact hanswered key a result hmem
  located t' hmem := h.located t' (List.mem_cons_of_mem _ hmem)

theorem Holds.advances_drop_description (h : r.Holds P ss (t :: ds)) :
    r.Advances (t.drop descriptionLoader r) := by
  obtain ⟨notes, hserves, -⟩ := h.descriptions
  have hworld := t.frame_drop (l := descriptionLoader) (·.world) (fun _ _ => rfl) (fun _ _ => rfl) r
  have hscanner := t.frame_drop (l := descriptionLoader) (·.scanner) (fun _ _ => rfl) (fun _ _ => rfl) r
  refine .of_unread (t.frame_drop (·.table) (fun _ _ => rfl) (fun _ _ => rfl) r) (congrArg (·.source) hworld)
    (congrArg (·.held) hworld) (congrArg (·.readings) hworld)
    (t.frame_drop (·.grammars) (fun _ _ => rfl) (fun _ _ => rfl) r) (fun hready => ?_)
    (fun scope g hv => hserves.value?_drop descriptionLoader_lawful hv)
  exact (isReady_congr hscanner).trans hready

theorem Holds.answer (h : r.Holds P ss (t :: ds)) (hp : (t.poll descriptionLoader r).2 = .done result) :
    P.answered t.key result ∨ ∃ a, t = .waiting t.key a ∧
      r.descriptions.status? a = some .abandoned ∧ result = .error (.abandoned (Text.quoted t.key)) := by
  obtain ⟨notes, hserves, hanswered⟩ := h.descriptions
  -- the attempt has ended in this poll, or it is noted how it ended before
  rcases hserves.finished_or_dropped hp with ⟨a, hmem⟩ | hdropped
  · refine .inl ?_
    rcases List.mem_append.mp hmem with hmem | hmem
    · exact h.answered_of_finished hmem
    · exact hanswered _ a result hmem
  · exact .inr hdropped

theorem readings_of_runs (hruns : t.Runs descriptionLoader r a load r') (ht : t.Locates table) :
    (t.poll descriptionLoader r).1.world.readings = readingsWith load r.world.readings := by
  obtain ⟨hworld, -⟩ := located_of_runs hruns ht
  have hframe := Task.frame_lead (l := descriptionLoader) (·.world.readings) (fun _ _ => rfl) t.key a load r'
  rw [Task.poll_of_runs hruns, hframe, ← hworld]
  exact congrArg (fun x => x.1.world.readings) (runDescription_eq load r')

theorem done_of_runs {location : String} (hruns : t.Runs descriptionLoader r a load r')
    (ht : t.Locates table) (hlocation : load.location = location)
    (hheld : r.world.holds location = false) :
    (t.poll descriptionLoader r).2 = .done (readDescription r.world location) := by
  obtain ⟨hworld, -⟩ := located_of_runs hruns ht
  have hrun : (runDescription load r').2 = .done (readDescription r.world location) := by
    rw [runDescription_eq, hworld, hlocation, hheld]
    rfl
  rw [Task.poll_of_runs hruns, Task.lead_of_done hrun]

theorem filter_readingsWith (load : DescriptionLoad) (readings : List Reading) (hs : load.scope ≠ s) :
    (readingsWith load readings).filter (·.scope == s) = readings.filter (·.scope == s) := by
  unfold readingsWith
  split
  next => rfl
  next => exact List.filter_cons_of_neg (by simpa using hs)

theorem readingsOf_of_runs (hruns : t.Runs descriptionLoader r a load r') (ht : t.Locates table) :
    (t.poll descriptionLoader r).1.world.readingsOf t.key =
      if load.isStarted then r.world.readingsOf t.key
      else ⟨t.key, load.location⟩ :: r.world.readingsOf t.key := by
  obtain ⟨-, hscope, -⟩ := located_of_runs hruns ht
  rw [World.readingsOf, readings_of_runs hruns ht, readingsWith]
  split
  next => rfl
  next => rw [List.filter_cons_of_pos (by simp [hscope]), hscope, World.readingsOf]

theorem readingsOf_of_runs_ne (hruns : t.Runs descriptionLoader r a load r') (ht : t.Locates table)
    (hs : s ≠ t.key) :
    (t.poll descriptionLoader r).1.world.readingsOf s = r.world.readingsOf s := by
  obtain ⟨-, hscope, -⟩ := located_of_runs hruns ht
  rw [World.readingsOf, readings_of_runs hruns ht]
  exact filter_readingsWith load _ (hscope ▸ hs.symm)

theorem Holds.advances_description (h : r.Holds P ss (t :: ds)) (hready : r.isReady = true) :
    r.Advances (t.poll descriptionLoader r).1 := by
  rcases Task.runs_or_idle (l := descriptionLoader) t r with ⟨a, load, r', hruns⟩ | ⟨-, hidle, -⟩
  · obtain ⟨notes, hserves, -⟩ := h.descriptions
    have ht := h.located t List.mem_cons_self
    obtain ⟨-, -, hlocation⟩ := located_of_runs hruns ht
    have hempty := hserves.value?_of_runs hruns
    have hready' : (t.poll descriptionLoader r).1.isReady = true :=
      (isReady_congr (frame_description (·.scanner) (fun _ _ => rfl) (fun _ _ => rfl) t r)).trans hready
    refine ⟨⟨frame_description (·.table) (fun _ _ => rfl) (fun _ _ => rfl) t r, fun _ => hready',
        fun s g hv => ?_, fun s g hv => ?_, fun hnot => ?_⟩,
      frame_description (·.world.source) (fun _ _ => rfl) (fun _ _ => rfl) t r,
      frame_description (·.world.held) (fun _ _ => rfl) (fun _ _ => rfl) t r,
      fun s location g hmapped hheld hg => ?_⟩
    · -- what is read is only a text whose description is not there
      refine ⟨hserves.value?_poll descriptionLoader_lawful hv, readingsOf_of_runs_ne hruns ht ?_⟩
      rintro rfl
      exact nomatch hempty.symm.trans hv
    · rw [cached?, frame_description (·.grammars) (fun _ _ => rfl) (fun _ _ => rfl) t r]
      exact hv
    · exact nomatch hnot.symm.trans hready'
    · by_cases hs : s = t.key
      · subst hs
        have hlocation' : load.location = location :=
          Option.some.inj (hlocation.symm.trans (h.table_eq ▸ hmapped))
        have hvalue := hserves.value?_of_done descriptionLoader_lawful
          (hg ▸ done_of_runs hruns ht hlocation' hheld)
        rw [readingsOf_of_runs hruns ht, hlocation']
        cases load.isStarted with
        | true => exact .inl rfl
        | false => exact .inr ⟨hvalue, rfl⟩
      · exact .inl (readingsOf_of_runs_ne hruns ht hs)
  · rw [hidle]
    exact .refl r

end Descriptions

section Describing

variable {result : Except ScopeError GrammarDescription} {t : Task String DescriptionLoad}

theorem describe_of_unmapped (h : r.table.location? s = none) :
    describe s r = (r, .done (.error (.unmappedScope s))) := by
  rw [describe, h]

theorem describe_of_mapped {location : String} (h : r.table.location? s = some location) :
    describe s r = (Task.asked s ⟨s, location, false⟩).poll descriptionLoader r := by
  rw [describe, h]

variable (h : r.Holds P ss ds)

include h

theorem Holds.asked {location : String} (hs : r.table.location? s = some location) :
    r.Holds P ss (.asked s ⟨s, location, false⟩ :: ds) where
  table_eq := h.table_eq
  source := h.source
  scanner := h.scanner
  descriptions := by
    obtain ⟨notes, hserves, hanswered⟩ := h.descriptions
    exact ⟨notes, LoadCache.Serves.asked_cons_iff.mpr hserves, hanswered⟩
  located t hmem := by
    rcases List.mem_cons.mp hmem with rfl | hmem
    · exact ⟨rfl, h.table_eq ▸ hs⟩
    · exact h.located t hmem

theorem Holds.describe (s : String) :
    (describe s r).1.Holds P ss ((describe s r).2.task?.toList ++ ds) := by
  cases hs : r.table.location? s with
  | none =>
    rw [describe_of_unmapped hs]
    exact h
  | some location =>
    rw [describe_of_mapped hs]
    exact (h.asked hs).poll_description

theorem Holds.advances_describe (hready : r.isReady = true) (s : String) :
    r.Advances (Registry.describe s r).1 := by
  cases hs : r.table.location? s with
  | none =>
    rw [describe_of_unmapped hs]
    exact .refl r
  | some location =>
    rw [describe_of_mapped hs]
    exact (h.asked hs).advances_description hready

theorem Holds.answered_of_describe (hp : (Registry.describe s r).2 = .done result) : P.answered s result := by
  cases hs : r.table.location? s with
  | none =>
    rw [describe_of_unmapped hs] at hp
    cases hp
    exact P.unmapped (h.table_eq ▸ hs)
  | some location =>
    rw [describe_of_mapped hs] at hp
    rcases (h.asked hs).answer hp with hanswered | ⟨a, heq, -⟩
    · exact hanswered
    · cases heq

omit h in
theorem key_of_describe (hp : (Registry.describe s r).2 = .pending t) : t.key = s := by
  cases hs : r.table.location? s with
  | none =>
    rw [describe_of_unmapped hs] at hp
    cases hp
  | some location =>
    rw [describe_of_mapped hs] at hp
    exact Task.key_of_poll hp

end Describing

end Registry

end GrammarScopes
