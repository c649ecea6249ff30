import GrammarScopes.Loading.Registry
import GrammarScopes.Proofs.Loading.Served

/-!
The loads of a registry: what each of them changes, and a rule for the rounds in which descriptions are
collected.
-/

namespace GrammarScopes

section Frames

variable {σ κ ι α β : Type} [BEq κ] {l : Loader σ κ ι α} (f : σ → β)

theorem Task.frame_lead (hset : ∀ cache s, f (l.set cache s) = f s) (key : κ) (a : AttemptId) (load : ι)
    (s : σ) : f (lead l key a load s).1 = f (l.run load s).1 := by
  unfold lead
  split
  next s' load' hp => rw [hp]
  next s' result hp => rw [hp]; exact hset _ _

theorem Task.frame_poll (hset : ∀ cache s, f (l.set cache s) = f s)
    (hrun : ∀ load s, f (l.run load s).1 = f s) (t : Task κ ι) (s : σ) :
    f (t.poll l s).1 = f s := by
  cases t with
  | asked key load =>
    cases hs : (l.get s).slot? key with
    | none =>
      rw [poll_asked_of_empty hs, frame_lead f hset, hrun]
      exact hset _ _
    | some slot => rw [(poll_asked_of_slot load hs).1]
  | leading key a load => exact (frame_lead f hset key a load s).trans (hrun load s)
  | waiting key a => rfl

theorem Task.frame_drop (hset : ∀ cache s, f (l.set cache s) = f s)
    (hdrop : ∀ load s, f (l.drop load s) = f s) (t : Task κ ι) (s : σ) :
    f (t.drop l s) = f s := by
  cases t with
  | asked => rfl
  | leading key a load => exact (hset _ _).trans (hdrop load s)
  | waiting => rfl

end Frames

namespace Registry

variable {r : Registry} {scope s : String} {scanner : Scanner}

section Scanner

theorem runScanner_state (load : ScannerLoad) (r : Registry) :
    ∃ attempts backend, (runScanner load r).1 =
      { r with world := { r.world with attempts := attempts, backend := backend } } := by
  unfold runScanner
  split
  next => exact ⟨_, _, rfl⟩
  next isHeld failures hb =>
    cases isHeld with
    | true => exact ⟨_, _, rfl⟩
    | false =>
      cases failures with
      | zero => exact ⟨_, _, rfl⟩
      | succ n => exact ⟨_, _, rfl⟩

theorem runScanner_ok {load : ScannerLoad} (h : (runScanner load r).2 = .done (.ok scanner)) :
    scanner = .standard := by
  unfold runScanner at h
  split at h
  next => cases h; rfl
  next isHeld failures hb =>
    cases isHeld with
    | true => cases h
    | false =>
      cases failures with
      | zero => cases h; rfl
      | succ n => cases h

theorem frame_runScanner {β : Type} (f : Registry → β)
    (hworld : ∀ r attempts backend,
      f { r with world := { r.world with attempts := attempts, backend := backend } } = f r)
    (load : ScannerLoad) (r : Registry) : f (runScanner load r).1 = f r := by
  obtain ⟨attempts, backend, h⟩ := runScanner_state load r
  rw [h, hworld]

theorem scannerLoader_lawful : scannerLoader.Lawful where
  get_set _ _ := rfl
  get_run := frame_runScanner (·.scanner) fun _ _ _ => rfl
  get_drop _ _ := rfl

theorem frame_scanner {β : Type} (f : Registry → β) (hset : ∀ cache r, f (scannerLoader.set cache r) = f r)
    (hworld : ∀ r attempts backend,
      f { r with world := { r.world with attempts := attempts, backend := backend } } = f r)
    (t : Task Unit ScannerLoad) (r : Registry) : f (t.poll scannerLoader r).1 = f r :=
  Task.frame_poll f hset (frame_runScanner f hworld) t r

end Scanner

section Descriptions

def readingsWith (load : DescriptionLoad) (readings : List Reading) : List Reading :=
  if load.isStarted then readings else ⟨load.scope, load.location⟩ :: readings

theorem runDescription_eq (load : DescriptionLoad) (r : Registry) :
    runDescription load r =
      ({ r with world := { r.world with readings := readingsWith load r.world.readings } },
        if r.world.holds load.location then .pending { load with isStarted := true }
        else .done (readDescription r.world load.location)) := by
  change (if r.world.holds load.location then _ else _) = _
  by_cases h : r.world.holds load.location = true
  · rw [if_pos h, if_pos h]
    rfl
  · rw [if_neg h, if_neg h]
    rfl

theorem frame_runDescription {β : Type} (f : Registry → β)
    (hworld : ∀ r readings, f { r with world := { r.world with readings := readings } } = f r)
    (load : DescriptionLoad) (r : Registry) : f (runDescription load r).1 = f r := by
  rw [runDescription_eq, hworld]

theorem descriptionLoader_lawful : descriptionLoader.Lawful where
  get_set _ _ := rfl
  get_run := frame_runDescription (·.descriptions) fun _ _ => rfl
  get_drop _ _ := rfl

theorem frame_description {β : Type} (f : Registry → β)
    (hset : ∀ cache r, f (descriptionLoader.set cache r) = f r)
    (hworld : ∀ r readings, f { r with world := { r.world with readings := readings } } = f r)
    (t : Task String DescriptionLoad) (r : Registry) : f (t.poll descriptionLoader r).1 = f r :=
  Task.frame_poll f hset (frame_runDescription f hworld) t r

end Descriptions

section Collecting

/-- What a round of collecting leads to that looks at `current`: it may suspend or end the load, or go
on with a description, or without one. -/
def Proceeds (scope : String) (scanner : Scanner) (found skipped : Collection → Registry → Prop)
    (Q : Registry × Poll GrammarLoad Grammar → Prop) (c : Collection) (current : String) :
    Registry × Poll (Task String DescriptionLoad) GrammarDescription → Prop
  | (r, .pending task) => Q (r, .pending (.collect scope scanner c current task))
  | (r, .done (.ok g)) => found (c.add current g) r
  | (r, .done (.error e)) =>
    if current = scope then Q (r, .done (.error e)) else skipped (c.skip current) r

/-- What is to hold after one more description, of which `n` could be added. -/
def Onward (I : Nat → Collection → Registry → Prop) (Q : Registry × Poll GrammarLoad Grammar → Prop) :
    Nat → Collection → Registry → Prop
  | 0, _, r => Q (r, .done (.error (.grammar .endless)))
  | n + 1, c, r => I n c r

/-- What holds as collecting goes on for `n` more descriptions, and of what it leaves. -/
structure CollectRule (scope : String) (scanner : Scanner) (I : Nat → Collection → Registry → Prop)
    (Q : Registry × Poll GrammarLoad Grammar → Prop) : Prop where
  known : ∀ {n} {c : Collection} {s rest r}, I n { c with pending := s :: rest } r →
    c.isKnown s = true → I n { c with pending := rest } r
  round : ∀ {n} {c : Collection} {s rest r}, I n { c with pending := s :: rest } r →
    c.isKnown s = false →
    Proceeds scope scanner (Onward I Q n) (I n) Q { c with pending := rest } s (describe s r)
  finish : ∀ {n} {c : Collection} {r}, I n { c with pending := [] } r →
    Q (r, .done (compileCollected scope scanner c))

variable {found skipped : Collection → Registry → Prop} {c : Collection} {current : String}
  {Q : Registry × Poll GrammarLoad Grammar → Prop} {I : Nat → Collection → Registry → Prop} {n : Nat}
  {answer : Registry × Poll (Task String DescriptionLoad) GrammarDescription}
  {onFound onSkipped : Collection → Registry → Registry × Poll GrammarLoad Grammar}

theorem proceed_spec (hfound : ∀ c r, found c r → Q (onFound c r))
    (hskipped : skipped (c.skip current) answer.1 → Q (onSkipped (c.skip current) answer.1))
    (h : Proceeds scope scanner found skipped Q c current answer) :
    Q (proceed scope scanner c current onFound onSkipped answer) := by
  obtain ⟨r, p⟩ := answer
  cases p with
  | pending task => exact h
  | done result =>
    cases result with
    | ok g => exact hfound _ _ h
    | error e =>
      simp only [Proceeds, proceed] at h ⊢
      by_cases hs : current = scope
      · rw [if_pos hs] at h ⊢
        exact h
      · rw [if_neg hs] at h ⊢
        exact hskipped h

namespace CollectRule

variable (h : CollectRule scope scanner I Q)

include h

theorem drain (hfound : ∀ c r, Onward I Q n c r → Q (onFound c r)) :
    ∀ (rest : List String) (c : Collection) (r : Registry), I n { c with pending := rest } r →
      Q (drain scope scanner onFound rest c r) := by
  -- a description that is found leaves this walk over the pending scopes; all else shortens it
  intro rest
  induction rest with
  | nil => exact fun c r hI => h.finish hI
  | cons s rest ih =>
    intro c r hI
    rw [Registry.drain]
    cases hk : c.isKnown s with
    | true =>
      rw [if_pos rfl]
      exact ih c r (h.known hI hk)
    | false =>
      rw [if_neg (by simp)]
      exact proceed_spec hfound (fun hskip => ih _ _ hskip) (h.round hI hk)

theorem collect (n : Nat) : ∀ (c : Collection) (r : Registry), I n c r →
    Q (collect scope scanner n c r) := by
  induction n with
  | zero =>
    intro c r hI
    refine h.drain (fun c r hend => ?_) c.pending c r hI
    exact hend
  | succ n ih =>
    intro c r hI
    refine h.drain (fun c r hmore => ?_) c.pending c r hI
    exact ih c r hmore

theorem collectAll {c : Collection} (hI : ∀ n, I n c r) : Q (collectAll scope scanner c r) :=
  h.collect _ c r (hI _)

end CollectRule

end Collecting

theorem runGrammar_scanner (scope : String) (task : Task Unit ScannerLoad) (r : Registry) :
    runGrammar (.scanner scope task) r = match task.poll scannerLoader r with
      | (r, .pending task) => (r, .pending (.scanner scope task))
      | (r, .done (.ok scanner)) => collectAll scope scanner { pending := [scope] } r
      | (r, .done (.error e)) => (r, .done (.error e)) := rfl

theorem runGrammar_collect (scope : String) (scanner : Scanner) (c : Collection) (current : String)
    (task : Task String DescriptionLoad) (r : Registry) :
    runGrammar (.collect scope scanner c current task) r =
      proceed scope scanner c current (collectAll scope scanner) (collectAll scope scanner)
        (task.poll descriptionLoader r) := rfl

theorem poll_of_unmapped (h : r.table.location? scope = none) :
    r.poll (ask scope) = (r, .done (.error (.unmappedScope scope))) :=
  if_pos (Option.isNone_iff_eq_none.mpr h)

theorem poll_of_mapped {location : String} (h : r.table.location? scope = some location) :
    r.poll (ask scope) = (ask scope).poll grammarLoader r :=
  if_neg (by simp [h])

end Registry

end GrammarScopes
