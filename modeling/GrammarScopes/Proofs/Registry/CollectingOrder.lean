import GrammarScopes.Proofs.Registry.Closure
import Mathlib.Order.Bounds.Basic

/-!
Pending scopes in any order: whichever is looked at next, collecting comes to an end, and what has been
found then are the scopes that a grammar needs.
-/

namespace GrammarScopes

namespace Collection

variable {lookup : String → Except ScopeError GrammarDescription} {scope s k : String} {rest loaded : List String}
  {c c' : Collection} {d g : GrammarDescription} {e : ScopeError}

/-- The sets with a scope that have with each of their scopes what its grammar embeds and can be loaded. -/
def closedSets (lookup : String → Except ScopeError GrammarDescription) (scope : String) : Set (Set String) :=
  {K | scope ∈ K ∧
    ∀ s ∈ K, ∀ g, lookup s = .ok g → ∀ k ∈ g.externalScopes, (∃ g', lookup k = .ok g') → k ∈ K}

/-- One of the pending scopes is looked at, whichever it is. -/
def Visits (lookup : String → Except ScopeError GrammarDescription) (scope s : String) (c c' : Collection) :
    Prop :=
  ∃ rest, c.pending.Perm (s :: rest) ∧ next? lookup scope { c with pending := s :: rest } = some c'

/-- What may have been collected when pending scopes are looked at in some order, and the scopes whose
descriptions have been asked for meanwhile. -/
inductive Collects (lookup : String → Except ScopeError GrammarDescription) (scope : String) :
    List String → Collection → Prop
  | start : Collects lookup scope [] { pending := [scope] }
  | visit {loaded : List String} {s : String} {c c' : Collection} (h : Collects lookup scope loaded c)
      (hvisit : Visits lookup scope s c c') :
      Collects lookup scope (if c.isKnown s then loaded else s :: loaded) c'

theorem Visits.cases (h : Visits lookup scope s c c') : ∃ rest, c.pending.Perm (s :: rest) ∧
    (c.isKnown s = true ∧ c' = { c with pending := rest } ∨
      c.isKnown s = false ∧ (∃ g, lookup s = .ok g ∧ c' = ({ c with pending := rest } : Collection).add s g) ∨
      c.isKnown s = false ∧ s ≠ scope ∧
        (∃ e, lookup s = .error e) ∧ c' = ({ c with pending := rest } : Collection).skip s) := by
  obtain ⟨rest, hperm, hnext⟩ := h
  refine ⟨rest, hperm, ?_⟩
  cases hk : c.isKnown s with
  | true =>
    rw [next?_known hk] at hnext
    exact .inl ⟨rfl, (Option.some.inj hnext).symm⟩
  | false =>
    cases hs : lookup s with
    | ok g =>
      rw [next?_found hk hs] at hnext
      exact .inr (.inl ⟨rfl, g, rfl, (Option.some.inj hnext).symm⟩)
    | error e =>
      rw [next?_skip hk hs] at hnext
      split at hnext
      next => cases hnext
      next hne => exact .inr (.inr ⟨rfl, hne, ⟨e, rfl⟩, (Option.some.inj hnext).symm⟩)

theorem exists_next (hscope : lookup scope = .ok d) (c : Collection) (s : String) (rest : List String) :
    ∃ c', next? lookup scope { c with pending := s :: rest } = some c' := by
  cases hk : c.isKnown s with
  | true => exact ⟨_, next?_known hk⟩
  | false =>
    cases hs : lookup s with
    | ok g => exact ⟨_, next?_found hk hs⟩
    | error e =>
      have hne : s ≠ scope := by
        rintro rfl
        cases hscope.symm.trans hs
      exact ⟨_, (next?_skip hk hs).trans (if_neg hne)⟩

theorem visits_of_next (h : next? lookup scope c = some c') : ∃ s, Visits lookup scope s c c' := by
  obtain ⟨found, missing, pending⟩ := c
  cases pending with
  | nil => cases h
  | cons s rest => exact ⟨s, rest, .refl _, h⟩

theorem Gathered.exists_collects (h : Gathered lookup scope c) : ∃ loaded, Collects lookup scope loaded c := by
  induction h with
  | refl => exact ⟨[], .start⟩
  | tail _ hc ih =>
    obtain ⟨loaded, hcollects⟩ := ih
    obtain ⟨s, hvisit⟩ := visits_of_next hc
    exact ⟨_, hcollects.visit hvisit⟩

section Ending

def unfound (mapped : List String) (c : Collection) : Nat :=
  (mapped.filter (· ∉ c.found.map (·.1))).length

theorem unfound_add_lt {mapped : List String} (hk : c.isKnown s = false) (hs : s ∈ mapped) :
    unfound mapped (c.add s g) < unfound mapped c := by
  have hmem (k : String) : k ∈ (c.add s g).found.map (·.1) ↔ k = s ∨ k ∈ c.found.map (·.1) := by
    rw [((perm_found_add hk g).map (·.1)).mem_iff, List.map_cons, List.mem_cons]
  have hfilter : mapped.filter (· ∉ (c.add s g).found.map (·.1)) =
      (mapped.filter (· ∉ c.found.map (·.1))).filter (· ≠ s) := by
    rw [List.filter_filter]
    refine List.filter_congr fun k _ => ?_
    simp only [hmem, not_or, Bool.decide_and, ne_eq]
  have hleft : s ∈ mapped.filter (· ∉ c.found.map (·.1)) :=
    List.mem_filter.mpr ⟨hs, decide_eq_true (not_mem_found hk)⟩
  rw [unfound, unfound, hfilter]
  exact List.length_filter_lt_length_iff_exists.mpr ⟨s, hleft, by simp⟩

/-- Pending scopes cannot be looked at for ever, in whatever order, if there are only so many descriptions:
at each visit one more of them is found, or fewer scopes are left pending. -/
theorem visits_wellFounded {mapped : List String} (hmapped : ∀ s g, lookup s = .ok g → s ∈ mapped)
    (scope : String) : WellFounded fun c' c => ∃ s, Visits lookup scope s c c' := by
  refine Subrelation.wf (r := InvImage (Prod.Lex (· < ·) (· < ·)) fun c : Collection =>
    (unfound mapped c, c.pending.length)) ?_ (InvImage.wf _ (wellFounded_lt.prod_lex wellFounded_lt))
  rintro c' c ⟨s, hvisit⟩
  obtain ⟨rest, hperm, ⟨-, rfl⟩ | ⟨hk, g, hs, rfl⟩ | ⟨-, -, -, rfl⟩⟩ := hvisit.cases
  · refine Prod.Lex.right _ ?_
    rw [hperm.length_eq]
    exact Nat.lt_succ_self _
  · refine Prod.Lex.left _ _ ?_
    exact unfound_add_lt (c := { c with pending := rest }) hk (hmapped s g hs)
  · refine Prod.Lex.right _ ?_
    rw [hperm.length_eq]
    exact Nat.lt_succ_self _

theorem pending_eq_nil (hscope : lookup scope = .ok d) (hend : ∀ s c', ¬ Visits lookup scope s c c') :
    c.pending = [] := by
  refine List.eq_nil_iff_forall_not_mem.mpr fun s hs => ?_
  obtain ⟨c', hnext⟩ := exists_next hscope c s (c.pending.erase s)
  exact hend s c' ⟨_, List.perm_cons_erase hs, hnext⟩

theorem exists_gathered_end {mapped : List String} (hmapped : ∀ s g, lookup s = .ok g → s ∈ mapped)
    (hscope : lookup scope = .ok d) : ∃ c, Gathered lookup scope c ∧ c.pending = [] := by
  have hfrom : ∀ c, Gathered lookup scope c → ∃ c', Gathered lookup scope c' ∧ c'.pending = [] := by
    intro c
    induction c using (visits_wellFounded hmapped scope).induction with
    | _ c ih =>
      intro hc
      obtain ⟨found, missing, pending⟩ := c
      cases pending with
      | nil => exact ⟨_, hc, rfl⟩
      | cons s rest =>
        obtain ⟨c', hnext⟩ := exists_next hscope ⟨found, missing, []⟩ s rest
        exact ih c' (visits_of_next hnext) (hc.next hnext)
  exact hfrom _ .refl

end Ending

section Closure

/-- What has been collected when the description of the scope itself is `d`, in whatever order: nothing has been
asked for twice, what has been found is needed, and what it needs is known or pending. -/
structure Upholds (lookup : String → Except ScopeError GrammarDescription) (scope : String) (loaded : List String)
    (c : Collection) : Prop where
  nodup : loaded.Nodup
  loaded_iff : ∀ s, s ∈ loaded ↔ c.isKnown s = true
  sorted : Dictionary.Sorted c.found
  found : ∀ e ∈ c.found, lookup e.1 = .ok e.2
  missing : ∀ s ∈ c.missing, ∃ e, lookup s = .error e
  reached : ∀ s, (s = scope ∨ ∃ e ∈ c.found, s ∈ e.2.externalScopes) → c.isKnown s = true ∨ s ∈ c.pending
  within : ∀ K ∈ closedSets lookup scope,
    (∀ e ∈ c.found, e.1 ∈ K) ∧ ∀ s ∈ c.pending, (∃ g, lookup s = .ok g) → s ∈ K

namespace Upholds

theorem start : Upholds lookup scope [] { pending := [scope] } where
  nodup := List.nodup_nil
  loaded_iff s := by simp [isKnown]
  sorted := List.Pairwise.nil
  found := nofun
  missing := nofun
  reached := by
    rintro s (rfl | ⟨e, he, -⟩)
    · exact .inr List.mem_cons_self
    · cases he
  within K hK := by
    refine ⟨nofun, fun s hs _ => ?_⟩
    rw [List.mem_singleton.mp hs]
    exact hK.1

theorem perm {pending : List String} (h : Upholds lookup scope loaded c) (hperm : c.pending.Perm pending) :
    Upholds lookup scope loaded { c with pending := pending } where
  nodup := h.nodup
  loaded_iff := h.loaded_iff
  sorted := h.sorted
  found := h.found
  missing := h.missing
  reached s hs := (h.reached s hs).imp_right hperm.mem_iff.mp
  within K hK := ⟨(h.within K hK).1, fun s hs => (h.within K hK).2 s (hperm.mem_iff.mpr hs)⟩

theorem known (h : Upholds lookup scope loaded { c with pending := s :: rest }) (hk : c.isKnown s = true) :
    Upholds lookup scope loaded { c with pending := rest } where
  nodup := h.nodup
  loaded_iff := h.loaded_iff
  sorted := h.sorted
  found := h.found
  missing := h.missing
  reached k hk' := by
    rcases h.reached k hk' with hknown | hmem
    · exact .inl hknown
    · rcases List.mem_cons.mp hmem with rfl | hmem
      · exact .inl hk
      · exact .inr hmem
  within K hK := ⟨(h.within K hK).1, fun k hmem => (h.within K hK).2 k (List.mem_cons_of_mem _ hmem)⟩

theorem skip (h : Upholds lookup scope loaded { c with pending := s :: rest }) (hk : c.isKnown s = false)
    (hs : lookup s = .error e) :
    Upholds lookup scope (s :: loaded) (({ c with pending := rest } : Collection).skip s) where
  nodup := by
    refine List.nodup_cons.mpr ⟨fun hmem => ?_, h.nodup⟩
    exact nomatch hk.symm.trans ((h.loaded_iff s).mp hmem)
  loaded_iff k := by
    rw [List.mem_cons, h.loaded_iff, isKnown_skip]
    rfl
  sorted := h.sorted
  found := h.found
  missing k hmem := by
    rcases Dictionary.mem_insertWord.mp hmem with rfl | hmem
    · exact ⟨e, hs⟩
    · exact h.missing k hmem
  reached k hk' := by
    rcases h.reached k hk' with hknown | hmem
    · exact .inl (isKnown_skip.mpr (.inr hknown))
    · rcases List.mem_cons.mp hmem with rfl | hmem
      · exact .inl (isKnown_skip.mpr (.inl rfl))
      · exact .inr hmem
  within K hK := ⟨(h.within K hK).1, fun k hmem => (h.within K hK).2 k (List.mem_cons_of_mem _ hmem)⟩

theorem add (h : Upholds lookup scope loaded { c with pending := s :: rest }) (hk : c.isKnown s = false)
    (hs : lookup s = .ok g) :
    Upholds lookup scope (s :: loaded) (({ c with pending := rest } : Collection).add s g) := by
  have hfound (e : String × GrammarDescription) :
      e ∈ (({ c with pending := rest } : Collection).add s g).found ↔ e = (s, g) ∨ e ∈ c.found := by
    rw [(perm_found_add (c := { c with pending := rest }) hk g).mem_iff, List.mem_cons]
  have hknown (k : String) : (({ c with pending := rest } : Collection).add s g).isKnown k = true ↔
      k = s ∨ c.isKnown k = true := isKnown_add (c := { c with pending := rest }) hk g
  have hany (k : String) : c.found.any (·.1 == k) = true ↔ k ∈ c.found.map (·.1) := by simp
  have hpending (k : String) : k ∈ (({ c with pending := rest } : Collection).add s g).pending ↔
      (k ∈ g.externalScopes ∧ k ∉ c.found.map (·.1)) ∨ k ∈ rest := by
    simp only [Collection.add, List.mem_append, List.mem_reverse, List.mem_filter, Bool.not_eq_true',
      ← Bool.not_eq_true, hany]
  refine ⟨?_, fun k => ?_, h.sorted.insert, fun e he => ?_, h.missing, fun k hk' => ?_, fun K hK => ?_⟩
  · refine List.nodup_cons.mpr ⟨fun hmem => ?_, h.nodup⟩
    exact nomatch hk.symm.trans ((h.loaded_iff s).mp hmem)
  · rw [List.mem_cons, h.loaded_iff, hknown]
    rfl
  · rcases (hfound e).mp he with rfl | he
    · exact hs
    · exact h.found e he
  · rw [hknown, hpending]
    have hold : (c.isKnown k = true ∨ k ∈ s :: rest) ∨ k ∈ g.externalScopes := by
      rcases hk' with rfl | ⟨e, he, hembeds⟩
      · exact .inl (h.reached k (.inl rfl))
      · rcases (hfound e).mp he with rfl | he
        · exact .inr hembeds
        · exact .inl (h.reached k (.inr ⟨e, he, hembeds⟩))
    rcases hold with (hknown | hmem) | hembeds
    · exact .inl (.inr hknown)
    · rcases List.mem_cons.mp hmem with rfl | hmem
      · exact .inl (.inl rfl)
      · exact .inr (.inr hmem)
    -- what `s` embeds becomes pending unless it has been found
    · by_cases hin : k ∈ c.found.map (·.1)
      · exact .inl (.inr (isKnown_iff.mpr (.inl hin)))
      · exact .inr (.inl ⟨hembeds, hin⟩)
  · obtain ⟨hin, hrest⟩ := h.within K hK
    have hsK : s ∈ K := hrest s List.mem_cons_self ⟨g, hs⟩
    refine ⟨fun e he => ?_, fun k hmem hk' => ?_⟩
    · rcases (hfound e).mp he with rfl | he
      · exact hsK
      · exact hin e he
    · rcases (hpending k).mp hmem with ⟨hembeds, -⟩ | hmem
      · exact hK.2 s hsK g hs k hembeds hk'
      · exact hrest k (List.mem_cons_of_mem _ hmem) hk'

theorem visit (h : Upholds lookup scope loaded c) (hvisit : Visits lookup scope s c c') :
    Upholds lookup scope (if c.isKnown s then loaded else s :: loaded) c' := by
  obtain ⟨rest, hperm, ⟨hk, rfl⟩ | ⟨hk, g, hs, rfl⟩ | ⟨hk, -, ⟨e, hs⟩, rfl⟩⟩ := hvisit.cases
  · rw [if_pos hk]
    exact (h.perm hperm).known hk
  · rw [hk]
    exact (h.perm hperm).add hk hs
  · rw [hk]
    exact (h.perm hperm).skip hk hs

theorem mem_keys (h : Upholds lookup scope loaded c) (hknown : c.isKnown s = true) (hs : lookup s = .ok g) :
    s ∈ c.found.map (·.1) := by
  rcases isKnown_iff.mp hknown with hmem | hmem
  · exact hmem
  · obtain ⟨e, he⟩ := h.missing s hmem
    cases hs.symm.trans he

theorem isLeast (h : Upholds lookup scope loaded c) (hscope : lookup scope = .ok d) (hpending : c.pending = []) :
    IsLeast (closedSets lookup scope) {s | s ∈ c.found.map (·.1)} := by
  have hknown : ∀ s, (s = scope ∨ ∃ e ∈ c.found, s ∈ e.2.externalScopes) → c.isKnown s = true := by
    intro s hs
    rcases h.reached s hs with hknown | hmem
    · exact hknown
    · rw [hpending] at hmem
      cases hmem
  refine ⟨⟨h.mem_keys (hknown scope (.inl rfl)) hscope, ?_⟩, ?_⟩
  · rintro s hs g hg k hembeds ⟨g', hk⟩
    obtain ⟨e, he, rfl⟩ := List.mem_map.mp hs
    have hsame : e.2 = g := Except.ok.inj ((h.found e he).symm.trans hg)
    exact h.mem_keys (hknown k (.inr ⟨e, he, hsame ▸ hembeds⟩)) hk
  · intro K hK s hs
    obtain ⟨e, he, rfl⟩ := List.mem_map.mp hs
    exact (h.within K hK).1 e he

theorem mem_found_iff (h : Upholds lookup scope loaded c) :
    (s, g) ∈ c.found ↔ s ∈ c.found.map (·.1) ∧ lookup s = .ok g := by
  refine ⟨fun hmem => ⟨List.mem_map_of_mem hmem, h.found _ hmem⟩, ?_⟩
  rintro ⟨hs, hg⟩
  obtain ⟨e, he, rfl⟩ := List.mem_map.mp hs
  obtain rfl : e.2 = g := Except.ok.inj ((h.found e he).symm.trans hg)
  exact he

end Upholds

theorem Collects.upholds (h : Collects lookup scope loaded c) : Upholds lookup scope loaded c := by
  induction h with
  | start => exact .start
  | visit h hvisit ih => exact ih.visit hvisit

/-- What has been found in the end does not depend on the order in which pending scopes are looked at. -/
theorem Collects.found_eq {loaded' : List String} (h : Collects lookup scope loaded c)
    (h' : Collects lookup scope loaded' c') (hscope : lookup scope = .ok d) (hpending : c.pending = [])
    (hpending' : c'.pending = []) : c.found = c'.found := by
  have hleast := h.upholds.isLeast hscope hpending
  have hkeys := hleast.unique (h'.upholds.isLeast hscope hpending')
  refine h.upholds.sorted.ext h'.upholds.sorted fun e => ?_
  have hkey : e.1 ∈ c.found.map (·.1) ↔ e.1 ∈ c'.found.map (·.1) := Set.ext_iff.mp hkeys e.1
  rw [← Prod.mk.eta (p := e), h.upholds.mem_found_iff, h'.upholds.mem_found_iff, hkey]

end Closure

end Collection

end GrammarScopes
