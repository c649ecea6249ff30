import GrammarScopes.Proofs.Grammar.ClosedArena
import GrammarScopes.Proofs.Grammar.Flattening
import GrammarScopes.Proofs.Scanner.Earliest

/-!
The rules that may start while a rule is active, and their patterns.  Which of them wins does not depend on how often
containers are opened, since a pattern that is listed again never wins against its first occurrence.
-/

namespace GrammarScopes

open Pattern

namespace Pads

variable {seen ids padded : List RuleId} {x y : RuleId}

theorem subset (h : Pads seen ids padded) : ids ⊆ padded := by
  induction h with
  | nil => exact List.Subset.refl _
  | keep _ ih => exact List.cons_subset_cons _ ih
  | repeated _ _ ih => exact List.subset_cons_of_subset _ ih

theorem mem_or (h : Pads seen ids padded) (hx : x ∈ padded) : x ∈ seen ∨ x ∈ ids := by
  induction h with
  | nil => cases hx
  | keep _ ih =>
    rcases List.mem_cons.mp hx with rfl | hx
    · exact .inr List.mem_cons_self
    · rcases ih hx with hx | hx
      · rcases List.mem_cons.mp hx with rfl | hx
        · exact .inr List.mem_cons_self
        · exact .inl hx
      · exact .inr (List.mem_cons_of_mem _ hx)
  | repeated hid _ ih =>
    rcases List.mem_cons.mp hx with rfl | hx
    · exact .inl hid
    · exact ih hx

theorem mapM_eq_error {ε α : Type} {f : RuleId → Except ε α} {e : ε} (h : Pads seen ids padded)
    (hseen : ∀ x ∈ seen, ∃ a, f x = .ok a) (he : ids.mapM f = .error e) : padded.mapM f = .error e := by
  induction h with
  | nil => exact he
  | @keep id seen ids padded _ ih =>
    rw [List.mapM_cons] at he ⊢
    cases hid : f id with
    | error e' =>
      rw [hid] at he
      exact he
    | ok a =>
      rw [hid] at he
      have hids : ids.mapM f = .error e := by
        cases hids : ids.mapM f with
        | error e' =>
          rw [hids] at he
          cases he
          rfl
        | ok as =>
          rw [hids] at he
          cases he
      have hpadded := ih (List.forall_mem_cons.mpr ⟨⟨a, hid⟩, hseen⟩) hids
      rw [hpadded]
      rfl
  | @repeated id seen ids padded hid _ ih =>
    obtain ⟨a, ha⟩ := hseen id hid
    rw [List.mapM_cons, ha, ih hseen he]
    rfl

theorem exists_mapM {ε α : Type} {f : RuleId → Except ε α} {as : List α} (h : Pads [] ids padded)
    (has : ids.mapM f = .ok as) : ∃ bs, padded.mapM f = .ok bs := by
  refine exists_ok_mapM fun x hx => ?_
  obtain ⟨i, hi⟩ := List.getElem?_of_mem ((h.mem_or hx).resolve_left List.not_mem_nil)
  have hget := getElem?_mapM has i
  rw [hi] at hget
  obtain ⟨a, -, ha⟩ := Option.map_eq_some_iff.mp hget.symm
  exact ⟨a, ha.symm⟩

end Pads

namespace Scanner

section InTurn

variable {α β : Type} {find : α → Option Found} {find' : β → Option Found} {p : Nat} {best : Option Found}

theorem inTurn_congr {entries : List α} {entries' : List β} (h : entries.map find = entries'.map find')
    (p : Nat) (best : Option Found) : inTurn find p best entries = inTurn find' p best entries' := by
  induction entries generalizing entries' best with
  | nil =>
    obtain rfl := List.map_eq_nil_iff.mp h.symm
    rfl
  | cons e entries ih =>
    obtain ⟨e', entries', rfl, he, h⟩ := List.map_eq_cons_iff.mp h.symm
    unfold inTurn
    rw [← he]
    simp only [ih h.symm]

theorem inTurn_relabel (find : α → Option Found) (label : Found → Nat) (entries : List α) (p : Nat)
    (best : Option Found) :
    (inTurn find p best entries).map (fun f => { f with index := label f }) =
      inTurn (fun e => (find e).map fun f => { f with index := label f }) p
        (best.map fun f => { f with index := label f }) entries := by
  induction entries generalizing best with
  | nil => rfl
  | cons e entries ih =>
    unfold inTurn
    cases find e with
    | none => exact ih best
    | some f =>
      have hbefore : (best.map fun f => { f with index := label f }).any (·.start ≤ f.start) =
          best.any (·.start ≤ f.start) := by
        cases best <;> rfl
      simp only [Option.map_some, hbefore]
      split
      · exact ih best
      · split
        · rfl
        · exact ih (some f)

/-- Something that is searched for again is not found earlier than before. -/
theorem inTurn_pads {find : RuleId → Option Found} {seen ids padded : List RuleId} (h : Pads seen ids padded)
    (hseen : ∀ x ∈ seen, ∀ f, find x = some f → ∃ b, best = some b ∧ b.start ≤ f.start) :
    inTurn find p best ids = inTurn find p best padded := by
  induction h generalizing best with
  | nil => rfl
  | @keep id seen ids padded _ ih =>
    unfold inTurn
    cases hfind : find id with
    | none =>
      refine ih (List.forall_mem_cons.mpr ⟨fun f hf => ?_, hseen⟩)
      cases hfind.symm.trans hf
    | some f =>
      dsimp only
      split
      next hbefore =>
        obtain ⟨b, hb, hle⟩ := (Option.any_eq_true _ _).mp hbefore
        refine ih (List.forall_mem_cons.mpr ⟨fun g hg => ?_, hseen⟩)
        cases hfind.symm.trans hg
        exact ⟨b, hb, of_decide_eq_true hle⟩
      next hbefore =>
        split
        · rfl
        · refine ih (List.forall_mem_cons.mpr ⟨fun g hg => ?_, fun x hx g hg => ⟨f, rfl, ?_⟩⟩)
          · cases hfind.symm.trans hg
            exact ⟨f, rfl, Nat.le_refl _⟩
          · obtain ⟨b, rfl, hle⟩ := hseen x hx g hg
            have hlt : f.start < b.start := by simpa using hbefore
            omega
  | @repeated id seen ids padded hid _ ih =>
    rw [ih hseen]
    conv => rhs; unfold inTurn
    cases hfind : find id with
    | none => rfl
    | some f =>
      obtain ⟨b, rfl, hle⟩ := hseen id hid f hfind
      have hbefore : (some b).any (·.start ≤ f.start) = true := by simpa using hle
      simp only [if_pos hbefore]

end InTurn

section Rules

variable {compiled : RuleId → Except PatternFault Compiled} {ids padded : List RuleId} {cs ds : List Compiled}

def findRule (compiled : RuleId → Except PatternFault Compiled) (t : Subject) (n p : Nat) (id : RuleId) :
    Option Found :=
  (compiled id).toOption.bind fun c => search t n p (id, c)

theorem map_search_numbered (hcs : ids.mapM compiled = .ok cs) (t : Subject) (n p : Nat) :
    (numbered cs).map (fun e => (search t n p e).map fun f => { f with index := ids[f.index]?.getD 0 }) =
      ids.map (findRule compiled t n p) := by
  refine List.ext_getElem? fun i => ?_
  have hids := getElem?_mapM hcs i
  rw [List.getElem?_map, List.getElem?_map, getElem?_numbered]
  cases hi : cs[i]? with
  | none =>
    rw [hi, Option.map_none, Option.map_eq_none_iff] at hids
    rw [hids]
    rfl
  | some c =>
    rw [hi] at hids
    obtain ⟨id, hid, hc⟩ := Option.map_eq_some_iff.mp hids
    rw [hid, Option.map_some, Option.map_some, Option.map_some, findRule, hc]
    refine congrArg some ?_
    change _ = search t n p (id, c)
    rw [search_renumber t n p i id]
    cases hsearch : search t n p (i, c) with
    | none => rfl
    | some f =>
      obtain ⟨q, a, -, -, -, rfl⟩ := search_eq_some hsearch
      simp only [Option.map_some, found, hid, Option.getD_some]

theorem find_rules (hcs : ids.mapM compiled = .ok cs) (line : Line) (pos : Nat) :
    ((matcher cs).find line pos).bind (fun m => ids[m.index]?.map fun id => (id, m.captures)) =
      (line.index? pos).bind fun p =>
        (inTurn (findRule compiled ⟨line.chars, p⟩ (line.chars.size + 1 - p) p) p none ids).bind fun f =>
          (toMatch line f).map fun m => (m.index, m.captures) := by
  rw [matcher_find, Option.bind_assoc]
  congr 1
  funext p
  have hrelabel := inTurn_relabel (search ⟨line.chars, p⟩ (line.chars.size + 1 - p) p)
    (fun f => ids[f.index]?.getD 0) (numbered cs) p none
  rw [inTurn_congr (map_search_numbered hcs ⟨line.chars, p⟩ (line.chars.size + 1 - p) p), Option.map_none] at hrelabel
  rw [← hrelabel]
  cases hfound : inTurn (search ⟨line.chars, p⟩ (line.chars.size + 1 - p) p) p none (numbered cs) with
  | none => rfl
  | some f =>
    rcases inTurn_eq_some hfound with hnone | ⟨e, he, hsearch⟩
    · cases hnone
    · obtain ⟨q, a, -, -, -, hf⟩ := search_eq_some hsearch
      have hindex : f.index = e.1 := hf ▸ rfl
      have hids := getElem?_mapM hcs e.1
      rw [mem_numbered.mp he] at hids
      obtain ⟨id, hid, -⟩ := Option.map_eq_some_iff.mp hids
      rw [Option.bind_some, Option.map_some, Option.bind_some, toMatch_renumber line f (ids[f.index]?.getD 0), hindex,
        hid]
      cases hm : toMatch line f with
      | none => rfl
      | some m =>
        rw [Option.bind_some, toMatch_index hm, hindex, hid]
        rfl

/-- Repeated rules change neither which rule wins nor what it captures. -/
theorem find_pads (hpads : Pads [] ids padded) (hcs : ids.mapM compiled = .ok cs) (hds : padded.mapM compiled = .ok ds)
    (line : Line) (pos : Nat) :
    ((matcher cs).find line pos).bind (fun m => ids[m.index]?.map fun id => (id, m.captures)) =
      ((matcher ds).find line pos).bind fun m => padded[m.index]?.map fun id => (id, m.captures) := by
  rw [find_rules hcs, find_rules hds]
  congr 1
  funext p
  rw [inTurn_pads hpads nofun]

end Rules

end Scanner

theorem PatternSet.sources_ofSources (scanner : Scanner) (sources : List String) :
    (ofSources scanner sources).sources = sources := by
  unfold ofSources
  split <;> rfl

section Sets

variable {rules : Array Rule} {ids padded : List RuleId} {id : RuleId} {r : Rule}

theorem Rule.exists_startPattern (h : r.isContainer = false) : ∃ source, r.startPattern? = some source := by
  cases r with
  | container => cases h
  | single | beginEnd | beginWhile => exact ⟨_, rfl⟩

namespace ScanSet

def ofIds (scanner : Scanner) (rules : Array Rule) (ids : List RuleId) : ScanSet :=
  ⟨ids, .ofSources scanner (ids.filterMap fun i => rules[i]?.bind Rule.startPattern?)⟩

/-- The rule that wins from a position on, and what it captures. -/
def winner (set : ScanSet) (a : Anchoring) (line : Line) (pos : Nat) :
    Except PatternFault (Option (RuleId × Captures)) :=
  (set.patterns.matcher a).map fun matcher =>
    (matcher.find line pos).bind fun m => set.rules[m.index]?.map fun id => (id, m.captures)

def startText (rules : Array Rule) (id : RuleId) : String := (rules[id]?.bind Rule.startPattern?).getD ""

theorem startPattern_eq (hplain : ∃ r, rules[id]? = some r ∧ r.isContainer = false) :
    rules[id]?.bind Rule.startPattern? = some (startText rules id) := by
  obtain ⟨r, hr, hplain⟩ := hplain
  obtain ⟨source, hsource⟩ := Rule.exists_startPattern hplain
  simp [startText, hr, hsource]

theorem sources_eq (hplain : ∀ x ∈ ids, ∃ r, rules[x]? = some r ∧ r.isContainer = false) :
    (ids.filterMap fun i => rules[i]?.bind Rule.startPattern?) = ids.map (startText rules) := by
  rw [← List.filterMap_eq_map]
  exact List.filterMap_congr fun x hx => startPattern_eq (hplain x hx)

theorem matcher_ofIds (hplain : ∀ x ∈ ids, ∃ r, rules[x]? = some r ∧ r.isContainer = false) (a : Anchoring) :
    (ofIds .standard rules ids).patterns.matcher a =
      (ids.mapM fun x => Scanner.compilePattern (a.patternText (startText rules x))).map Scanner.matcher := by
  rw [ofIds, PatternSet.ofSources_matcher, sources_eq hplain, List.map_map]
  change ((ids.map (a.patternText ∘ startText rules)).mapM Scanner.compilePattern).bind
    (fun ps => .ok (Scanner.matcher ps)) = _
  rw [List.mapM_map, ← except_map_eq_bind]
  rfl

theorem winner_pads (hpads : Pads [] ids padded)
    (hplain : ∀ x ∈ ids, ∃ r, rules[x]? = some r ∧ r.isContainer = false) (a : Anchoring) (line : Line) (pos : Nat) :
    (ofIds .standard rules ids).winner a line pos = (ofIds .standard rules padded).winner a line pos := by
  have hplain' : ∀ x ∈ padded, ∃ r, rules[x]? = some r ∧ r.isContainer = false :=
    fun x hx => hplain x ((hpads.mem_or hx).resolve_left List.not_mem_nil)
  rw [winner, winner, matcher_ofIds hplain, matcher_ofIds hplain']
  cases hcs : ids.mapM fun x => Scanner.compilePattern (a.patternText (startText rules x)) with
  | error e =>
    rw [hpads.mapM_eq_error nofun hcs]
    rfl
  | ok cs =>
    obtain ⟨ds, hds⟩ := hpads.exists_mapM hcs
    rw [hds]
    exact congrArg Except.ok (Scanner.find_pads hpads hcs hds line pos)

theorem index_lt (hplain : ∀ x ∈ ids, ∃ r, rules[x]? = some r ∧ r.isContainer = false) {a : Anchoring}
    {matcher : Matcher} (hmatcher : (ofIds .standard rules ids).patterns.matcher a = .ok matcher) {line : Line}
    {pos : Nat} {m : ScanMatch} (hm : matcher.find line pos = some m) : m.index < ids.length := by
  rw [matcher_ofIds hplain] at hmatcher
  cases hcs : ids.mapM fun x => Scanner.compilePattern (a.patternText (startText rules x)) with
  | error e =>
    rw [hcs] at hmatcher
    cases hmatcher
  | ok cs =>
    rw [hcs] at hmatcher
    cases hmatcher
    rw [← length_mapM hcs]
    exact Scanner.find_index_lt hm

end ScanSet

end Sets

namespace Grammar

/-- The rules that may start while a rule is active are those reached through containers only, each with its pattern;
a container that is opened whenever it is met outside itself never makes another rule win. -/
theorem scanSet_flattens {scope : String} {grammars : GrammarSet} {g : Grammar} {id : RuleId}
    (h : compile scope grammars .standard = .ok g) (hid : id < g.ruleCount) :
    ∃ r set, g.rule? id = some r ∧ g.scanSet? id = some set ∧
      (∃ opened, Flattens g.rules [] r.patterns set.rules opened) ∧
      (∀ out opened, Flattens g.rules [] r.patterns out opened → out = set.rules) ∧
      (∀ x, x ∈ set.rules ↔ Offers g.rules r.patterns x) ∧
      set.patterns.sources.map some = set.rules.map (fun x => (g.rule? x).bind Rule.startPattern?) ∧
      (∀ a matcher line pos m, set.patterns.matcher a = .ok matcher → matcher.find line pos = some m →
        m.index < set.rules.length) ∧
      (∃ out, Expands g.rules [] r.patterns out) ∧
      ∀ out, Expands g.rules [] r.patterns out → ∀ a line pos,
        set.winner a line pos = (ScanSet.ofIds g.scanner g.rules out).winner a line pos := by
  have hrefs : Refers g.rules := fun id r hr x hx =>
    references_lt_ruleCount h hr x (List.mem_append_left _ hx)
  have hr : g.rule? id = some g.rules[id] := Array.getElem?_eq_getElem hid
  obtain ⟨set, hset⟩ := exists_scanSet h hid
  obtain ⟨out, opened, hout⟩ := Flattens.exists_of_room hrefs (Nat.le_add_left _ _) .nil (hrefs id _ hr)
  obtain rfl := (compile_wellFormed h).scanSet?_eq hset
  have hcandidates := hout.eq_candidates hr
  subst hcandidates
  have hmem : ∀ x, x ∈ candidates g.rules id ↔ Offers g.rules g.rules[id].patterns x := fun x => hout.mem_iff
  have hsources : (ScanSet.ofRule g.scanner g.rules id).patterns.sources.map some =
      (candidates g.rules id).map fun x => g.rules[x]?.bind Rule.startPattern? := by
    rw [ScanSet.ofRule, PatternSet.sources_ofSources, ScanSet.sources_eq candidates_plain, List.map_map]
    exact List.map_congr_left fun x hx => (ScanSet.startPattern_eq (candidates_plain x hx)).symm
  refine ⟨g.rules[id], _, hr, hset, ⟨opened, hout⟩, fun out' opened' h' => h'.eq_candidates hr, hmem, hsources,
    fun a matcher line pos m hmatcher hm => ?_, Expands.exists_of_room hrefs (Nat.le_add_left _ _) .nil (hrefs id _ hr),
    fun out' hexpands a line pos => ?_⟩
  · rw [compile_scanner h] at hmatcher
    exact ScanSet.index_lt candidates_plain hmatcher hm
  · rw [compile_scanner h]
    exact ScanSet.winner_pads (hout.pads nofun (List.nil_subset _) hexpands) candidates_plain a line pos

def sharedGroup : GrammarDescription where
  scopeName := "s"
  patterns := [{ reference := some "#both" }, { pattern := some "c" }, { reference := some "#both" }]
  repository :=
    [("b", { pattern := some "b" }),
      ("both",
        { patterns := some [{ pattern := some "a" }, { reference := some "$self" }, { reference := some "#b" }] })]

theorem scanSet_flattens_shared :
    ∃ g set, compile "s" [("s", sharedGroup)] .standard = .ok g ∧ root < g.ruleCount ∧
      g.scanSet? root = some set ∧ set.rules = [2, 4, 3, 4] ∧
      ∃ out, Expands g.rules [] [1, 4, 1] out ∧ ∀ a line pos,
        set.winner a line pos = (ScanSet.ofIds g.scanner g.rules out).winner a line pos := by
  obtain ⟨g, hg, hcheck⟩ : ∃ g, compile "s" [("s", sharedGroup)] .standard = .ok g ∧
      (g.ruleCount == 5 && candidates g.rules root == [2, 4, 3, 4] &&
        (g.rule? root).map Rule.patterns == some [1, 4, 1]) = true := by
    have hcheck : (compile "s" [("s", sharedGroup)] .standard).toOption.any (fun g =>
        g.ruleCount == 5 && candidates g.rules root == [2, 4, 3, 4] &&
          (g.rule? root).map Rule.patterns == some [1, 4, 1]) = true := by
      decide +kernel
    obtain ⟨g, hg, hcheck⟩ := (Option.any_eq_true _ _).mp hcheck
    exact ⟨g, ok_of_toOption hg, hcheck⟩
  simp only [Bool.and_eq_true, beq_iff_eq] at hcheck
  obtain ⟨⟨hcount, hcandidates⟩, hpatterns⟩ := hcheck
  have hroot : root < g.ruleCount := by rw [hcount]; decide
  obtain ⟨r, set, hr, hset, -, -, -, -, -, ⟨out, hout⟩, hwinner⟩ := scanSet_flattens hg hroot
  obtain rfl := (compile_wellFormed hg).scanSet?_eq hset
  rw [hr, Option.map_some, Option.some_inj] at hpatterns
  exact ⟨g, _, hg, hroot, hset, hcandidates, out, hpatterns ▸ hout, hwinner out hout⟩

end Grammar

end GrammarScopes
