import GrammarScopes.Description.Reader
import GrammarScopes.Proofs.Except
import GrammarScopes.Proofs.Grammar.Compiled
import Mathlib.Data.List.Basic

/-!
The tables for the groups of a match.  A table has a slot for each group up to the largest that a capture list
names.  Its length is a machine word, and it has to fit in memory, so there is none for the largest groups.
-/

namespace GrammarScopes

/-- The capture lists of a rule, each of which becomes a table. -/
def RuleDescription.captureLists (r : RuleDescription) (site : Site) : List (List CaptureEntry) :=
  match r.shape with
  | .single _ => [r.ownEntries site]
  | .beginWhile .. => [r.beginEntries site, r.whileEntries site]
  | .beginEnd .. => [r.beginEntries site, r.endEntries site]
  | .container => []

def Node.captureLists : Node → List (List CaptureEntry)
  | grammar _ => []
  | rule site r _ => r.captureLists site

theorem RuleDescription.flatten_captureLists (r : RuleDescription) (site : Site) :
    (r.captureLists site).flatten = r.entries site := by
  unfold captureLists entries
  cases r.shape <;> simp only [List.flatten_cons, List.flatten_nil, List.append_nil]

theorem Library.tables_rule (l : Library) (scanner : Scanner) (nodes : List Node) (n : Node) :
    (l.rule scanner nodes n).tables = n.captureLists.map (CaptureEntry.toTable nodes) := by
  cases n with
  | grammar g => rfl
  | rule site r s =>
    unfold rule Node.captureLists RuleDescription.captureLists
    dsimp only
    cases r.shape <;> rfl

namespace CaptureEntry

variable {entries : List CaptureEntry}

/-- The number of slots, as a machine word. -/
def slotCount (entries : List CaptureEntry) : Nat :=
  match (entries.map (·.group)).max? with
  | some largest => (largest + 1) % Nat.pow 2 64
  | none => 0

/-- There is room for the slots, each of 72 bytes, and every group has one. -/
def Tabulates (entries : List CaptureEntry) : Prop :=
  slotCount entries * 72 ≤ Nat.pow 2 63 - 1 ∧ ∀ e ∈ entries, e.group < slotCount entries

theorem tabulates_iff (h : ∀ e ∈ entries, e.group < Nat.pow 2 64) :
    Tabulates entries ↔ ∀ e ∈ entries, e.group < groupLimit := by
  unfold Tabulates slotCount
  cases hmax : (entries.map (·.group)).max? with
  | none =>
    have hnil : entries = [] := List.map_eq_nil_iff.mp (List.max?_eq_none_iff.mp hmax)
    simp [hnil]
  | some largest =>
    have hle : ∀ e ∈ entries, e.group ≤ largest := fun e he =>
      Nat.le_trans (List.le_max?_get_of_mem (List.mem_map_of_mem he)) (by simp [hmax])
    obtain ⟨top, htop, heq⟩ := List.mem_map.mp (List.max?_mem hmax)
    have hword := h top htop
    have hlimit : groupLimit = 128102389400760775 := by decide
    have hpow : Nat.pow 2 64 = 18446744073709551616 := by decide
    have hpow' : Nat.pow 2 63 = 9223372036854775808 := by decide
    rw [heq, hpow] at hword
    rw [hpow, hpow', hlimit]
    dsimp only
    constructor
    · rintro ⟨hroom, hslots⟩ e he
      have hslot := hslots top htop
      have := hle e he
      omega
    · intro hgroups
      have hlast := hgroups top htop
      refine ⟨by omega, fun e he => ?_⟩
      have := hle e he
      omega

end CaptureEntry

theorem Text.lt_of_word? {text : List Char} {n : Nat} (h : word? text = some n) : n < Nat.pow 2 64 := by
  unfold word? at h
  simp only [Option.ite_none_left_eq_some] at h
  exact of_decide_eq_true (Option.filter_eq_some_iff.mp h.2).2

theorem RuleDescription.group_lt_captureEntries {site : Site} {list : RuleList} {rules : RuleTable} {e : CaptureEntry}
    (h : e ∈ captureEntries site list rules) : e.group < Nat.pow 2 64 := by
  obtain ⟨⟨key, r⟩, -, he⟩ := List.mem_filterMap.mp h
  obtain ⟨group, hword, rfl⟩ := Option.map_eq_some_iff.mp he
  exact Text.lt_of_word? hword

theorem RuleDescription.group_lt_captureList {r : RuleDescription} {site : Site} {list : RuleList}
    {rules : Option RuleTable} {e : CaptureEntry} (h : e ∈ r.captureList site list rules) :
    e.group < Nat.pow 2 64 := by
  unfold captureList at h
  split at h
  · exact group_lt_captureEntries h
  · exact group_lt_captureEntries h
  · cases h

theorem Node.group_lt {n : Node} {entries : List CaptureEntry} (h : entries ∈ n.captureLists) :
    ∀ e ∈ entries, e.group < Nat.pow 2 64 := by
  cases n with
  | grammar g => cases h
  | rule site r s =>
    change entries ∈ r.captureLists site at h
    have hlist {list : RuleList} {rules : Option RuleTable} (heq : entries = r.captureList site list rules) :
        ∀ e ∈ entries, e.group < Nat.pow 2 64 :=
      fun e he => RuleDescription.group_lt_captureList (heq ▸ he)
    unfold RuleDescription.captureLists at h
    split at h
    next => exact hlist (List.mem_singleton.mp h)
    next => exact (List.mem_pair.mp h).elim hlist hlist
    next => exact (List.mem_pair.mp h).elim hlist hlist
    next => cases h

namespace Library

open CaptureEntry

variable {n : Node} {group : Nat}

theorem oversizedGroup?_eq_none (h : oversizedGroup? n = none) : ∀ entries ∈ n.captureLists, Tabulates entries := by
  intro entries hentries
  refine (tabulates_iff (Node.group_lt hentries)).mpr fun e he => ?_
  cases n with
  | grammar g => cases hentries
  | rule site r s =>
    have hmem : e ∈ r.entries site := by
      rw [← r.flatten_captureLists site]
      exact List.mem_flatten.mpr ⟨entries, hentries, he⟩
    simpa using List.find?_eq_none.mp (Option.map_eq_none_iff.mp h) e hmem

theorem oversizedGroup?_eq_some (h : oversizedGroup? n = some group) :
    groupLimit ≤ group ∧ ∃ entries ∈ n.captureLists, ¬ Tabulates entries ∧ group ∈ entries.map (·.group) := by
  cases n with
  | grammar g => cases h
  | rule site r s =>
    obtain ⟨e, he, rfl⟩ := Option.map_eq_some_iff.mp h
    have hlimit : groupLimit ≤ e.group := by simpa using List.find?_some he
    have hmem := List.mem_of_find?_eq_some he
    rw [← r.flatten_captureLists site] at hmem
    obtain ⟨entries, hentries, he⟩ := List.mem_flatten.mp hmem
    refine ⟨hlimit, entries, hentries, fun htabulates => ?_, List.mem_map_of_mem he⟩
    have hbelow := (tabulates_iff (Node.group_lt (n := .rule site r s) hentries)).mp htabulates e he
    omega

end Library

namespace Grammar

open CaptureEntry

/-- Compiling gives a grammar unless there is none for the scope, or a rule that is reached has a capture list
without a table for its groups. -/
theorem compile_returns (scope : String) (grammars : GrammarSet) (scanner : Scanner) :
    (Dictionary.find? grammars scope = none → compile scope grammars scanner = .error (.missingGrammar scope)) ∧
      ∀ base, Dictionary.find? grammars scope = some base →
        let nodes := (Library.mk grammars ⟨scope, base⟩).nodes
        ((∀ n ∈ nodes, ∀ entries ∈ n.captureLists, Tabulates entries) ∧
            ∃ g, compile scope grammars scanner = .ok g ∧ g.scopeName = scope) ∨
          ∃ n ∈ nodes, ∃ entries ∈ n.captureLists, ¬ Tabulates entries ∧
            ∃ group ∈ entries.map (·.group), groupLimit ≤ group ∧
              compile scope grammars scanner = .error (.groupTooLarge group) := by
  refine ⟨fun hnone => by rw [compile, hnone], fun base hbase => ?_⟩
  have hcompile : compile scope grammars scanner =
      ((Library.mk grammars ⟨scope, base⟩).compile scanner).bind fun rules =>
        .ok (ofRules scope rules.toArray scanner) := by
    rw [compile, hbase]
    rfl
  dsimp only
  rw [hcompile, Library.compile]
  cases hgroup : (Library.mk grammars ⟨scope, base⟩).nodes.findSome? Library.oversizedGroup? with
  | none =>
    refine .inl ⟨fun n hn => ?_, _, rfl, rfl⟩
    exact Library.oversizedGroup?_eq_none (List.findSome?_eq_none_iff.mp hgroup n hn)
  | some group =>
    obtain ⟨n, hn, hlarge⟩ := List.exists_of_findSome?_eq_some hgroup
    obtain ⟨hlimit, entries, hentries, htable, hmem⟩ := Library.oversizedGroup?_eq_some hlarge
    exact .inr ⟨n, hn, entries, hentries, htable, group, hmem, hlimit, rfl⟩

def largestGroup : String :=
  "\x7b\"scopeName\": \"s\", \"patterns\": [\x7b\"match\": \"(a)\", " ++
    "\"captures\": \x7b\"18446744073709551615\": \x7b\"name\": \"x\"\x7d\x7d\x7d]\x7d"

/-- The text describes a grammar, whose table has no slots, as the word that counts them starts again at zero. -/
theorem compile_returns_largestGroup :
    ∃ d, GrammarDescription.ofText largestGroup = .ok d ∧ Dictionary.find? [("s", d)] "s" = some d ∧
      (Library.mk [("s", d)] ⟨"s", d⟩).nodes.map (·.captureLists.map slotCount) = [[], [0]] ∧
      ∀ scanner, compile "s" [("s", d)] scanner = .error (.groupTooLarge 18446744073709551615) := by
  have hrun : (GrammarDescription.ofText largestGroup).toOption.any (fun d =>
      (Library.mk [("s", d)] ⟨"s", d⟩).nodes.map (·.captureLists.map slotCount) == [[], [0]] &&
        (Library.mk [("s", d)] ⟨"s", d⟩).nodes.findSome? Library.oversizedGroup? ==
          some 18446744073709551615) = true := by
    decide +kernel
  obtain ⟨d, hd, hcheck⟩ := (Option.any_eq_true _ _).mp hrun
  obtain ⟨hslots, hgroup⟩ := Bool.and_eq_true_iff.mp hcheck
  have hgroup : (Library.mk [("s", d)] ⟨"s", d⟩).nodes.findSome? Library.oversizedGroup? = _ := eq_of_beq hgroup
  refine ⟨d, ok_of_toOption hd, rfl, eq_of_beq hslots, fun scanner => ?_⟩
  have hcompile : compile "s" [("s", d)] scanner =
      ((Library.mk [("s", d)] ⟨"s", d⟩).compile scanner).bind fun rules =>
        .ok (ofRules "s" rules.toArray scanner) := rfl
  rw [hcompile, Library.compile, hgroup]
  rfl

end Grammar

end GrammarScopes
