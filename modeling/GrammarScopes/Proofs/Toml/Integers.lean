import GrammarScopes.Proofs.Dictionary
import GrammarScopes.Toml.Reader

/-!
The integers of a document are in the range of integers.
-/

namespace GrammarScopes

inductive TomlValue.InRange : TomlValue → Prop
  | string (s : String) : InRange (string s)
  | integer {n : Int} (h : Toml.integer? n = some n) : InRange (integer n)
  | float (text : String) : InRange (float text)
  | boolean (b : Bool) : InRange (boolean b)
  | dateTime (text : String) : InRange (dateTime text)
  | array {items : List TomlValue} (h : ∀ v ∈ items, InRange v) : InRange (array items)
  | table {form : TableForm} {entries : List (String × TomlValue)} (h : ∀ e ∈ entries, InRange e.2) :
    InRange (table form entries)
  | tables {rows : List (List (String × TomlValue))} (h : ∀ row ∈ rows, ∀ e ∈ row, InRange e.2) :
    InRange (tables rows)

open TomlValue (Entries)

def TomlValue.Entries.InRange (entries : Entries) : Prop := ∀ e ∈ entries, e.2.InRange

namespace Toml

variable {n : Nat} {cs rest : List Char} {v : TomlValue} {entries entries' : Entries}

theorem inRange_nil : Entries.InRange [] := nofun

theorem inRange_insert {key : String} (hv : v.InRange) (h : entries.InRange) :
    Entries.InRange (Dictionary.insert key v entries) := by
  intro e he
  rcases Dictionary.mem_insert he with rfl | he
  · exact hv
  · exact h e he

theorem inRange_find? {key : String} (h : entries.InRange) (hfind : Dictionary.find? entries key = some v) :
    v.InRange :=
  h _ (Dictionary.mem_of_find? hfind)

/-! ### Values -/

theorem inRange_integer? {n m : Int} (h : integer? n = some m) : TomlValue.InRange (.integer m) := by
  have hm := h
  unfold integer? at h
  split at h
  next => cases h; exact .integer hm
  next => cases h

theorem inRange_readInteger? {m : Int} (h : readInteger? cs = some m) : TomlValue.InRange (.integer m) := by
  unfold readInteger? at h
  split at h
  all_goals
    obtain ⟨n, -, hn⟩ := Option.bind_eq_some_iff.mp h
    exact inRange_integer? hn

theorem inRange_scalar? (h : scalar? cs = some v) : v.InRange := by
  unfold scalar? at h
  split at h
  next => cases h; exact .boolean true
  next =>
    split at h
    next => cases h; exact .boolean false
    next =>
      split at h
      next => cases h; exact .dateTime _
      next =>
        split at h
        next => cases h; exact .float _
        next =>
          obtain ⟨m, hm, rfl⟩ := Option.map_eq_some_iff.mp h
          exact inRange_readInteger? hm

variable {value? : List Char → Option (TomlValue × List Char)}

theorem inRange_items? (hvalue : ∀ cs v rest, value? cs = some (v, rest) → v.InRange) {items : List TomlValue}
    (h : items? value? n cs = some (items, rest)) : ∀ v ∈ items, v.InRange := by
  induction n generalizing cs items rest with
  | zero => cases h
  | succ n ih =>
    unfold items? at h
    split at h
    next => cases h; nofun
    next =>
      simp only [Option.bind_eq_bind, Option.bind_eq_some_iff, Prod.exists] at h
      obtain ⟨item, cs, hitem, h⟩ := h
      have hv := hvalue _ _ _ hitem
      split at h
      next => cases h; exact List.forall_mem_singleton.mpr hv
      next =>
        simp only [Option.bind_eq_some_iff, Prod.exists] at h
        obtain ⟨items, cs, hitems, h⟩ := h
        cases h
        exact List.forall_mem_cons.mpr ⟨hv, ih hitems⟩
      next => cases h

theorem inRange_pairs? (hvalue : ∀ cs v rest, value? cs = some (v, rest) → v.InRange)
    {pairs : List (List String × TomlValue)} (h : pairs? value? n cs = some (pairs, rest)) :
    ∀ p ∈ pairs, p.2.InRange := by
  induction n generalizing cs pairs rest with
  | zero => cases h
  | succ n ih =>
    unfold pairs? at h
    simp only [Option.bind_eq_bind, Option.bind_eq_some_iff, Prod.exists] at h
    obtain ⟨key, cs, -, v, cs, hitem, h⟩ := h
    have hv := hvalue _ _ _ hitem
    split at h
    next => cases h; exact List.forall_mem_singleton.mpr hv
    next =>
      simp only [Option.bind_eq_some_iff, Prod.exists] at h
      obtain ⟨pairs, cs, hpairs, h⟩ := h
      cases h
      exact List.forall_mem_cons.mpr ⟨hv, ih hpairs⟩
    next => cases h

/-! ### Changes to tables -/

theorem inRange_changeAt {isDotted : Bool} {change : TableForm → Entries → Option Entries}
    (hchange : ∀ form entries entries', entries.InRange → change form entries = some entries' → entries'.InRange)
    {path : List String} {form : TableForm} (hentries : entries.InRange)
    (h : changeAt isDotted change path form entries = some entries') : entries'.InRange := by
  induction path generalizing form entries entries' with
  | nil => exact hchange _ _ _ hentries h
  | cons key path ih =>
    unfold changeAt at h
    split at h
    next =>
      obtain ⟨inner, hinner, h⟩ := Option.bind_eq_some_iff.mp h
      cases h
      exact inRange_insert (.table (ih inRange_nil hinner)) hentries
    next hfind =>
      split at h
      next => cases h
      next =>
        obtain ⟨inner, hinner, h⟩ := Option.bind_eq_some_iff.mp h
        cases h
        cases inRange_find? hentries hfind with
        | table hin => exact inRange_insert (.table (ih hin hinner)) hentries
    next rows hfind =>
      obtain ⟨last, hlast, h⟩ := Option.bind_eq_some_iff.mp h
      obtain ⟨row, hrow, h⟩ := Option.bind_eq_some_iff.mp h
      cases h
      cases inRange_find? hentries hfind with
      | tables hrows =>
        refine inRange_insert (.tables fun row' hrow' => ?_) hentries
        rcases List.mem_append.mp hrow' with hrow' | hrow'
        · exact hrows row' (List.dropLast_subset rows hrow')
        · rw [List.mem_singleton.mp hrow']
          exact ih (hrows last (List.mem_of_getLast? hlast)) hrow
    next => cases h

theorem inRange_addPair {key : List String} {form : TableForm} (hv : v.InRange) (hentries : entries.InRange)
    (h : addPair key v form entries = some entries') : entries'.InRange := by
  unfold addPair at h
  split at h
  next => cases h
  next =>
    refine inRange_changeAt (fun form entries entries' hentries h => ?_) hentries h
    split at h
    next => cases h
    next =>
      split at h
      next => cases h
      next =>
        cases h
        exact inRange_insert hv hentries

theorem inRange_inlineEntries {pairs : List (List String × TomlValue)} (hpairs : ∀ p ∈ pairs, p.2.InRange)
    (h : inlineEntries pairs = some entries) : entries.InRange := by
  have hfold : ∀ start, start.InRange →
      pairs.foldlM (fun entries p => addPair p.1 p.2 .inline entries) start = some entries → entries.InRange := by
    clear h
    induction pairs with
    | nil =>
      intro start hstart h
      cases h
      exact hstart
    | cons p pairs ih =>
      intro start hstart h
      obtain ⟨hp, hpairs⟩ := List.forall_mem_cons.mp hpairs
      rw [List.foldlM_cons] at h
      obtain ⟨next, hnext, h⟩ := Option.bind_eq_some_iff.mp h
      exact ih hpairs next (inRange_addPair hp hstart hnext) h
  exact hfold [] inRange_nil h

theorem inRange_value? (depth : Nat) (cs : List Char) (v : TomlValue) (rest : List Char)
    (h : Toml.value? depth cs = some (v, rest)) : v.InRange := by
  have hstring {q : Quote} {cs rest : List Char} {v : TomlValue}
      (h : (q.read cs).map (fun p => (TomlValue.string (String.ofList p.1), p.2)) = some (v, rest)) :
      v.InRange := by
    obtain ⟨p, -, heq⟩ := Option.map_eq_some_iff.mp h
    cases heq
    exact .string _
  have hscalar {cs rest : List Char} {v : TomlValue}
      (h : (scalar? (scalarText cs)).map (·, cs.drop (scalarText cs).length) = some (v, rest)) : v.InRange := by
    obtain ⟨w, hw, heq⟩ := Option.map_eq_some_iff.mp h
    cases heq
    exact inRange_scalar? hw
  induction depth generalizing cs v rest with
  | zero =>
    unfold Toml.value? at h
    split at h
    next => exact hstring h
    next => exact hscalar h
  | succ depth ih =>
    unfold Toml.value? at h
    split at h
    next => exact hstring h
    next =>
      split at h
      next heq _ =>
        cases heq
        obtain ⟨p, hp, heq⟩ := Option.map_eq_some_iff.mp h
        cases heq
        exact .array (inRange_items? ih hp)
      next heq _ =>
        cases heq
        split at h
        next => cases h; exact .table nofun
        next =>
          simp only [Option.bind_eq_bind, Option.bind_eq_some_iff, Prod.exists] at h
          obtain ⟨pairs, cs, hpairs, entries, hentries, h⟩ := h
          cases h
          exact .table (inRange_inlineEntries (inRange_pairs? ih hpairs) hentries)
      next => exact hscalar h

/-! ### Documents -/

def Statement.InRange : Statement → Prop
  | .pair _ v => v.InRange
  | _ => True

theorem inRange_statement? {s : Statement} (h : statement? cs = some (s, rest)) : s.InRange := by
  unfold statement? at h
  split at h
  all_goals simp only [Option.bind_eq_bind, Option.bind_eq_some_iff, Prod.exists] at h
  next =>
    obtain ⟨path, cs, -, cs', -, cs'', -, h⟩ := h
    cases h
    trivial
  next =>
    obtain ⟨path, cs, -, cs', -, h⟩ := h
    cases h
    trivial
  next =>
    obtain ⟨key, cs, -, v, cs', hv, h⟩ := h
    cases h
    exact inRange_value? _ _ _ _ hv

theorem inRange_statements? {ss : List Statement} (h : statements? n cs = some ss) : ∀ s ∈ ss, s.InRange := by
  induction n generalizing cs ss with
  | zero => cases h
  | succ n ih =>
    unfold statements? at h
    split at h
    next => cases h; nofun
    next =>
      simp only [Option.bind_eq_bind, Option.bind_eq_some_iff, Prod.exists] at h
      obtain ⟨s, cs, hs, cs', -, ss, hss, h⟩ := h
      cases h
      exact List.forall_mem_cons.mpr ⟨inRange_statement? hs, ih hss⟩

theorem inRange_addHeader {last : String} (hentries : entries.InRange)
    (h : addHeader last entries = some entries') :
    entries'.InRange := by
  unfold addHeader at h
  split at h
  next => cases h; exact inRange_insert (.table nofun) hentries
  next hfind =>
    cases h
    cases inRange_find? hentries hfind with
    | table hinner => exact inRange_insert (.table hinner) hentries
  next => cases h

theorem inRange_addRow {last : String} (hentries : entries.InRange) (h : addRow last entries = some entries') :
    entries'.InRange := by
  have hnone : ∀ row ∈ [([] : Entries)], ∀ e ∈ row, e.2.InRange := by
    intro row hrow
    rw [List.mem_singleton.mp hrow]
    nofun
  unfold addRow at h
  split at h
  next => cases h; exact inRange_insert (.tables hnone) hentries
  next hfind =>
    cases h
    cases inRange_find? hentries hfind with
    | tables hrows =>
      refine inRange_insert (.tables fun row hrow => ?_) hentries
      exact (List.mem_append.mp hrow).elim (hrows row) (hnone row)
  next => cases h

theorem inRange_add {d d' : Draft} {s : Statement} (hs : s.InRange) (hd : d.entries.InRange)
    (h : d.add s = some d') :
    d'.entries.InRange := by
  unfold Draft.add at h
  split at h
  next =>
    obtain ⟨entries, hentries, h⟩ := Option.bind_eq_some_iff.mp h
    cases h
    exact inRange_changeAt (fun _ _ _ hentries h => inRange_addPair hs hentries h) hd hentries
  next =>
    simp only [Option.bind_eq_bind, Option.bind_eq_some_iff] at h
    obtain ⟨last, -, entries, hentries, h⟩ := h
    cases h
    exact inRange_changeAt (fun _ _ _ hentries h => inRange_addHeader hentries h) hd hentries
  next =>
    simp only [Option.bind_eq_bind, Option.bind_eq_some_iff] at h
    obtain ⟨last, -, entries, hentries, h⟩ := h
    cases h
    exact inRange_changeAt (fun _ _ _ hentries h => inRange_addRow hentries h) hd hentries

theorem inRange_foldlM {ss : List Statement} {d d' : Draft} (hss : ∀ s ∈ ss, s.InRange) (hd : d.entries.InRange)
    (h : ss.foldlM Draft.add d = some d') : d'.entries.InRange := by
  induction ss generalizing d with
  | nil => cases h; exact hd
  | cons s ss ih =>
    obtain ⟨hs, hss⟩ := List.forall_mem_cons.mp hss
    rw [List.foldlM_cons] at h
    obtain ⟨next, hnext, h⟩ := Option.bind_eq_some_iff.mp h
    exact ih hss (inRange_add hs hd hnext) h

theorem inRange_read? {text : String} (h : read? text = some entries) : entries.InRange := by
  unfold read? at h
  simp only [Option.bind_eq_bind, Option.bind_eq_some_iff] at h
  obtain ⟨cs, -, ss, hss, h⟩ := h
  obtain ⟨d, hd, rfl⟩ := Option.map_eq_some_iff.mp h
  exact inRange_foldlM (inRange_statements? hss) inRange_nil hd

end Toml

end GrammarScopes
