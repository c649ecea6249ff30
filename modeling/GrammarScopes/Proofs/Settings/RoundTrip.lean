import GrammarScopes.Proofs.Dictionary
import GrammarScopes.Proofs.Toml.Integers
import GrammarScopes.Proofs.Toml.Lines
import GrammarScopes.Settings.Toml

/-!
Settings that were read from a text are read again from what is written for them.
-/

namespace GrammarScopes.Settings

open Toml (Draft Statement Lines KeyText ValueText)

variable {s : Settings} {cs : List Char} {ss : List Statement}

def pair (key value : String) : Statement := .pair [key] (.string value)

theorem lines_pair {key k : String} (hkey : KeyText key.toList k) (value : String) (h : Lines cs ss) :
    Lines (textOfPair key value ++ cs) (pair k value :: ss) := by
  have hpair := Lines.pair hkey (ValueText.valueText value.toList) h
  rw [String.ofList_toList] at hpair
  simpa [textOfPair, pair] using hpair

theorem lines_scopes (scopes : List (String × String)) :
    Lines (scopes.flatMap textOfScope) (scopes.map fun e => pair e.1 e.2) := by
  induction scopes with
  | nil => exact .nil
  | cons e scopes ih =>
    have hkey := KeyText.keyText e.1.toList
    rw [String.ofList_toList, ← String.toList_ofList (l := Toml.Quote.keyText e.1.toList)] at hkey
    rw [List.flatMap_cons, List.map_cons]
    exact lines_pair hkey e.2 ih

theorem lines_header (header : String) (path : List String)
    (hbegins : ∃ line, header.toList = '[' :: line) (hfeed : '\r' ∉ header.toList)
    (hs : ∀ rest, Toml.statement? (header.toList ++ '\n' :: rest) = some (.table path, '\n' :: rest))
    (h : Lines cs ss) : Lines (header.toList ++ '\n' :: cs) (.table path :: ss) := by
  obtain ⟨line, hline⟩ := hbegins
  rw [hline] at hfeed hs ⊢
  exact .line (by decide) hfeed hs h

theorem keyText_of_bare (key : String) (hne : key.toList ≠ [])
    (hbare : key.toList.all Toml.Quote.isBare) : KeyText key.toList key := by
  have h := KeyText.bare hne (List.all_eq_true.mp hbare)
  rwa [String.ofList_toList] at h

def opening (s : Settings) : List Statement :=
  let directory := match s.directory with
    | some d => [Statement.table ["grammars"], pair "dir" d]
    | none => []
  [pair "root_scope" s.rootScope, Statement.table ["limits"],
    Statement.pair ["max_line_length"] (.integer s.maxLineLength)] ++ directory ++
    [Statement.table ["grammars", "scopes"]]

theorem exists_toToml? (h : s.maxLineLength < Nat.pow 2 63) : ∃ cs, s.toToml? = some (String.ofList cs) ∧
    Lines cs (s.opening ++ s.scopes.map fun e => pair e.1 e.2) ∧ cs.head? = some 'r' := by
  have hinteger : Toml.integer? s.maxLineLength = some (s.maxLineLength : Int) := by
    unfold Toml.integer?
    rw [if_pos]
    simp only [Bool.and_eq_true, decide_eq_true_eq]
    omega
  have hdigits : (toString (s.maxLineLength : Int)).toList = Nat.toDigits 10 s.maxLineLength := by
    rw [Text.toList_toString, if_pos (Int.natCast_nonneg _), Int.toNat_natCast]
  have hlines : "[grammars]\n".toList = "[grammars]".toList ++ ['\n'] ∧
      "[grammars.scopes]\n".toList = "[grammars.scopes]".toList ++ ['\n'] ∧
      "\n\n".toList = ['\n', '\n'] ∧ "\n[limits]\nmax_line_length = ".toList =
        '\n' :: ("[limits]".toList ++ '\n' :: ("max_line_length".toList ++ " = ".toList)) := by decide
  -- the lines in front of those from `[grammars]` on
  have hfront {cs : List Char} {ss : List Statement} (h : Lines cs ss) := by
    have hlength := Lines.pair (keyText_of_bare "max_line_length" (by decide) (by decide))
      (ValueText.toDigits hinteger) (.blank h)
    have hlimits := lines_header "[limits]" ["limits"] ⟨_, rfl⟩ (by decide) (fun rest => rfl) hlength
    exact lines_pair (keyText_of_bare "root_scope" (by decide) (by decide)) s.rootScope (.blank hlimits)
  have hscopes := lines_header "[grammars.scopes]" ["grammars", "scopes"] ⟨_, rfl⟩ (by decide) (fun rest => rfl)
    (lines_scopes s.scopes)
  unfold toToml? opening
  rw [hinteger, Option.bind_eq_bind, Option.bind_some, hdigits, hlines.2.2.1, hlines.2.2.2]
  cases s.directory with
  | none =>
    refine ⟨_, rfl, ?_, rfl⟩
    have h := hfront hscopes
    simpa [hlines] using h
  | some d =>
    have hdir := lines_pair (keyText_of_bare "dir" (by decide) (by decide)) d (.blank hscopes)
    have hgrammars := lines_header "[grammars]" ["grammars"] ⟨_, rfl⟩ (by decide) (fun rest => rfl) hdir
    refine ⟨_, rfl, ?_, rfl⟩
    have h := hfront hgrammars
    simpa [hlines] using h

def entries (s : Settings) (scopes : TomlValue.Entries) : TomlValue.Entries :=
  let grammars := match s.directory with
    | some d => TomlValue.table .header [("dir", .string d), ("scopes", TomlValue.table .header scopes)]
    | none => TomlValue.table .implied [("scopes", TomlValue.table .header scopes)]
  [("grammars", grammars), ("limits", TomlValue.table .header [("max_line_length", .integer s.maxLineLength)]),
    ("root_scope", .string s.rootScope)]

theorem foldlM_opening (s : Settings) :
    s.opening.foldlM Draft.add {} = some ⟨["grammars", "scopes"], s.entries []⟩ := by
  have hlimits : "limits" < "root_scope" := by decide
  have hgrammars : "grammars" < "limits" := by decide
  have hscopes : ¬"scopes" < "dir" := by decide
  unfold opening entries
  cases s.directory with
  | none =>
    simp [pair, Draft.add, Toml.changeAt, Toml.addPair, Toml.addHeader, Dictionary.insert, Dictionary.find?,
      -String.lt_iff_ltb, hlimits, hgrammars]
  | some d =>
    simp [pair, Draft.add, Toml.changeAt, Toml.addPair, Toml.addHeader, Dictionary.insert, Dictionary.find?,
      -String.lt_iff_ltb, hlimits, hgrammars, hscopes]

theorem add_scope (s : Settings) {acc : TomlValue.Entries} {key value : String} (hacc : ∀ e ∈ acc, e.1 < key) :
    Draft.add ⟨["grammars", "scopes"], s.entries acc⟩ (pair key value) =
      some ⟨["grammars", "scopes"], s.entries (acc ++ [(key, .string value)])⟩ := by
  have hnone : Dictionary.find? acc key = none := Dictionary.find?_eq_none_of_forall_lt hacc
  have hadd : Toml.addPair [key] (.string value) .header acc = some (acc ++ [(key, .string value)]) := by
    simp [Toml.addPair, Toml.changeAt, hnone, Dictionary.insert_of_forall_lt hacc]
  have hscopes : ¬"scopes" < "dir" := by decide
  unfold entries
  cases s.directory with
  | none =>
    simp [pair, Draft.add, Toml.changeAt, hadd, Dictionary.insert, Dictionary.find?, -String.lt_iff_ltb]
  | some d =>
    simp [pair, Draft.add, Toml.changeAt, hadd, Dictionary.insert, Dictionary.find?, -String.lt_iff_ltb, hscopes]

theorem foldlM_scopes (s : Settings) (scopes : List (String × String)) (acc : TomlValue.Entries)
    (hsorted : Dictionary.Sorted (acc ++ scopes.map fun e => (e.1, TomlValue.string e.2))) :
    (scopes.map fun e => pair e.1 e.2).foldlM Draft.add ⟨["grammars", "scopes"], s.entries acc⟩ =
      some ⟨["grammars", "scopes"], s.entries (acc ++ scopes.map fun e => (e.1, .string e.2))⟩ := by
  induction scopes generalizing acc with
  | nil => simp
  | cons e scopes ih =>
    have hlt : ∀ e' ∈ acc, e'.1 < e.1 := fun e' he' =>
      (List.pairwise_append.mp hsorted).2.2 e' he' _ List.mem_cons_self
    have hrest := ih (acc ++ [(e.1, .string e.2)]) (by simpa using hsorted)
    rw [List.map_cons, List.foldlM_cons, add_scope s hlt, Option.bind_eq_bind, Option.bind_some, hrest,
      List.append_assoc]
    rfl

theorem assemble_statements (h : Dictionary.Sorted s.scopes) :
    Toml.assemble (s.opening ++ s.scopes.map fun e => pair e.1 e.2) =
      some (s.entries (s.scopes.map fun e => (e.1, .string e.2))) := by
  have hsorted : Dictionary.Sorted (s.scopes.map fun e => (e.1, TomlValue.string e.2)) :=
    List.pairwise_map.mpr h
  unfold Toml.assemble
  rw [List.foldlM_append, foldlM_opening, Option.bind_eq_bind, Option.bind_some, foldlM_scopes s _ [] hsorted]
  rfl

theorem ofEntries_of_sorted {table : GrammarTable} (h : Dictionary.Sorted table) :
    GrammarTable.ofEntries table = table :=
  Dictionary.foldl_insert h

theorem texts?_strings (form : TableForm) (es : List (String × String)) :
    (TomlValue.table form (es.map fun e => (e.1, .string e.2))).texts? = some es := by
  unfold TomlValue.texts?
  dsimp only
  induction es with
  | nil => rfl
  | cons e es ih =>
    rw [List.map_cons, List.mapM_cons, ih]
    rfl

theorem exists_ofToml? (hlength : s.maxLineLength < Nat.pow 2 63) (hscopes : Dictionary.Sorted s.scopes) :
    ∃ text, s.toToml? = some text ∧ ofToml? text = some s := by
  obtain ⟨cs, htext, hlines, hhead⟩ := exists_toToml? hlength
  have hread := hlines.read? (by rw [hhead]; decide)
  have hnatural : TomlValue.natural? (.integer s.maxLineLength) = some s.maxLineLength := by
    rw [TomlValue.natural?, if_neg (by omega), Int.toNat_natCast]
  have htexts := texts?_strings .header s.scopes
  refine ⟨_, htext, ?_⟩
  unfold ofToml?
  rw [hread, assemble_statements hscopes]
  unfold entries
  obtain ⟨rootScope, maxLineLength, directory, scopes⟩ := s
  dsimp only at hnatural htexts hscopes ⊢
  cases directory with
  | none =>
    simp [Dictionary.find?, fieldOr, readLimits, readGrammars, TomlValue.fields?, TomlValue.string?, hnatural, htexts,
      ofEntries_of_sorted hscopes]
  | some d =>
    simp [Dictionary.find?, fieldOr, readLimits, readGrammars, TomlValue.fields?, TomlValue.string?, hnatural, htexts,
      ofEntries_of_sorted hscopes]

/-! ### What can be read -/

structure Writable (s : Settings) : Prop where
  maxLineLength_lt : s.maxLineLength < Nat.pow 2 63
  sorted : Dictionary.Sorted s.scopes

theorem writable_default : Writable {} := ⟨by decide, .nil⟩

theorem inRange_fields? {v w : TomlValue} {names : List String} {fields : List (Option TomlValue)}
    (hv : v.InRange) (h : v.fields? names = some fields) (hw : some w ∈ fields) : w.InRange := by
  unfold TomlValue.fields? at h
  split at h
  next =>
    cases h
    cases hv with
    | table hentries =>
      obtain ⟨name, -, hfind⟩ := List.mem_map.mp hw
      exact Toml.inRange_find? hentries hfind
  next =>
    cases h
    cases hv with
    | array hitems =>
      obtain ⟨i, -, hi⟩ := List.mem_map.mp hw
      exact hitems w (List.mem_of_getElem? hi)
  next =>
    cases h
    cases hv with
    | tables hrows =>
      obtain ⟨i, -, hi⟩ := List.mem_map.mp hw
      obtain ⟨row, hrow, rfl⟩ := Option.map_eq_some_iff.mp hi
      exact .table (hrows row (List.mem_of_getElem? hrow))
  next =>
    cases h
    obtain ⟨name, -, hnone⟩ := List.mem_map.mp hw
    cases hnone
  next => cases h

theorem natural?_lt {v : TomlValue} {n : Nat} (hv : v.InRange) (h : v.natural? = some n) :
    n < Nat.pow 2 63 := by
  cases hv with
  | integer hm =>
    unfold TomlValue.natural? at h
    dsimp only at h
    unfold Toml.integer? at hm
    split at h
    next => cases h
    next =>
      cases h
      split at hm
      next hrange =>
        simp only [Bool.and_eq_true, decide_eq_true_eq] at hrange
        omega
      next => cases hm
  | _ => cases h

theorem fieldOr_eq_some {α : Type} {default a : α} {read : TomlValue → Option α} {v : Option TomlValue}
    (h : fieldOr default read v = some a) : (v = none ∧ a = default) ∨ ∃ w, v = some w ∧ read w = some a := by
  cases v with
  | none => cases h; exact .inl ⟨rfl, rfl⟩
  | some w => exact .inr ⟨w, rfl, h⟩

theorem writable_readLimits {s' : Settings} {v : TomlValue} (hs : s.Writable) (hv : v.InRange)
    (h : readLimits s v = some s') : s'.Writable := by
  unfold readLimits at h
  obtain ⟨fields, hfields, h⟩ := Option.bind_eq_some_iff.mp h
  split at h
  next length =>
    obtain ⟨n, hn, h⟩ := Option.bind_eq_some_iff.mp h
    cases h
    refine ⟨?_, hs.sorted⟩
    rcases fieldOr_eq_some hn with ⟨-, rfl⟩ | ⟨w, rfl, hw⟩
    · exact hs.maxLineLength_lt
    · exact natural?_lt (inRange_fields? hv hfields List.mem_cons_self) hw
  next => cases h

theorem writable_readGrammars {s' : Settings} {v : TomlValue} (hs : s.Writable)
    (h : readGrammars s v = some s') : s'.Writable := by
  unfold readGrammars at h
  obtain ⟨fields, -, h⟩ := Option.bind_eq_some_iff.mp h
  split at h
  next directory scopes =>
    simp only [Option.bind_eq_bind, Option.bind_eq_some_iff] at h
    obtain ⟨d, -, table, htable, h⟩ := h
    cases h
    refine ⟨hs.maxLineLength_lt, ?_⟩
    rcases fieldOr_eq_some htable with ⟨-, rfl⟩ | ⟨w, -, hw⟩
    · exact hs.sorted
    · obtain ⟨es, -, rfl⟩ := Option.map_eq_some_iff.mp hw
      exact Dictionary.sorted_foldl_insert .nil es
  next => cases h

theorem writable_of_ofToml? {text : String} (h : ofToml? text = some s) : s.Writable := by
  unfold ofToml? at h
  simp only [Option.bind_eq_bind, Option.bind_eq_some_iff] at h
  obtain ⟨entries, hentries, rootScope, -, s₁, hs₁, s₂, hs₂, h⟩ := h
  cases h
  have hrange := Toml.inRange_read? hentries
  have hlimits : s₁.Writable := by
    rcases fieldOr_eq_some hs₁ with ⟨-, rfl⟩ | ⟨v, hv, hread⟩
    · exact writable_default
    · exact writable_readLimits writable_default (Toml.inRange_find? hrange hv) hread
  have hgrammars : s₂.Writable := by
    rcases fieldOr_eq_some hs₂ with ⟨-, rfl⟩ | ⟨v, hv, hread⟩
    · exact hlimits
    · exact writable_readGrammars hlimits hread
  exact ⟨hgrammars.maxLineLength_lt, hgrammars.sorted⟩

/-- Settings that were read from a text can be written, and are read again from what is written. -/
theorem ofToml?_toToml? {text : String} (h : ofToml? text = some s) :
    ∃ t, s.toToml? = some t ∧ ofToml? t = some s :=
  have hs := writable_of_ofToml? h
  exists_ofToml? hs.maxLineLength_lt hs.sorted

/-- Quotes, a backslash, line ends, an empty name and a name with a dot are written with the escapes
and marks that they need. -/
theorem ofToml?_toToml?_of_escapes :
    let text := "root_scope = \"a\\\"\\\\\\n\\r\"\nlimits.max_line_length = 0x7fffffffffffffff\n" ++
      "[grammars.scopes]\n\"a.b\" = ''\n\"\" = \"'\\\"\""
    let s : Settings :=
      { rootScope := "a\"\\\n\r", maxLineLength := 9223372036854775807,
        scopes := [("", "'\""), ("a.b", "")] }
    ofToml? text = some s ∧ ∃ t, s.toToml? = some t ∧ ofToml? t = some s := by
  intro text s
  have h : ofToml? text = some s := by decide +kernel
  exact ⟨h, ofToml?_toToml? h⟩

end GrammarScopes.Settings
