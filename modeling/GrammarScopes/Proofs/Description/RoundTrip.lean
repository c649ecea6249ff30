import GrammarScopes.Description.Writer
import GrammarScopes.Proofs.Description.Members
import GrammarScopes.Proofs.Json.Reading
import GrammarScopes.Proofs.Text.Decode

/-!
A grammar description that was read from a text is read again from what is written for it.
-/

namespace GrammarScopes

open Json Json.Read

namespace Description

variable {α σ : Type} {depth : Nat} {rule : Read RuleDescription}

/-! ### Switches -/

theorem yields_readSwitch : Yields (readSwitch (depth + 1)) fun s =>
    ReadsAs (readSwitch (depth + 1)) s.toJson s := by
  have hread : ∀ j c s, ReadsAs (readScalar (depth + 1)) j c → Switch.ofScalar? c = some s →
      ReadsAs (readSwitch (depth + 1)) j s := by
    intro j c s hscalar hs bs text rest hbs htext hrest
    unfold readSwitch
    rw [run_bind_of_ok (hscalar bs text rest hbs htext hrest), hs]
    rfl
  unfold readSwitch
  refine .after fun c => ?_
  split
  next s hs =>
    refine .pure ?_
    cases c with
    | bool b =>
      cases hs
      exact hread _ _ _ (readsAs_bool b) rfl
    | integer n =>
      have hs' := hs
      unfold Switch.ofScalar? at hs
      dsimp only at hs
      split at hs
      next hrange =>
        cases hs
        simp only [Bool.and_eq_true, decide_eq_true_eq] at hrange
        exact hread _ _ _ (readsAs_integer hrange.1 hrange.2) hs'
      next => cases hs
    | otherwise => cases hs
  next => exact .throw

/-! ### Members of records -/

theorem fills_optional {members : List (Member σ)} {key : String} {read : Read α} {write : α → JsonValue}
    {put : σ → Option α → σ} {value : Option α} {js : List (String × JsonValue)} {s s' : σ}
    (hput : put s none = s) (hwrite : ∀ a, write a ≠ .null) (hread : ∀ a ∈ value, ReadsAs read (write a) a)
    (h : Fills members (put s value) js s') :
    Fills (optional key read put :: members) s (member key (value.map write) ++ js) s' := by
  cases value with
  | none => exact .absent rfl (hput ▸ h)
  | some a =>
    refine .present ?_ h
    intro bs text rest hbs htext hrest
    have hsome := ReadsAs.optional (hread a rfl) (hwrite a) bs text rest hbs htext hrest
    exact run_bind_of_ok hsome

/-! ### Rules -/

theorem ruleItems_eq (rs : List RuleDescription) : ruleItems rs = rs.map ruleJson := by
  induction rs with
  | nil => rfl
  | cons r rs ih => rw [ruleItems, ih, List.map_cons]

theorem ruleMembersJson_eq (es : RuleTable) : ruleMembersJson es = es.map fun e => (e.1, ruleJson e.2) := by
  induction es with
  | nil => rfl
  | cons e es ih => rw [ruleMembersJson, ih, List.map_cons]

theorem listJson_eq (v : Option (List RuleDescription)) :
    listJson v = v.map fun rs => .list (ruleItems rs) := by
  cases v <;> rfl

theorem tableJson_eq (v : Option RuleTable) : tableJson v = v.map fun es => .object (ruleMembersJson es) := by
  cases v <;> rfl

def ListReads (depth : Nat) (rule : Read RuleDescription) (rs : List RuleDescription) : Prop :=
  ReadsAs (readSequence depth rule) (.list (ruleItems rs)) rs

def TableReads (depth : Nat) (rule : Read RuleDescription) (es : RuleTable) : Prop :=
  ReadsAs (readDictionary depth rule) (.object (ruleMembersJson es)) es

def PartsRead (depth : Nat) (rule : Read RuleDescription) : RuleDescription → Prop :=
  PartsAre (TableReads depth rule) (ListReads depth rule) fun s => ReadsAs (readSwitch depth) s.toJson s

theorem yields_list_reads (h : Yields rule fun r => ReadsAs rule (ruleJson r) r) :
    Yields (readSequence depth rule) (ListReads depth rule) := by
  refine (yields_sequence h).imp fun rs hrs => ?_
  unfold ListReads
  rw [ruleItems_eq]
  exact readsAs_sequence hrs.1 hrs.2

theorem yields_table_reads (h : Yields rule fun r => ReadsAs rule (ruleJson r) r) :
    Yields (readDictionary depth rule) (TableReads depth rule) := by
  refine (yields_dictionary h).imp fun es hes => ?_
  unfold TableReads
  rw [ruleMembersJson_eq]
  exact readsAs_dictionary hes.1 hes.2.1 hes.2.2

theorem fills_rule {r : RuleDescription} (h : PartsRead depth rule r) :
    ∃ ms, ruleJson r = .object ms ∧ Fills (ruleMembers depth rule) {} ms r := by
  obtain ⟨reference, name, contentName, pattern, captures, beginPattern, beginCaptures, endPattern,
    endCaptures, whilePattern, whileCaptures, patterns, repository, applyEndPatternLast⟩ := r
  refine ⟨_, rfl, ?_⟩
  have hstring : ∀ s, JsonValue.string s ≠ .null := nofun
  have hobject : ∀ es, JsonValue.object (ruleMembersJson es) ≠ .null := nofun
  have htext : ∀ v : Option String, ∀ s ∈ v, ReadsAs readString (.string s) s := fun _ s _ => readsAs_string s
  simp only [List.append_assoc, tableJson_eq, listJson_eq]
  unfold ruleMembers text
  refine fills_optional ?_ hstring (htext _) ?_ <;> dsimp only
  refine fills_optional ?_ hstring (htext _) ?_ <;> dsimp only
  refine fills_optional ?_ hstring (htext _) ?_ <;> dsimp only
  refine fills_optional ?_ hstring (htext _) ?_ <;> dsimp only
  refine fills_optional ?_ hobject h.captures ?_ <;> dsimp only
  refine fills_optional ?_ hstring (htext _) ?_ <;> dsimp only
  refine fills_optional ?_ hobject h.beginCaptures ?_ <;> dsimp only
  refine fills_optional ?_ hstring (htext _) ?_ <;> dsimp only
  refine fills_optional ?_ hobject h.endCaptures ?_ <;> dsimp only
  refine fills_optional ?_ hstring (htext _) ?_ <;> dsimp only
  refine fills_optional ?_ hobject h.whileCaptures ?_ <;> dsimp only
  refine fills_optional ?_ nofun h.patterns ?_ <;> dsimp only
  refine fills_optional ?_ hobject h.repository ?_ <;> dsimp only
  rw [← List.append_nil (member "applyEndPatternLast" _)]
  refine fills_optional ?_ (fun s => by cases s <;> nofun) h.applyEndPatternLast (.done _)
  rfl

theorem nodup_ruleMembers : ((ruleMembers depth rule).map Member.key).Nodup := by
  simp [ruleMembers, optional, text]

theorem yields_readRule : ∀ depth, Yields (readRule depth) fun r => ReadsAs (readRule depth) (ruleJson r) r :=
  yields_readRule_of fun depth h => by
    have hswitch : Yields (readSwitch (depth + 1)) fun s => ReadsAs (readSwitch (depth + 1)) s.toJson s :=
      yields_readSwitch
    have hmembers := yields_ruleMembers (yields_table_reads h) (yields_list_reads h) hswitch
    unfold readRule
    refine (yields_record hmembers partsAre_blank).imp fun r hr => ?_
    obtain ⟨ms, hms, hfills⟩ := fills_rule hr.2
    rw [hms]
    exact readsAs_record (Nat.le_add_left 2 depth) nodup_ruleMembers hfills

/-! ### Grammars -/

def RulesRead (depth : Nat) (rule : Read RuleDescription) : GrammarDescription → Prop :=
  RulesAre (TableReads depth rule) (ListReads depth rule)

theorem fills_grammar {g : GrammarDescription} {depth : Nat} (hdepth : 2 ≤ depth)
    (h : RulesRead depth (readRule (depth - 1)) g) :
    ∃ ms, g.toJson = .object ms ∧ Fills (grammarMembers depth) ⟨"", none, [], [], []⟩ ms g := by
  obtain ⟨scopeName, name, fileTypes, patterns, repository⟩ := g
  refine ⟨_, rfl, ?_⟩
  simp only [List.append_assoc]
  unfold grammarMembers text
  dsimp only
  refine .present (readsAs_string scopeName).map ?_
  refine fills_optional ?_ nofun (fun s _ => readsAs_string s) ?_ <;> dsimp only
  cases fileTypes with
  | nil =>
    refine .absent rfl ?_
    exact .present (ReadsAs.map h.patterns) (.present (ReadsAs.map h.repository) (.done _))
  | cons fileType fileTypes =>
    have hread := readsAs_sequence hdepth fun s (_ : s ∈ fileType :: fileTypes) => readsAs_string s
    refine .present (ReadsAs.map hread) ?_
    exact .present (ReadsAs.map h.patterns) (.present (ReadsAs.map h.repository) (.done _))

theorem yields_readGrammar : Yields readGrammar fun g => ReadsAs readGrammar g.toJson g := by
  let rule := readRule (depthLimit - 1 - 1)
  have hpatterns : ReadsAs (readSequence (depthLimit - 1) rule) (.list (List.map ruleJson [])) [] :=
    readsAs_sequence (by decide) nofun
  have hrepository : ReadsAs (readDictionary (depthLimit - 1) rule)
      (.object (List.map (fun e : String × RuleDescription => (e.1, ruleJson e.2)) [])) [] :=
    readsAs_dictionary (by decide) .nil nofun
  have hblank : RulesRead (depthLimit - 1) rule ⟨"", none, [], [], []⟩ := ⟨hpatterns, hrepository⟩
  have hrule := yields_readRule (depthLimit - 1 - 1)
  have hmembers := yields_grammarMembers (yields_table_reads hrule) (yields_list_reads hrule)
  refine (yields_record hmembers hblank).imp fun g hg => ?_
  obtain ⟨ms, hms, hfills⟩ := fills_grammar (by decide) hg.2
  rw [hms]
  exact readsAs_record (by decide) (by simp [grammarMembers, optional, text]) hfills

end Description

namespace GrammarDescription

/-- A grammar that was read from a text is read again from every text that its value has. -/
theorem ofText_of_laid {text : String} {g : GrammarDescription} (h : ofText text = .ok g) {cs : List Char}
    (hcs : g.toJson.Laid cs) : ofText (String.ofList cs) = .ok g := by
  obtain ⟨rest, hrun, -⟩ := whole_eq_ok.mp h
  have hread := Description.yields_readGrammar _ g rest hrun [] cs [] blanks_nil hcs nofun
  rw [List.nil_append, List.append_nil] at hread
  exact whole_eq_ok.mpr ⟨[], by rw [String.toList_ofList, hread], rfl⟩

theorem ofText_toJson {text : String} {g : GrammarDescription} (h : ofText text = .ok g) :
    ofText g.toJson.compact = .ok g ∧ ofText g.toJson.pretty = .ok g :=
  ⟨ofText_of_laid h (JsonValue.laid_compactText _), ofText_of_laid h (JsonValue.laid_prettyText 0 _)⟩

/-- Lists stand for objects here; a key that is not known is left out, and of equal keys the last
one holds. -/
theorem ofText_toJson_of_list :
    let text := "[\"s\", null, [], [\x7b\"x\": [1], \"match\": \"a\"\x7d], " ++
      "\x7b\"k\": [], \"k\": \x7b\"applyEndPatternLast\": 1\x7d\x7d]"
    let g : GrammarDescription :=
      ⟨"s", none, [], [{ pattern := "a" }], [("k", { applyEndPatternLast := some (.number 1) })]⟩
    ofText text = .ok g ∧ ofText g.toJson.compact = .ok g ∧ ofText g.toJson.pretty = .ok g := by
  intro text g
  have h : ofText text = .ok g := by
    rw [ofText, whole, ← Text.decode_eq]
    rfl
  exact ⟨h, ofText_toJson h⟩

end GrammarDescription

end GrammarScopes
