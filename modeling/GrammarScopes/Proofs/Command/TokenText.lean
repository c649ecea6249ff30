import GrammarScopes.Command.Basic
import GrammarScopes.Proofs.Document.CursorScopes
import GrammarScopes.Proofs.Registry.Closure
import GrammarScopes.Proofs.Text.Digits
import GrammarScopes.Proofs.Text.Split
import GrammarScopes.Proofs.Tokenizer.ActiveRules

/-!
The tokens of a document as text.  They can be read back from it, as no scope has white space in it, and the text for
one line is what the text for the whole document has for it.
-/

namespace GrammarScopes

/-- Scopes that can be told apart with white space between them. -/
def Token.IsPlain (t : Token) : Prop :=
  t.scopes ≠ [] ∧ ∀ name ∈ t.scopes, ∀ c ∈ name.toList, Text.isBlank c = false

theorem Token.IsPlain.not_mem {t : Token} (ht : t.IsPlain) {c : Char} (hc : Text.isBlank c = true) :
    ∀ piece ∈ t.scopes.map String.toList, c ∉ piece := by
  intro piece hpiece hmem
  obtain ⟨name, hname, rfl⟩ := List.mem_map.mp hpiece
  simp [ht.2 name hname c hmem] at hc

section Scopes

variable {g : Grammar} {maxLength : Nat} {lines : List String} {stack : RuleStack} {tokens : List (List Token)}
  {s : Settings} {files : FileTree} {d : Document} {root : Option String}

theorem ScopesOf.isPlain {scopeName : String} {t : Token} (h : ScopesOf scopeName t.scopes)
    (hscope : ∀ c ∈ scopeName.toList, Text.isBlank c = false) : t.IsPlain := by
  obtain ⟨names, hscopes, hnames⟩ := h
  rw [Token.IsPlain, hscopes]
  constructor
  · simp
  · exact List.forall_mem_cons.mpr ⟨hscope, fun name hname => (hnames name hname).2⟩

namespace Grammar

theorem tokenizeLines_scopes (hg : g.WellFormed) (hstack : g.Ready stack)
    (h : g.tokenizeLines maxLength lines stack = .ok tokens) :
    ∀ ts ∈ tokens, ∀ t ∈ ts, ScopesOf g.scopeName t.scopes := by
  induction lines generalizing stack tokens with
  | nil =>
    cases h
    simp
  | cons text rest ih =>
    unfold tokenizeLines at h
    split at h
    next =>
      obtain ⟨later, hlater, h⟩ := bind_eq_ok.mp h
      cases h
      exact List.forall_mem_cons.mpr ⟨by simp, ih hstack hlater⟩
    next =>
      obtain ⟨r, hr, h⟩ := bind_eq_ok.mp h
      obtain ⟨later, hlater, h⟩ := bind_eq_ok.mp h
      cases h
      obtain ⟨-, hready, hscopes⟩ := tokenizeNested_ready hg hstack hr
      exact List.forall_mem_cons.mpr ⟨hscopes, ih hready hlater⟩

end Grammar

theorem Service.isPlain_of_tokenize (hroot : ∀ c ∈ (root.getD s.rootScope).toList, Text.isBlank c = false)
    (h : (Service.ofSettings s files).tokenize d root = .ok tokens) : ∀ ts ∈ tokens, ∀ t ∈ ts, t.IsPlain := by
  obtain ⟨g, hgrammar, hlines⟩ := Service.tokenize_eq_ok _ d root h
  have hload : Registry.loadAlone s.table (s.source files) (root.getD s.rootScope) = .ok g := hgrammar
  obtain ⟨found, hcompile⟩ := (Registry.compilesTo_of_loadAlone hload).exists_compile
  intro ts hts t ht
  have hscopes := Grammar.tokenizeLines_scopes (Grammar.compile_wellFormed hcompile) g.ready_initial hlines ts hts t ht
  rw [Grammar.compile_scopeName hcompile] at hscopes
  exact hscopes.isPlain hroot

end Scopes

namespace TokenReport

/-- Reads a line of text that stands for a token: the number of its line, where it begins and ends, and its scopes. -/
def readToken? (cs : List Char) : Option (Nat × Token) := do
  let (line, cs) ← Text.splitOnce ':' cs
  let (start, cs) ← Text.splitOnce '-' cs
  let (stop, scopes) ← Text.splitOnce ' ' cs
  return (← Text.decimal? 0 line,
    ⟨← Text.decimal? 0 start, ← Text.decimal? 0 stop, (Text.splitAll ' ' scopes).map String.ofList⟩)

def textLines? (text : String) : Option (List (List Char)) :=
  match (Text.splitAll '\n' text.toList).reverse with
  | [] :: lines => some lines.reverse
  | _ => none

def readTokens? (text : String) : Option (List (Nat × Token)) := (textLines? text).bind (·.mapM readToken?)

/-- The tokens of all lines in order, each with the number of its line. -/
def numbered (tokens : List (List Token)) : List (Nat × Token) :=
  tokens.zipIdx.flatMap fun (ts, line) => ts.map (line, ·)

/-- Whether a line of text stands for a token of a line. -/
def isOfLine (line : Nat) (cs : List Char) : Bool := (readToken? cs).any (·.1 == line)

section Reading

variable {t : Token} {mark : Char}

def charsOfToken (line : Nat) (t : Token) : List Char :=
  Nat.toDigits 10 line ++ ':' :: (Nat.toDigits 10 t.start ++ '-' :: (Nat.toDigits 10 t.stop ++
    ' ' :: [' '].intercalate (t.scopes.map String.toList)))

theorem toList_textOfToken (line : Nat) (t : Token) : (textOfToken line t).toList = charsOfToken line t ++ ['\n'] := by
  have hcolon : ":".toList = [':'] := rfl
  have hdash : "-".toList = ['-'] := rfl
  have hspace : " ".toList = [' '] := rfl
  have hfeed : "\n".toList = ['\n'] := rfl
  have hnumber (n : Nat) : (toString n).toList = Nat.toDigits 10 n := Nat.toList_repr
  simp only [textOfToken, charsOfToken, String.toList_append, String.toList_intercalate, hcolon, hdash, hspace, hfeed,
    hnumber, List.append_assoc, List.cons_append, List.nil_append]

theorem splitOnce_toDigits (n : Nat) (hmark : mark.isDigit = false) (rest : List Char) :
    Text.splitOnce mark (Nat.toDigits 10 n ++ mark :: rest) = some (Nat.toDigits 10 n, rest) := by
  apply Text.splitOnce_eq_some.mpr
  constructor
  · intro hmem
    simp [Text.isDigit_toDigits hmem] at hmark
  · rfl

theorem splitAll_scopes (ht : t.IsPlain) :
    Text.splitAll ' ' ([' '].intercalate (t.scopes.map String.toList)) = t.scopes.map String.toList := by
  apply Text.splitAll_intercalate
  · simpa using ht.1
  · exact ht.not_mem (by decide)

theorem readToken?_charsOfToken (line : Nat) (ht : t.IsPlain) : readToken? (charsOfToken line t) = some (line, t) := by
  have hnames : (t.scopes.map String.toList).map String.ofList = t.scopes := by simp
  rw [readToken?, charsOfToken, splitOnce_toDigits line (by decide)]
  change (Text.splitOnce '-' _).bind _ = _
  rw [splitOnce_toDigits t.start (by decide)]
  change (Text.splitOnce ' ' _).bind _ = _
  rw [splitOnce_toDigits t.stop (by decide)]
  simp only [Text.decimal?_toDigits, Option.bind_some, Option.bind_eq_bind, Option.pure_def, splitAll_scopes ht, hnames]

theorem feed_not_mem_charsOfToken (line : Nat) (ht : t.IsPlain) : '\n' ∉ charsOfToken line t := by
  have hdigits (n : Nat) : '\n' ∉ Nat.toDigits 10 n := fun h => absurd (Text.isDigit_toDigits h) (by decide)
  have hscopes : '\n' ∉ [' '].intercalate (t.scopes.map String.toList) := by
    apply Text.not_mem_intercalate (by decide)
    exact ht.not_mem (by decide)
  simp [charsOfToken, hdigits, hscopes]

end Reading

section Texts

variable {reports : List TokenReport} {tokens : List (List Token)} {lines : List (List Char)} {text : String}

theorem textLines?_eq (hlines : ∀ cs ∈ lines, '\n' ∉ cs) (htext : text.toList = lines.flatMap (· ++ ['\n'])) :
    textLines? text = some lines := by
  simp [textLines?, htext, Text.splitAll_flatMap hlines]

def rows (reports : List TokenReport) : List (Nat × Token) := reports.flatMap fun r => r.tokens.map (r.line, ·)

theorem toList_join_text (reports : List TokenReport) : (String.join (reports.map TokenReport.text)).toList =
    ((rows reports).map fun r => charsOfToken r.1 r.2).flatMap (· ++ ['\n']) := by
  simp only [rows, TokenReport.text, String.toList_join, List.flatMap_map, List.flatMap_assoc, List.map_flatMap,
    List.map_map, toList_textOfToken, Function.comp_def]

theorem textLines?_join (h : ∀ r ∈ rows reports, r.2.IsPlain) :
    textLines? (String.join (reports.map TokenReport.text)) =
      some ((rows reports).map fun r => charsOfToken r.1 r.2) := by
  apply textLines?_eq
  · intro cs hcs
    obtain ⟨r, hr, rfl⟩ := List.mem_map.mp hcs
    exact feed_not_mem_charsOfToken r.1 (h r hr)
  · exact toList_join_text reports

theorem readTokens?_join (h : ∀ r ∈ rows reports, r.2.IsPlain) :
    readTokens? (String.join (reports.map TokenReport.text)) = some (rows reports) := by
  rw [readTokens?, textLines?_join h, Option.bind_some, List.mapM_map]
  exact (mapM_eq_pure fun r hr => readToken?_charsOfToken r.1 (h r hr)).trans (congrArg some (List.map_id _))

theorem rows_filter (reports : List TokenReport) (k : Nat) :
    rows (reports.filter (·.line == k)) = (rows reports).filter (·.1 == k) := by
  induction reports with
  | nil => rfl
  | cons r reports ih =>
    have hrows (r : TokenReport) (reports : List TokenReport) :
        rows (r :: reports) = r.tokens.map (r.line, ·) ++ rows reports := List.flatMap_cons
    rw [hrows, List.filter_append, ← ih]
    by_cases hr : r.line = k
    · simp [hr, hrows, List.filter_map, Function.comp_def]
    · simp [hr, List.filter_map, Function.comp_def]

theorem rows_ofLines (tokens : List (List Token)) : rows (ofLines tokens none) = numbered tokens := by
  simp only [rows, ofLines, numbered, List.mapIdx_eq_zipIdx_map, List.flatMap_map]

theorem rows_ofLines_some (tokens : List (List Token)) (k : Nat) :
    rows (ofLines tokens (some k)) = (numbered tokens).filter (·.1 == k) := by
  rw [← rows_ofLines, ← rows_filter]
  rfl

theorem flatMap_filter_line {n : Nat} (h : reports.map TokenReport.line = List.range' n reports.length) :
    (List.range' n reports.length).flatMap (fun k => reports.filter (·.line == k)) = reports := by
  induction reports generalizing n with
  | nil => rfl
  | cons r reports ih =>
    rw [List.map_cons, List.length_cons, List.range'_succ] at h
    obtain ⟨hr, hlater⟩ := List.cons_eq_cons.mp h
    have hlt : ∀ r' ∈ reports, n < r'.line := by
      intro r' hr'
      have hmem := List.mem_map_of_mem (f := TokenReport.line) hr'
      rw [hlater, List.mem_range'_1] at hmem
      omega
    have hfirst : (r :: reports).filter (·.line == n) = [r] := by
      rw [List.filter_cons_of_pos (by simp [hr]), List.filter_eq_nil_iff.mpr]
      intro r' hr'
      have := hlt r' hr'
      simp
      omega
    rw [List.length_cons, List.range'_succ, List.flatMap_cons, hfirst, List.singleton_append]
    congr 1
    refine Eq.trans (List.flatMap_congr fun k hk => ?_) (ih hlater)
    rw [List.mem_range'_1] at hk
    exact List.filter_cons_of_neg (by simp; omega)

theorem flatMap_ofLines (tokens : List (List Token)) :
    (List.range tokens.length).flatMap (fun k => ofLines tokens (some k)) = ofLines tokens none := by
  have hlength : (tokens.mapIdx TokenReport.mk).length = tokens.length := List.length_mapIdx
  have hlines : (tokens.mapIdx TokenReport.mk).map TokenReport.line =
      List.range' 0 (tokens.mapIdx TokenReport.mk).length := by
    apply List.ext_getElem
    · simp
    · simp
  have hall := flatMap_filter_line hlines
  rwa [hlength, ← List.range_eq_range'] at hall

theorem join_map_join (ks : List Nat) (f : Nat → List TokenReport) :
    String.join (ks.map fun k => String.join ((f k).map TokenReport.text)) =
      String.join ((ks.flatMap f).map TokenReport.text) := by
  apply String.toList_inj.mp
  simp only [String.toList_join, List.flatMap_map, List.flatMap_assoc]

theorem numbered_isPlain (h : ∀ ts ∈ tokens, ∀ t ∈ ts, t.IsPlain) : ∀ r ∈ numbered tokens, r.2.IsPlain := by
  intro r hr
  simp only [numbered, List.mem_flatMap, List.mem_map, Prod.exists] at hr
  obtain ⟨ts, line, hts, t, ht, rfl⟩ := hr
  exact h ts (List.fst_mem_of_mem_zipIdx hts) t ht

theorem filter_isOfLine {rs : List (Nat × Token)} (h : ∀ r ∈ rs, r.2.IsPlain) (k : Nat) :
    (rs.map fun r => charsOfToken r.1 r.2).filter (isOfLine k) =
      (rs.filter (·.1 == k)).map fun r => charsOfToken r.1 r.2 := by
  rw [List.filter_map]
  congr 1
  apply List.filter_congr
  intro r hr
  simp [isOfLine, readToken?_charsOfToken r.1 (h r hr)]

theorem textLines?_ofLines_some (h : ∀ r ∈ numbered tokens, r.2.IsPlain) (k : Nat) :
    textLines? (String.join ((ofLines tokens (some k)).map TokenReport.text)) =
      (textLines? (String.join ((ofLines tokens none).map TokenReport.text))).map (·.filter (isOfLine k)) := by
  have hsome : ∀ r ∈ rows (ofLines tokens (some k)), r.2.IsPlain := by
    intro r hr
    rw [rows_ofLines_some] at hr
    exact h r (List.mem_of_mem_filter hr)
  rw [textLines?_join hsome, textLines?_join (rows_ofLines tokens ▸ h), rows_ofLines, rows_ofLines_some,
    Option.map_some, filter_isOfLine h]

end Texts

end TokenReport

namespace Command

open TokenReport

variable {s : Settings} {files : FileTree} {path : FilePath} {d : Document} {root : Option String}
  {tokens : List (List Token)}

def tokenText (s : Settings) (files : FileTree) (path : FilePath) (root : Option String) (line : Option Nat) :
    Except CommandError String :=
  run s files (.tokens path line root .text)

section Outcomes

variable (hread : Document.read files path = .ok d)

include hread

theorem tokenText_eq (line : Option Nat) : tokenText s files path root line =
    print (.ofSettings s files) d (.tokens path line root .text) := by
  rw [tokenText, run, input, hread]
  rfl

theorem tokenText_of_error {e : ScopeError} (h : (Service.ofSettings s files).tokenize d root = .error e)
    (line : Option Nat) : tokenText s files path root line = .error (.notTokenized path e) := by
  rw [tokenText_eq hread, print, h]
  rfl

theorem tokenText_none (h : (Service.ofSettings s files).tokenize d root = .ok tokens) :
    tokenText s files path root none = .ok (String.join ((ofLines tokens none).map TokenReport.text)) := by
  rw [tokenText_eq hread, print, h]
  rfl

theorem tokenText_some (h : (Service.ofSettings s files).tokenize d root = .ok tokens) (k : Nat) :
    tokenText s files path root (some k) =
      if tokens.length ≤ k then .error (.lineOutOfRange k path tokens.length)
      else .ok (String.join ((ofLines tokens (some k)).map TokenReport.text)) := by
  rw [tokenText_eq hread, print, h]
  rfl

end Outcomes

/-- What is printed of the tokens of a document says what they are and in which line each of them is. -/
theorem tokenText_reads (hread : Document.read files path = .ok d)
    (hroot : ∀ c ∈ (root.getD s.rootScope).toList, Text.isBlank c = false) :
    ((∃ text, tokenText s files path root none = .ok text) ↔
      ∃ tokens, (Service.ofSettings s files).tokenize d root = .ok tokens) ∧
    (∀ tokens text, (Service.ofSettings s files).tokenize d root = .ok tokens →
      tokenText s files path root none = .ok text → readTokens? text = some (numbered tokens)) ∧
    (∀ k, (∃ e, tokenText s files path root (some k) = .error e) ↔
      (∃ e, (Service.ofSettings s files).tokenize d root = .error e) ∨ d.lineCount ≤ k) ∧
    (∀ k text part, tokenText s files path root none = .ok text → tokenText s files path root (some k) = .ok part →
      textLines? part = (textLines? text).map (·.filter (isOfLine k))) ∧
    ∀ text, tokenText s files path root none = .ok text →
      ((List.range d.lineCount).mapM fun k => tokenText s files path root (some k)).map String.join = .ok text := by
  cases htokens : (Service.ofSettings s files).tokenize d root with
  | error e =>
    have herror := tokenText_of_error hread htokens
    simp [herror]
  | ok tokens =>
    have hplain := numbered_isPlain (Service.isPlain_of_tokenize hroot htokens)
    have hlength : tokens.length = d.lineCount := Service.length_tokens _ d root htokens
    have hnone := tokenText_none hread htokens
    have hsome := tokenText_some hread htokens
    rw [hlength] at hsome
    refine ⟨⟨fun _ => ⟨tokens, rfl⟩, fun _ => ⟨_, hnone⟩⟩, ?_, ?_, ?_, ?_⟩
    · intro tokens' text htokens' htext
      cases htokens'
      cases hnone.symm.trans htext
      rw [readTokens?_join (rows_ofLines tokens ▸ hplain), rows_ofLines]
    · intro k
      rw [hsome]
      by_cases hk : d.lineCount ≤ k <;> simp [hk]
    · intro k text part htext hpart
      cases hnone.symm.trans htext
      rw [hsome] at hpart
      split at hpart
      · cases hpart
      · cases hpart
        exact textLines?_ofLines_some hplain k
    · intro text htext
      cases hnone.symm.trans htext
      have hparts : ∀ k ∈ List.range d.lineCount, tokenText s files path root (some k) =
          pure (String.join ((ofLines tokens (some k)).map TokenReport.text)) := by
        intro k hk
        rw [hsome, if_neg (Nat.not_le_of_lt (List.mem_range.mp hk))]
        rfl
      rw [mapM_eq_pure hparts]
      change Except.ok (String.join _) = _
      rw [join_map_join, ← hlength, flatMap_ofLines]

def markSettings : Settings where
  rootScope := "s"
  maxLineLength := 3
  directory := some "g"
  scopes := [("s", "s.json")]

def markFiles : FileTree :=
  let text := "\x7b\"scopeName\": \"s\", \"patterns\": [\x7b\"match\": \"<(.)\", \"name\": \"in mark.$1\"\x7d]\x7d"
  (({} : FileTree).write "g/s.json" (.text text)).write "a.txt" (.text "<a\nlong\n<-b")

theorem tokenText_reads_marks :
    let tokens : List (List Token) :=
      [[⟨0, 2, ["s", "in", "mark.a"]⟩], [], [⟨0, 2, ["s", "in", "mark.-"]⟩, ⟨2, 3, ["s"]⟩]]
    ∃ text, tokenText markSettings markFiles "a.txt" none none = .ok text ∧
      readTokens? text = some (numbered tokens) ∧
      ∃ e, tokenText markSettings markFiles "a.txt" none (some 3) = .error e := by
  intro tokens
  have hread : Document.read markFiles "a.txt" = .ok ⟨["<a", "long", "<-b"]⟩ := ok_of_toOption (by decide +kernel)
  have htokens : (Service.ofSettings markSettings markFiles).tokenize ⟨["<a", "long", "<-b"]⟩ none = .ok tokens :=
    ok_of_toOption (by decide +kernel)
  have hroot : ∀ c ∈ ((none : Option String).getD markSettings.rootScope).toList, Text.isBlank c = false := by
    intro c hc
    rw [List.mem_singleton.mp (show c ∈ ['s'] from hc)]
    decide
  obtain ⟨hexists, hreads, herror, -⟩ := tokenText_reads hread hroot
  obtain ⟨text, htext⟩ := hexists.mpr ⟨tokens, htokens⟩
  exact ⟨text, htext, hreads tokens text htokens htext, (herror 3).mpr (.inr (by decide))⟩

end Command

end GrammarScopes
