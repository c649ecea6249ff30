import GrammarScopes.Proofs.Tokenizer.Run

/-!
The tokens of a line partition its columns: there are no gaps and no overlaps, and every column past
the end belongs to the last token.  Only an empty line has a token without columns.
-/

namespace GrammarScopes

namespace Token

/-- Tokens that follow each other without gaps from one column to another, none of them empty. -/
def Partitions : List Token → Nat → Nat → Prop
  | [], start, stop => start = stop
  | t :: rest, start, stop => t.start = start ∧ t.start < t.stop ∧ Partitions rest t.stop stop

theorem Partitions.append {xs ys : List Token} {a b c : Nat} (hx : Partitions xs a b)
    (hy : Partitions ys b c) : Partitions (xs ++ ys) a c := by
  induction xs generalizing a with
  | nil => cases hx; exact hy
  | cons t xs ih => exact ⟨hx.1, hx.2.1, ih hx.2.2⟩

theorem Partitions.le {ts : List Token} {a b : Nat} (h : Partitions ts a b) : a ≤ b := by
  induction ts generalizing a with
  | nil => exact Nat.le_of_eq h
  | cons t ts ih =>
    obtain ⟨hstart, hlt, hrest⟩ := h
    have := ih hrest
    omega

theorem Partitions.countP_contains {ts : List Token} {a b : Nat} (h : Partitions ts a b) (c : Nat) :
    ts.countP (·.contains c) = if a ≤ c ∧ c < b then 1 else 0 := by
  induction ts generalizing a with
  | nil =>
    cases h
    rw [if_neg (by omega), List.countP_nil]
  | cons t ts ih =>
    obtain ⟨hstart, hlt, hrest⟩ := h
    have hle := hrest.le
    rw [List.countP_cons, ih hrest]
    simp only [contains, Bool.and_eq_true, decide_eq_true_eq]
    split <;> split <;> split <;> omega

theorem Partitions.getLast? {ts : List Token} {a b : Nat} (h : Partitions ts a b) (hab : a < b) :
    ∃ t, ts.getLast? = some t ∧ t.stop = b := by
  induction ts generalizing a with
  | nil => cases h; omega
  | cons t ts ih =>
    obtain ⟨-, -, hrest⟩ := h
    cases ts with
    | nil => exact ⟨t, rfl, hrest⟩
    | cons u ts =>
      obtain ⟨v, hv, hstop⟩ := ih hrest (Nat.lt_of_lt_of_le (hrest.1 ▸ hrest.2.1) hrest.2.2.le)
      exact ⟨v, by rw [List.getLast?_cons_cons, hv], hstop⟩

theorem Partitions.scopesAt {ts : List Token} {n : Nat} (h : Partitions ts 0 n) (hn : 0 < n)
    (c : Nat) (root : String) :
    ∃ t ∈ ts, Token.scopesAt ts c root = t.scopes ∧ (c < n → t.contains c = true) ∧
      (n ≤ c → ts.getLast? = some t) := by
  have hcount := h.countP_contains c
  unfold Token.scopesAt
  split
  next t ht =>
    have hmem := List.mem_of_find?_eq_some ht
    have hcontains : t.contains c = true := List.find?_some (p := fun u : Token => u.contains c) ht
    refine ⟨t, hmem, rfl, fun _ => hcontains, fun hc => ?_⟩
    rw [if_neg (by omega), List.countP_eq_zero] at hcount
    exact absurd hcontains (hcount t hmem)
  next hnone =>
    have hc : n ≤ c := by
      refine Nat.le_of_not_lt fun hc => ?_
      rw [List.countP_eq_zero.mpr (List.find?_eq_none.mp hnone), if_pos ⟨Nat.zero_le c, hc⟩] at hcount
      cases hcount
    obtain ⟨t, ht, hstop⟩ := h.getLast? hn
    refine ⟨t, List.mem_of_getLast? ht, ?_, fun hc' => by omega, fun _ => ht⟩
    rw [ht]
    exact if_pos (by omega)

end Token

namespace TokenRun

theorem Spans.isBoundary {line : Line} {first stop : Nat} {ts : List ByteToken}
    (h : Spans first ts stop) (hfirst : line.IsBoundary first)
    (hts : ∀ t ∈ ts, line.IsBoundary t.stop) : line.IsBoundary stop := by
  cases h with
  | nil => exact hfirst
  | cons _ _ => exact hts _ List.mem_cons_self

theorem Spans.stop_le {first stop : Nat} {ts : List ByteToken} (h : Spans first ts stop) :
    ∀ t ∈ ts, t.stop ≤ stop := by
  induction h with
  | nil => simp
  | cons _ hlt ih =>
    intro t ht
    rcases List.mem_cons.mp ht with rfl | ht
    · exact Nat.le_refl _
    · exact Nat.le_trans (ih t ht) (Nat.le_of_lt hlt)

theorem Spans.partitions {line : Line} {first stop : Nat} {ts : List ByteToken}
    (h : Spans first ts stop) (hfirst : line.IsBoundary first)
    (hts : ∀ t ∈ ts, line.IsBoundary t.stop) :
    Token.Partitions (ts.reverse.map fun t => ⟨line.unitsAt t.start, line.unitsAt t.stop, t.scopes⟩)
      (line.unitsAt first) (line.unitsAt stop) := by
  induction h with
  | nil => rfl
  | cons hspans hlt ih =>
    obtain ⟨hstop, hrest⟩ := List.forall_mem_cons.mp hts
    rw [List.reverse_cons, List.map_append]
    exact (ih hrest).append ⟨rfl, Line.unitsAt_lt (hspans.isBoundary hfirst hrest) hstop hlt, rfl⟩

/-- Without the line feed, the tokens of a line end where its text ends; on an empty line the token of
the line feed remains, without width. -/
theorem Spans.dropBreak {line : Line} (hsize : line.size = line.contentSize + 1)
    {latest : List ByteToken} {stop : Nat} (h : Spans 0 latest stop) (hstop : stop = line.size) :
    (line.contentSize = 0 ∧
        ∃ scopes, trimLast line (TokenRun.dropBreak line latest) = [⟨0, 0, scopes⟩]) ∨
      (0 < line.contentSize ∧
        Spans 0 (trimLast line (TokenRun.dropBreak line latest)) line.contentSize) := by
  cases h with
  | nil => omega
  | @cons t rest hspans hlt =>
    by_cases hbreak : t.start + 1 = line.size
    · have hstart : t.start = line.contentSize := by omega
      rw [TokenRun.dropBreak, if_pos hbreak]
      rw [hstart] at hspans
      generalize hcontent : line.contentSize = content at hspans hstart
      cases hspans with
      | nil =>
        left
        refine ⟨rfl, t.scopes, ?_⟩
        simp [trimLast, hcontent, hsize]
      | @cons u rest hu hult =>
        right
        have hne : u.stop ≠ line.size := by omega
        simp only [List.isEmpty_cons, Bool.false_eq_true, ↓reduceIte, trimLast, hne]
        exact ⟨by omega, .cons hu hult⟩
    · right
      have hlast : t.stop = line.size := hstop
      simp only [TokenRun.dropBreak, hbreak, ↓reduceIte, trimLast, hlast]
      refine ⟨by omega, ?_⟩
      have hcut : t.start < line.contentSize := by omega
      exact .cons (t := { t with stop := line.contentSize }) hspans hcut

end TokenRun

namespace Grammar

theorem tokenizeNested_tokens {g : Grammar} (hg : g.WellFormed) (hscanner : g.scanner.Sound) {n : Nat}
    {text : String} {stack : RuleStack} {r : LineTokens} (h : g.tokenizeNested n text stack = .ok r) :
    ((Text.unitCount text.toList = 0 ∧ ∃ scopes, r.tokens = [⟨0, 0, scopes⟩]) ∨
      (0 < Text.unitCount text.toList ∧
        Token.Partitions r.tokens 0 (Text.unitCount text.toList))) ∧
      ∀ t ∈ r.tokens, ∃ k, t.stop = Text.unitCount (text.toList.take k) := by
  let line := Line.ofText text
  obtain ⟨run, -, -, hgrow, hle, htokens, -⟩ :=
    tokenizeNested_spec hg hscanner isBoundary_places scopeClosed_true (Frames.scoped_true _) h
  have hspans : TokenRun.Spans 0 run.latest run.stop := hgrow.spans .nil
  have hends : ∀ t ∈ run.latest, line.IsBoundary t.stop := fun t ht =>
    (hgrow.forall_latest (by simp [TokenRun.startingAt]) t ht).1
  have hstop : run.stop = line.size :=
    Nat.le_antisymm (hspans.isBoundary line.isBoundary_zero hends).le_size hle
  have hsize : line.size = line.contentSize + 1 := Line.size_ofText text
  have hcut : ∀ t ∈ TokenRun.trimLast line (TokenRun.dropBreak line run.latest),
      line.IsBoundary t.stop := by
    intro t ht
    obtain ⟨u, hu, -, hstop | hstop⟩ := TokenRun.mem_trimLast_dropBreak ht
    · exact hstop ▸ Line.isBoundary_contentSize text
    · exact hstop ▸ hends u hu
  have hzero : line.unitsAt 0 = 0 := line.unitsAt_byteCount 0
  have hcount : line.unitsAt line.contentSize = Text.unitCount text.toList :=
    Line.unitsAt_contentSize text
  rw [htokens]
  constructor
  · rcases hspans.dropBreak hsize hstop with ⟨hempty, scopes, hts⟩ | ⟨hpos, hts⟩
    -- nothing but the line feed: its token stays, without width
    · left
      refine ⟨by rw [← hcount, hempty, hzero], scopes, ?_⟩
      change List.map _ (TokenRun.trimLast line (TokenRun.dropBreak line run.latest)).reverse = _
      simp [hts, line, hzero]
    · right
      have hlt := Line.unitsAt_lt line.isBoundary_zero (Line.isBoundary_contentSize text) hpos
      rw [hzero, hcount] at hlt
      have hparts := hts.partitions line.isBoundary_zero hcut
      rw [hzero, hcount] at hparts
      exact ⟨hlt, hparts⟩
  · intro t ht
    obtain ⟨u, hu, rfl⟩ := List.mem_map.mp ht
    have hu := List.mem_reverse.mp hu
    refine Line.IsBoundary.unitsAt_ofText (hcut u hu) ?_
    rcases hspans.dropBreak hsize hstop with ⟨-, scopes, hts⟩ | ⟨-, hts⟩
    · have hu' : u ∈ [(⟨0, 0, scopes⟩ : ByteToken)] := hts ▸ hu
      rw [List.mem_singleton.mp hu']
      exact Nat.zero_le _
    · exact hts.stop_le u hu

theorem scopesAt_tokenizeNested {g : Grammar} (hg : g.WellFormed) (hscanner : g.scanner.Sound)
    {n : Nat} {text : String} {stack : RuleStack} {r : LineTokens}
    (h : g.tokenizeNested n text stack = .ok r) (c : Nat) (root : String) :
    ∃ t ∈ r.tokens, Token.scopesAt r.tokens c root = t.scopes := by
  rcases (tokenizeNested_tokens hg hscanner h).1 with ⟨-, scopes, htokens⟩ | ⟨hpos, hparts⟩
  · refine ⟨⟨0, 0, scopes⟩, by simp [htokens], ?_⟩
    simp [htokens, Token.scopesAt, Token.contains]
  · obtain ⟨t, ht, hat, -⟩ := hparts.scopesAt hpos c root
    exact ⟨t, ht, hat⟩

/-- The tokens of a line partition its columns, whatever the line is and whatever the line before it
has left active.  A line without columns has one token. -/
theorem tokenizeLine_partitions {scope : String} {grammars : GrammarSet} {scanner : Scanner}
    {g : Grammar} (hscanner : scanner.Sound) (hcompile : compile scope grammars scanner = .ok g)
    {text : String} {stack : RuleStack} {r : LineTokens}
    (h : g.tokenizeLine text stack = .ok r) :
    (if text = "" then ∃ scopes, r.tokens = [⟨0, 0, scopes⟩]
      else Token.Partitions r.tokens 0 (Text.unitCount text.toList)) ∧
    (∀ t ∈ r.tokens, ∃ k, t.stop = Text.unitCount (text.toList.take k)) ∧
    (∀ c < Text.unitCount text.toList, r.tokens.countP (·.contains c) = 1) ∧
    ∀ c root, ∃ t ∈ r.tokens, Token.scopesAt r.tokens c root = t.scopes ∧
      (c < Text.unitCount text.toList → t.contains c = true) ∧
      (Text.unitCount text.toList ≤ c → r.tokens.getLast? = some t) := by
  have hempty : text = "" ↔ Text.unitCount text.toList = 0 := by
    rw [Text.unitCount_eq_zero, String.toList_eq_nil_iff]
  obtain ⟨htokens, hends⟩ := tokenizeNested_tokens (compile_wellFormed hcompile)
    (compile_scanner hcompile ▸ hscanner) h
  rcases htokens with ⟨hzero, scopes, htokens⟩ | ⟨hpos, hparts⟩
  · refine ⟨by rw [if_pos (hempty.mpr hzero)]; exact ⟨scopes, htokens⟩, hends, by omega, ?_⟩
    intro c root
    refine ⟨⟨0, 0, scopes⟩, by simp [htokens], ?_, by omega, by simp [htokens]⟩
    simp [htokens, Token.scopesAt, Token.contains]
  · refine ⟨by rw [if_neg (by rw [hempty]; omega)]; exact hparts, hends, ?_, hparts.scopesAt hpos⟩
    intro c hc
    rw [hparts.countP_contains, if_pos ⟨Nat.zero_le c, hc⟩]

def angleGrammar : GrammarDescription where
  scopeName := "s"
  patterns := [{
    name := some "angle"
    contentName := some "inside text"
    beginPattern := some "<"
    endPattern := some ">" }]

theorem tokenizeLine_partitions_angle :
    ∃ g r r', compile "s" [("s", angleGrammar)] .standard = .ok g ∧
      g.tokenizeLine "é<" .initial = .ok r ∧ g.tokenizeLine "x>😀" r.stack = .ok r' ∧
      Token.Partitions r'.tokens 0 4 ∧ r'.tokens.countP (·.contains 3) = 1 ∧
      ∃ t ∈ r'.tokens, Token.scopesAt r'.tokens 9 "none" = t.scopes ∧
        r'.tokens.getLast? = some t := by
  let inside : Frame :=
    ⟨1, some 0, none, false, none, ["s", "angle"], ["s", "angle", "inside", "text"]⟩
  let r : LineTokens := ⟨[⟨0, 1, ["s"]⟩, ⟨1, 2, ["s", "angle"]⟩], .active ⟨inside, [.root 0 "s"]⟩⟩
  let r' : LineTokens :=
    ⟨[⟨0, 1, ["s", "angle", "inside", "text"]⟩, ⟨1, 2, ["s", "angle"]⟩, ⟨2, 4, ["s"]⟩],
      .active ⟨.root 0 "s", []⟩⟩
  have hrun : ∃ g, compile "s" [("s", angleGrammar)] .standard = .ok g ∧
      (g.tokenizeLine "é<" .initial).toOption = some r ∧
      (g.tokenizeLine "x>😀" r.stack).toOption = some r' :=
    ⟨_, rfl, by decide +kernel, by decide +kernel⟩
  obtain ⟨g, hg, hr, hr'⟩ := hrun
  obtain ⟨hparts, -, hcount, hscopes⟩ :=
    tokenizeLine_partitions Scanner.standard_sound hg (ok_of_toOption hr')
  have hunits : Text.unitCount "x>😀".toList = 4 := by decide
  rw [hunits] at hparts hcount hscopes
  obtain ⟨t, ht, hat, -, hlast⟩ := hscopes 9 "none"
  exact ⟨g, r, r', hg, ok_of_toOption hr, ok_of_toOption hr', by simpa using hparts,
    hcount 3 (by decide), t, ht, hat, hlast (by decide)⟩

end Grammar

end GrammarScopes
