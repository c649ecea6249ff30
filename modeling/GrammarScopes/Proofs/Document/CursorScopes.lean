import GrammarScopes.Proofs.Except
import GrammarScopes.Service

/-!
The scopes at a cursor are those that the tokens of the document show, cut after the line of the
cursor.  Lines that are too long have no tokens and can as well be left out.
-/

namespace GrammarScopes

namespace Document

def upTo (d : Document) (line : Nat) : Document := ⟨d.lines.take (line + 1)⟩

def withoutLong (d : Document) (maxLength : Nat) : Document :=
  ⟨d.lines.filter (!isTooLong maxLength ·)⟩

/-- What is left of the tokens of a document when it loses the lines that are too long. -/
def tokensWithoutLong (d : Document) (maxLength : Nat) (tokens : List (List Token)) :
    List (List Token) :=
  ((d.lines.zip tokens).filter (!isTooLong maxLength ·.1)).map (·.2)

/-- Where a line is found in the document without the lines that are too long. -/
def lineWithoutLong (d : Document) (maxLength : Nat) (line : Nat) : Nat :=
  (d.lines.take line).countP (!isTooLong maxLength ·)

end Document

namespace Grammar

variable (g : Grammar) (maxLength : Nat)

theorem walkLines_eq (character : Nat) (root : String) (line : Nat) (lines : List String)
    (stack : RuleStack) :
    g.walkLines maxLength character root line lines stack =
      (g.tokenizeLines maxLength (lines.take (line + 1)) stack).map fun tokens =>
        tokens[line]?.map (Token.scopesAt · character root) := by
  induction lines generalizing line stack with
  | nil => cases line <;> rfl
  | cons text rest ih =>
    rw [List.take_succ_cons, tokenizeLines]
    unfold walkLines
    split
    next =>
      cases line with
      | zero => rfl
      | succ n =>
        dsimp only
        rw [ih]
        cases g.tokenizeLines maxLength (rest.take (n + 1)) stack <;> rfl
    next =>
      cases g.tokenizeLine text stack with
      | error e => rfl
      | ok r =>
        cases line with
        | zero => rfl
        | succ n =>
          change g.walkLines maxLength character root n rest r.stack = _
          rw [ih]
          change _ = Except.map _ ((g.tokenizeLines maxLength (rest.take (n + 1)) r.stack).bind _)
          cases g.tokenizeLines maxLength (rest.take (n + 1)) r.stack <;> rfl

theorem tokenizeLines_withoutLong (lines : List String) (stack : RuleStack) :
    g.tokenizeLines maxLength (lines.filter (!isTooLong maxLength ·)) stack =
      (g.tokenizeLines maxLength lines stack).map fun tokens =>
        ((lines.zip tokens).filter (!isTooLong maxLength ·.1)).map (·.2) := by
  induction lines generalizing stack with
  | nil => rfl
  | cons text rest ih =>
    rw [tokenizeLines]
    split
    next hlong =>
      rw [List.filter_cons_of_neg (by simp [hlong]), ih]
      cases g.tokenizeLines maxLength rest stack with
      | error e => rfl
      | ok tokens => simp [Except.map, hlong, bind, Except.bind, pure, Except.pure]
    next hshort =>
      rw [List.filter_cons_of_pos (by simp [hshort]), tokenizeLines, if_neg hshort]
      cases g.tokenizeLine text stack with
      | error e => rfl
      | ok r =>
        simp only [bind, Except.bind, ih]
        cases g.tokenizeLines maxLength rest r.stack with
        | error e => rfl
        | ok tokens => simp [Except.map, hshort, pure, Except.pure]

theorem tokenizeLines_length {lines : List String} {stack : RuleStack} {tokens : List (List Token)}
    (h : g.tokenizeLines maxLength lines stack = .ok tokens) : tokens.length = lines.length := by
  induction lines generalizing stack tokens with
  | nil => cases h; rfl
  | cons text rest ih =>
    unfold tokenizeLines at h
    split at h
    next =>
      obtain ⟨ts, hts, h⟩ := bind_eq_ok.mp h
      cases h
      rw [List.length_cons, List.length_cons, ih hts]
    next =>
      obtain ⟨r, -, h⟩ := bind_eq_ok.mp h
      obtain ⟨ts, hts, h⟩ := bind_eq_ok.mp h
      cases h
      rw [List.length_cons, List.length_cons, ih hts]

theorem tokenizeLines_long {lines : List String} {stack : RuleStack} {tokens : List (List Token)}
    (h : g.tokenizeLines maxLength lines stack = .ok tokens) {line : Nat} {text : String}
    (hline : lines[line]? = some text) (hlong : isTooLong maxLength text = true) :
    tokens[line]? = some [] := by
  induction lines generalizing stack tokens line with
  | nil => cases hline
  | cons t rest ih =>
    unfold tokenizeLines at h
    split at h
    next =>
      obtain ⟨ts, hts, h⟩ := bind_eq_ok.mp h
      cases h
      cases line with
      | zero => rfl
      | succ n => exact ih hts hline
    next hshort =>
      obtain ⟨r, -, h⟩ := bind_eq_ok.mp h
      obtain ⟨ts, hts, h⟩ := bind_eq_ok.mp h
      cases h
      cases line with
      | zero => cases hline; exact absurd hlong hshort
      | succ n => exact ih hts hline

theorem walkLines_withoutLong (character : Nat) (root : String) {line : Nat} {lines : List String}
    (stack : RuleStack) {text : String} (hline : lines[line]? = some text)
    (hshort : isTooLong maxLength text = false) :
    g.walkLines maxLength character root ((lines.take line).countP (!isTooLong maxLength ·))
        (lines.filter (!isTooLong maxLength ·)) stack =
      g.walkLines maxLength character root line lines stack := by
  induction lines generalizing line stack with
  | nil => cases hline
  | cons t rest ih =>
    cases line with
    | zero =>
      cases hline
      rw [List.filter_cons_of_pos (by simp [hshort])]
      simp only [List.take_zero, List.countP_nil, walkLines]
    | succ n =>
      rw [List.take_succ_cons]
      cases ht : isTooLong maxLength t with
      | true =>
        rw [List.filter_cons_of_neg (by simp [ht]), List.countP_cons_of_neg (by simp [ht]),
          ih stack hline]
        simp only [walkLines, ht, ↓reduceIte]
      | false =>
        rw [List.filter_cons_of_pos (by simp [ht]), List.countP_cons_of_pos (by simp [ht])]
        simp only [walkLines, ht, Bool.false_eq_true, ↓reduceIte]
        cases g.tokenizeLine t stack with
        | error e => rfl
        | ok r => exact ih r.stack hline

end Grammar

namespace Service

variable (s : Service) (d : Document) (p : Position) (root : Option String)

theorem scopesAt?_eq :
    s.scopesAt? d p root = (s.tokenize (d.upTo p.line) root).toOption.bind fun tokens =>
      tokens[p.line]?.map (Token.scopesAt · p.character (root.getD s.rootScope)) := by
  unfold scopesAt? tokenize
  cases s.grammar root with
  | error e => rfl
  | ok g =>
    simp only [Question.scopesWith, Question.tokensWith, Grammar.scopesAt?, Grammar.walkLines_eq]
    change _ = ((g.tokenizeLines s.maxLineLength (d.lines.take (p.line + 1)) .initial).mapError
      ScopeError.grammar).toOption.bind _
    cases g.tokenizeLines s.maxLineLength (d.lines.take (p.line + 1)) .initial <;> rfl

theorem tokenize_withoutLong :
    s.tokenize (d.withoutLong s.maxLineLength) root =
      (s.tokenize d root).map (d.tokensWithoutLong s.maxLineLength) := by
  unfold tokenize
  cases s.grammar root with
  | error e => rfl
  | ok g =>
    have h := g.tokenizeLines_withoutLong s.maxLineLength d.lines .initial
    change (g.tokenizeLines s.maxLineLength (d.lines.filter _) .initial).mapError _ =
      ((g.tokenizeLines s.maxLineLength d.lines .initial).mapError _).map _
    rw [h]
    cases g.tokenizeLines s.maxLineLength d.lines .initial <;> rfl

theorem scopesAt?_withoutLong {text : String} (hline : d.lines[p.line]? = some text)
    (hshort : isTooLong s.maxLineLength text = false) :
    s.scopesAt? (d.withoutLong s.maxLineLength)
        { p with line := d.lineWithoutLong s.maxLineLength p.line } root =
      s.scopesAt? d p root := by
  unfold scopesAt?
  cases s.grammar root with
  | error e => rfl
  | ok g =>
    simp only [Question.scopesWith, Grammar.scopesAt?, Document.withoutLong,
      Document.lineWithoutLong]
    rw [g.walkLines_withoutLong s.maxLineLength p.character _ .initial hline hshort]

theorem tokenize_eq_ok {tokens : List (List Token)} (h : s.tokenize d root = .ok tokens) :
    ∃ g, s.grammar root = .ok g ∧ g.tokenizeLines s.maxLineLength d.lines .initial = .ok tokens := by
  unfold tokenize at h
  cases hg : s.grammar root with
  | error e => rw [hg] at h; cases h
  | ok g =>
    rw [hg] at h
    refine ⟨g, rfl, ?_⟩
    change (g.tokenizeLines s.maxLineLength d.lines .initial).mapError _ = _ at h
    cases ht : g.tokenizeLines s.maxLineLength d.lines .initial with
    | error e => rw [ht] at h; cases h
    | ok ts => rw [ht] at h; cases h; rfl

theorem length_tokens {tokens : List (List Token)} (h : s.tokenize d root = .ok tokens) :
    tokens.length = d.lineCount := by
  obtain ⟨g, -, hg⟩ := s.tokenize_eq_ok d root h
  exact g.tokenizeLines_length s.maxLineLength hg

theorem tokens_long {tokens : List (List Token)} (h : s.tokenize d root = .ok tokens) {i : Nat}
    {text : String} (hi : d.lines[i]? = some text) (hlong : isTooLong s.maxLineLength text = true) :
    tokens[i]? = some [] := by
  obtain ⟨g, -, hg⟩ := s.tokenize_eq_ok d root h
  exact g.tokenizeLines_long s.maxLineLength hg hi hlong

theorem scopesAt?_of_error {e : ScopeError} (h : s.tokenize (d.upTo p.line) root = .error e) :
    s.scopesAt? d p root = none := by
  rw [scopesAt?_eq, h]
  rfl

theorem scopesAt?_of_tokens {tokens : List (List Token)} {ts : List Token}
    (h : s.tokenize (d.upTo p.line) root = .ok tokens) (hts : tokens[p.line]? = some ts) :
    s.scopesAt? d p root = some (Token.scopesAt ts p.character (root.getD s.rootScope)) := by
  rw [scopesAt?_eq, h]
  change tokens[p.line]?.map _ = _
  rw [hts]
  rfl

theorem scopesAt?_outside (hline : d.lineCount ≤ p.line) : s.scopesAt? d p root = none := by
  cases h : s.tokenize (d.upTo p.line) root with
  | error e => exact s.scopesAt?_of_error d p root h
  | ok tokens =>
    have hlength : tokens.length ≤ p.line := by
      rw [s.length_tokens _ root h, Document.lineCount, Document.upTo, List.length_take]
      exact Nat.le_trans (Nat.min_le_right _ _) hline
    rw [scopesAt?_eq, h]
    change tokens[p.line]?.map _ = _
    rw [List.getElem?_eq_none hlength]
    rfl

theorem tokens_of_line {tokens : List (List Token)} (hline : p.line < d.lineCount)
    (h : s.tokenize (d.upTo p.line) root = .ok tokens) : ∃ ts, tokens[p.line]? = some ts := by
  have hlt : p.line < tokens.length := by
    rw [s.length_tokens _ root h, Document.lineCount, Document.upTo, List.length_take]
    exact Nat.lt_min.mpr ⟨Nat.lt_succ_self _, hline⟩
  exact ⟨tokens[p.line], List.getElem?_eq_getElem hlt⟩

theorem scopesAt?_long {tokens : List (List Token)} {text : String}
    (hline : d.lines[p.line]? = some text) (hlong : isTooLong s.maxLineLength text = true)
    (h : s.tokenize (d.upTo p.line) root = .ok tokens) :
    s.scopesAt? d p root = some [root.getD s.rootScope] := by
  have hcut : (d.upTo p.line).lines[p.line]? = some text := by
    rw [Document.upTo, List.getElem?_take_of_lt (Nat.lt_succ_self _), hline]
  exact s.scopesAt?_of_tokens d p root h (s.tokens_long _ root h hcut hlong)

/-- The cursor shows what the tokens show, and lines that are too long show nothing and change
nothing. -/
theorem scopesAt?_agrees :
    (d.lineCount ≤ p.line → s.scopesAt? d p root = none) ∧
    (∀ e, s.tokenize (d.upTo p.line) root = .error e → s.scopesAt? d p root = none) ∧
    (∀ tokens, p.line < d.lineCount → s.tokenize (d.upTo p.line) root = .ok tokens →
      ∃ ts, tokens[p.line]? = some ts ∧
        s.scopesAt? d p root =
          some (Token.scopesAt ts p.character (root.getD s.rootScope))) ∧
    (∀ tokens, s.tokenize d root = .ok tokens → ∀ (i : Nat) (text : String),
      d.lines[i]? = some text → isTooLong s.maxLineLength text = true → tokens[i]? = some []) ∧
    (∀ text, d.lines[p.line]? = some text → isTooLong s.maxLineLength text = true →
      ∀ tokens, s.tokenize (d.upTo p.line) root = .ok tokens →
        s.scopesAt? d p root = some [root.getD s.rootScope]) ∧
    s.tokenize (d.withoutLong s.maxLineLength) root =
      (s.tokenize d root).map (d.tokensWithoutLong s.maxLineLength) ∧
    ∀ text, d.lines[p.line]? = some text → isTooLong s.maxLineLength text = false →
      s.scopesAt? (d.withoutLong s.maxLineLength)
          { p with line := d.lineWithoutLong s.maxLineLength p.line } root =
        s.scopesAt? d p root := by
  refine ⟨s.scopesAt?_outside d p root, fun e => s.scopesAt?_of_error d p root, ?_, ?_, ?_,
    s.tokenize_withoutLong d root, fun text => s.scopesAt?_withoutLong d p root⟩
  · intro tokens hline h
    obtain ⟨ts, hts⟩ := s.tokens_of_line d p root hline h
    exact ⟨ts, hts, s.scopesAt?_of_tokens d p root h hts⟩
  · intro tokens h i text hi hlong
    exact s.tokens_long d root h hi hlong
  · intro text hline hlong tokens h
    exact s.scopesAt?_long d p root hline hlong h

def angleText : String :=
  "\x7b\"scopeName\": \"s\", \"patterns\": [" ++
    "\x7b\"name\": \"angle\", \"begin\": \"<\", \"end\": \">\"\x7d]\x7d"

def angleService : Service where
  registry :=
    { table := [("s", "s.json")]
      world := { source := .memory [("s.json", angleText)], backend := .immediate } }
  rootScope := "s"
  maxLineLength := 3

def angleDocument : Document := ⟨["<long", "<", "b"]⟩

theorem scopesAt?_agrees_angle :
    angleService.scopesAt? angleDocument ⟨3, 0⟩ none = none ∧
    angleService.scopesAt? angleDocument ⟨2, 7⟩ (some "t") = none ∧
    angleService.scopesAt? angleDocument ⟨2, 7⟩ none = some ["s", "angle"] ∧
    angleService.scopesAt? angleDocument ⟨0, 0⟩ none = some ["s"] ∧
    angleService.scopesAt? (angleDocument.withoutLong 3) ⟨1, 7⟩ none =
      angleService.scopesAt? angleDocument ⟨2, 7⟩ none := by
  have htokens : angleService.tokenize angleDocument none =
      .ok [[], [⟨0, 1, ["s", "angle"]⟩], [⟨0, 1, ["s", "angle"]⟩]] :=
    ok_of_toOption (by decide +kernel)
  have hfirst : angleService.tokenize (angleDocument.upTo 0) none = .ok [[]] :=
    ok_of_toOption (by decide +kernel)
  obtain ⟨houtside, -, -, -, -, -, -⟩ := angleService.scopesAt?_agrees angleDocument ⟨3, 0⟩ none
  obtain ⟨-, herror, -, -, -, -, -⟩ :=
    angleService.scopesAt?_agrees angleDocument ⟨2, 7⟩ (some "t")
  obtain ⟨-, -, hinside, -, -, -, hwithout⟩ :=
    angleService.scopesAt?_agrees angleDocument ⟨2, 7⟩ none
  obtain ⟨-, -, -, -, hlong, -, -⟩ := angleService.scopesAt?_agrees angleDocument ⟨0, 0⟩ none
  obtain ⟨ts, hts, hscopes⟩ := hinside _ (by decide) htokens
  cases hts
  exact ⟨houtside (by decide), herror (.unmappedScope "t") rfl, hscopes, hlong "<long" rfl (by decide) _ hfirst,
    hwithout "b" rfl (by decide)⟩

end Service

end GrammarScopes
