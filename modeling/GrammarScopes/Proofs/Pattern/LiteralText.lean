import GrammarScopes.Grammar.BackReference
import GrammarScopes.Proofs.Line.Columns
import GrammarScopes.Proofs.Pattern.Plain
import GrammarScopes.Proofs.Scanner.Earliest
import GrammarScopes.Proofs.Text.Digits

/-!
Text that a pattern takes literally.  Once its special characters are escaped, a text is a pattern that matches the
text itself and nothing else, so that a search finds the first place where the text stands.
-/

namespace GrammarScopes

namespace Pattern

open BackReference

variable {c : Char} {rest : List Char} {inner : Alternatives} {o : Options} {n : Nat} {names : List (String × Nat)}

theorem Read.run_bind_of_ok {α β : Type} {x : Read α} {f : α → Read β} {s s' : ReadState} {a : α}
    (h : x.run s = .ok (a, s')) : (x >>= f).run s = (f a).run s' := by
  rw [StateT.run_bind, h]
  rfl

/-- Neither a quantifier nor anything that is skipped begins here, nor does a branch end before the text does. -/
def StartsLiteral (cs : List Char) : Prop := ∀ c ∈ cs.head?, c = '\\' ∨ isSpecial c = false

theorem ne_of_isSpecial (hc : isSpecial c = true) {d : Char} (hd : isSpecial d = false) : c ≠ d := by
  rintro rfl
  cases hc.symm.trans hd

theorem ne_of_not_isSpecial (hc : isSpecial c = false) {d : Char} (hd : isSpecial d = true) : c ≠ d :=
  (ne_of_isSpecial hd hc).symm

theorem isDigit_of_isSpecial (hc : isSpecial c = true) : c.isDigit = false := by
  apply Bool.eq_false_iff.mpr
  intro hdigit
  have hplain : ∀ d : Char, d.isDigit → isSpecial d = false := Text.forall_isDigit (by decide)
  cases hc.symm.trans (hplain c hdigit)

theorem classEscape?_of_isSpecial (hc : isSpecial c = true) (o : Options) : classEscape? o c = none := by
  unfold classEscape?
  split
  all_goals first
    | exact absurd rfl (ne_of_isSpecial hc (by decide))
    | rfl

theorem controlLetter_of_isSpecial (hc : isSpecial c = true) : controlLetter c = c.toNat := by
  unfold controlLetter
  split
  all_goals first
    | exact absurd rfl (ne_of_isSpecial hc (by decide))
    | rfl

theorem codeChar_toNat (c : Char) : codeChar c.toNat = .ok c := by
  have hvalid : c.toNat < 0xd800 ∨ 0xdfff < c.toNat ∧ c.toNat < 0x110000 := c.valid
  rw [codeChar, if_neg (by omega), if_neg (by omega), Char.ofNat_toNat]

theorem readEscape_of_isSpecial (hc : isSpecial c = true) :
    readEscape.run ⟨c :: rest, n, names⟩ = .ok (c.toNat, ⟨rest, n, names⟩) := by
  simp only [readEscape, readEscapedCode, Read.rest, Read.next?, Read.setRest, StateT.run_bind, StateT.run_get,
    pure_bind, StateT.run_pure, StateT.run_modify, bind_assoc]
  split
  case h_1 h => cases h
  case h_2 h => exact absurd (Option.some.inj h) (ne_of_isSpecial hc (by decide))
  case h_3 h => exact absurd (Option.some.inj h) (ne_of_isSpecial hc (by decide))
  case h_4 h => exact absurd (Option.some.inj h) (ne_of_isSpecial hc (by decide))
  case h_5 h =>
    cases h
    rw [controlLetter_of_isSpecial hc]
    rfl

theorem readEscapeItem_of_isSpecial (hc : isSpecial c = true) :
    (readEscapeItem o).run ⟨c :: rest, n, names⟩ = .ok (.piece (.literal c), ⟨rest, n, names⟩) := by
  have hzero : (c == '0') = false := beq_eq_false_iff_ne.mpr (ne_of_isSpecial hc (by decide))
  simp only [readEscapeItem, Read.rest, Read.next?, Read.setRest, StateT.run_bind, StateT.run_get, pure_bind,
    StateT.run_pure, StateT.run_modify, bind_assoc, classEscape?_of_isSpecial hc, hzero, isDigit_of_isSpecial hc,
    Bool.false_eq_true, if_false]
  split
  all_goals first
    | exact absurd rfl (ne_of_isSpecial hc (by decide))
    | skip
  simp only [StateT.run_bind, StateT.run_modify, pure_bind, readEscape_of_isSpecial hc]
  change (literalCode c.toNat).run _ = _
  rw [literalCode, codeChar_toNat]
  rfl

theorem readItem_escaped (hc : isSpecial c = true) :
    (readItem inner o).run ⟨'\\' :: c :: rest, n, names⟩ = .ok (.piece (.literal c), ⟨rest, n, names⟩) :=
  readEscapeItem_of_isSpecial hc

theorem readItem_plain (hc : isSpecial c = false) :
    (readItem inner o).run ⟨c :: rest, n, names⟩ = .ok (.piece (.literal c), ⟨rest, n, names⟩) := by
  simp only [readItem, Read.rest, Read.next?, Read.setRest, StateT.run_bind, StateT.run_get, pure_bind,
    StateT.run_pure, StateT.run_modify, bind_assoc]
  split
  case h_1 h => cases h
  case h_12 h =>
    cases h
    rfl
  all_goals next h => exact absurd (Option.some.inj h) (ne_of_not_isSpecial hc (by decide))

theorem startsLiteral_escape (text : List Char) : StartsLiteral (escape text) := by
  cases text with
  | nil => exact nofun
  | cons c text =>
    intro d hd
    by_cases hc : isSpecial c = true
    · simp only [escape, List.flatMap_cons, hc, if_true] at hd
      exact .inl (Option.some.inj hd).symm
    · simp only [escape, List.flatMap_cons, hc] at hd
      cases hd
      exact .inr (Bool.eq_false_iff.mpr hc)

theorem StartsLiteral.ne {cs : List Char} (h : StartsLiteral cs) (hc : cs.head? = some c) {d : Char}
    (hd : isSpecial d = true) (hbackslash : d ≠ '\\') : c ≠ d := by
  rcases h c hc with rfl | hplain
  · exact hbackslash.symm
  · exact ne_of_not_isSpecial hplain hd

theorem skipIgnored_of_startsLiteral (h : StartsLiteral rest) :
    (skipIgnored {}).run ⟨rest, n, names⟩ = .ok ((), ⟨rest, n, names⟩) := by
  have hdrop : dropIgnored false (rest.length + 1) rest = .ok rest := by
    unfold dropIgnored
    split
    next => exact absurd rfl (h.ne (c := '(') rfl (by decide) (by decide))
    next => rfl
    next => rfl
  simp only [skipIgnored, Read.rest, Read.setRest, StateT.run_bind, StateT.run_get, pure_bind, StateT.run_modify,
    bind_assoc, hdrop]
  rfl

theorem readQuantifier?_of_startsLiteral (h : StartsLiteral rest) :
    readQuantifier?.run ⟨rest, n, names⟩ = .ok (none, ⟨rest, n, names⟩) := by
  simp only [readQuantifier?, Read.rest, StateT.run_bind, StateT.run_get, pure_bind, bind_assoc]
  split
  case h_5 => rfl
  all_goals next hc => exact absurd rfl (h.ne hc (by decide) (by decide))

theorem readQuantifiers_of_startsLiteral (h : StartsLiteral rest) (fuel : Nat) (p : Piece) :
    (readQuantifiers {} (fuel + 1) p).run ⟨rest, n, names⟩ = .ok (p, ⟨rest, n, names⟩) := by
  rw [readQuantifiers, Read.run_bind_of_ok (skipIgnored_of_startsLiteral h),
    Read.run_bind_of_ok (readQuantifier?_of_startsLiteral h)]
  rfl

theorem readItem_escape (c : Char) :
    (readItem inner o).run ⟨escape [c] ++ rest, n, names⟩ = .ok (.piece (.literal c), ⟨rest, n, names⟩) := by
  by_cases hc : isSpecial c = true
  · have hescape : escape [c] = ['\\', c] := by simp [escape, hc]
    rw [hescape]
    exact readItem_escaped hc
  · have hescape : escape [c] = [c] := by simp [escape, hc]
    rw [hescape]
    exact readItem_plain (Bool.eq_false_iff.mpr hc)

theorem escape_cons (c : Char) (text : List Char) : escape (c :: text) = escape [c] ++ escape text := by
  simp [escape]

theorem length_le_escape (text : List Char) : text.length ≤ (escape text).length := by
  induction text with
  | nil => exact Nat.le_refl 0
  | cons c text ih =>
    have hc : 1 ≤ (escape [c]).length := by
      simp only [escape, List.flatMap_singleton]
      split <;> simp
    rw [escape_cons, List.length_append, List.length_cons]
    omega

theorem readPieces_escape (text : List Char) (fuel : Nat) (hfuel : text.length < fuel) :
    (readPieces inner {} false fuel).run ⟨escape text, n, names⟩ = .ok (text.map .literal, ⟨[], n, names⟩) := by
  induction text generalizing fuel with
  | nil =>
    obtain ⟨fuel, rfl⟩ := Nat.exists_eq_add_one.mpr hfuel
    rw [readPieces, Read.run_bind_of_ok (skipIgnored_of_startsLiteral (startsLiteral_escape []))]
    rfl
  | cons c text ih =>
    obtain ⟨fuel, rfl⟩ := Nat.exists_eq_add_one.mpr (Nat.zero_lt_of_lt hfuel)
    have hrest := ih fuel (by simpa using hfuel)
    have hstart := startsLiteral_escape (c :: text)
    rw [readPieces, Read.run_bind_of_ok (skipIgnored_of_startsLiteral hstart),
      Read.run_bind_of_ok (a := escape (c :: text)) rfl]
    split
    case h_1 h =>
      have hlength := length_le_escape (c :: text)
      simp [List.head?_eq_none_iff.mp h] at hlength
    case h_2 h => exact absurd rfl (hstart.ne h (by decide) (by decide))
    case h_3 h => exact absurd rfl (hstart.ne h (by decide) (by decide))
    case h_4 =>
      rw [escape_cons, Read.run_bind_of_ok (readItem_escape c), piecesFrom,
        Read.run_bind_of_ok (a := escape text) rfl,
        Read.run_bind_of_ok (readQuantifiers_of_startsLiteral (startsLiteral_escape text) _ _),
        Read.run_bind_of_ok hrest]
      rfl

theorem branchNodes_literal (run text : List Char) :
    branchNodes {} run (text.map .literal) =
      if run.isEmpty && text.isEmpty then [] else [.sequence ((run.reverse ++ text).map .char)] := by
  induction text generalizing run with
  | nil => simp [branchNodes, literalNode]
  | cons c text ih => simp [branchNodes, ih]

theorem branch_literal (text : List Char) :
    branch {} (text.map .literal) = { node := .sequence (text.map .char), repeatable := true } := by
  unfold branch
  split
  next p hp =>
    obtain ⟨c, rfl, rfl⟩ := List.map_eq_singleton_iff.mp hp
    rfl
  next =>
    rw [branchNodes_literal]
    cases text with
    | nil => rfl
    | cons c text => simp [Node.sequence]

theorem readBranches_escape (text : List Char) (fuel : Nat) :
    (readBranches inner {} false (fuel + 1)).run ⟨escape text, n, names⟩ =
      .ok ([{ node := .sequence (text.map .char), repeatable := true }], ⟨[], n, names⟩) := by
  have hlength := length_le_escape text
  rw [readBranches, Read.run_bind_of_ok (a := escape text) rfl,
    Read.run_bind_of_ok (readPieces_escape text _ (by omega)), branch_literal]
  rfl

theorem readAlternatives_escape (text : List Char) (depth : Nat) :
    (readAlternatives (depth + 1) {} false).run ⟨escape text, n, names⟩ =
      .ok ({ node := .sequence (text.map .char), repeatable := true }, ⟨[], n, names⟩) := by
  rw [readAlternatives, Read.run_bind_of_ok (a := escape text) rfl,
    Read.run_bind_of_ok (readBranches_escape text _), Read.run_bind_of_ok (a := []) rfl]
  rfl

theorem calls_sequence_char (text : List Char) : (Node.sequence (text.map .char)).calls = [] := by
  induction text with
  | nil => rfl
  | cons c text ih =>
    cases text with
    | nil => rfl
    | cons d text => simpa [Node.sequence, Node.calls] using ih

theorem check_sequence_char (text : List Char) : (Node.sequence (text.map .char)).check n = .ok () := by
  induction text with
  | nil => rfl
  | cons c text ih =>
    cases text with
    | nil => rfl
    | cons d text => exact ih

def literal (text : List Char) : Compiled := ⟨.sequence (text.map .char), 0, []⟩

theorem compile_escape (text : List Char) : compile (String.ofList (escape text)) = .ok (literal text) := by
  have hcheck : (literal text).check = .ok () := by
    simp only [Compiled.check, literal, calls_sequence_char, check_sequence_char]
    rfl
  have hread : (readAlternatives 4096 {} false).run ⟨escape text, 0, []⟩ =
      .ok ({ node := .sequence (text.map .char), repeatable := true }, ⟨[], 0, []⟩) := readAlternatives_escape text 4095
  rw [compile_eq, String.toList_ofList, ofChars, deepestNesting, hread]
  change (literal text).check.bind _ = _
  rw [hcheck]
  rfl

/-! ### Matching -/

variable {t : Subject} {call : GroupRef → Step} {s : Attempt} {k : Goal}

theorem run_sequence_cons (a : Node) (nodes : List Node) :
    (Node.sequence (a :: nodes)).run t call s k = a.run t call s fun s' => (Node.sequence nodes).run t call s' k := by
  cases nodes <;> rfl

theorem run_sequence_char (text : List Char) :
    (Node.sequence (text.map .char)).run t call s k =
      if text <+: t.chars.toList.drop s.pos then k (s.moveTo (s.pos + text.length)) else none := by
  induction text generalizing s with
  | nil => simp [Node.sequence, Node.run, Attempt.moveTo]
  | cons c text ih =>
    rw [List.map_cons, run_sequence_cons, Node.run]
    by_cases hat : t.at? s.pos = some c
    · obtain ⟨hlt, rfl⟩ := Array.getElem?_eq_some_iff.mp hat
      have hdrop : t.chars.toList.drop s.pos = t.chars[s.pos] :: t.chars.toList.drop (s.pos + 1) :=
        List.drop_eq_getElem_cons (by simpa using hlt)
      rw [if_pos (by simpa using hat), ih, hdrop]
      simp only [List.cons_prefix_cons, true_and, Attempt.moveTo, List.length_cons]
      congr 3
      omega
    · have hprefix : ¬ c :: text <+: t.chars.toList.drop s.pos := by
        rintro ⟨rest, hrest⟩
        apply hat
        rw [Subject.at?, ← Array.getElem?_toList, ← List.head?_drop, ← hrest]
        rfl
      rw [if_neg (by simpa using hat), if_neg hprefix]

theorem matchAt_literal (text : List Char) (p : Nat) : (literal text).matchAt t p =
    if text <+: t.chars.toList.drop p then some ((Attempt.start p 0).moveTo (p + text.length)) else none :=
  run_sequence_char text

end Pattern

namespace Line

open Text

variable {l : Line} {text : List Char} {p q : Nat}

/-- The text stands in the line at a byte offset. -/
def Holds (l : Line) (text : List Char) (b : Nat) : Prop :=
  ∃ before after, l.chars.toList = before ++ text ++ after ∧ byteCount before = b

/-- The text stands at an offset from the start on, and nowhere between the two. -/
def HoldsFirst (l : Line) (text : List Char) (start b : Nat) : Prop :=
  start ≤ b ∧ l.Holds text b ∧ ∀ b', start ≤ b' → l.Holds text b' → b ≤ b'

theorem holds_offset (hp : p ≤ l.chars.size) : l.Holds text (l.offset p) ↔ text <+: l.chars.toList.drop p := by
  rw [l.offset_eq hp]
  constructor
  · rintro ⟨before, after, hchars, hbefore⟩
    have htake : before = l.chars.toList.take p := by
      apply eq_of_prefix_of_byteCount_eq _ (List.take_prefix _ _) hbefore
      rw [hchars, List.append_assoc]
      exact List.prefix_append _ _
    refine ⟨after, ?_⟩
    apply (List.append_right_inj (l.chars.toList.take p)).mp
    rw [List.take_append_drop, ← htake, ← List.append_assoc, hchars]
  · rintro ⟨after, hafter⟩
    refine ⟨l.chars.toList.take p, after, ?_, rfl⟩
    rw [List.append_assoc, hafter, List.take_append_drop]

theorem Holds.exists_offset {b : Nat} (h : l.Holds text b) : ∃ p ≤ l.chars.size, l.offset p = b := by
  obtain ⟨before, after, hchars, rfl⟩ := h
  have hle : before.length ≤ l.chars.size := by
    rw [← Array.length_toList, hchars]
    simp only [List.length_append]
    omega
  refine ⟨before.length, hle, ?_⟩
  rw [l.offset_eq hle, hchars, List.append_assoc, List.take_left]

theorem offset_add_length (h : text <+: l.chars.toList.drop p) (hp : p ≤ l.chars.size) :
    l.offset (p + text.length) = l.offset p + byteCount text := by
  obtain ⟨after, hafter⟩ := h
  have hlength : text.length + after.length = l.chars.size - p := by
    rw [← List.length_append, hafter, List.length_drop, Array.length_toList]
  rw [l.offset_eq (by omega), l.offset_eq hp, List.take_add, ← hafter, List.take_left, byteCount_append]

end Line

namespace Scanner

open Pattern BackReference

variable {line : Line} {start p q : Nat} {text : List Char} {a : Attempt}

theorem matchAt_literal_eq_none (hq : q ≤ line.chars.size) :
    (literal text).matchAt ⟨line.chars, p⟩ q = none ↔ ¬ line.Holds text (line.offset q) := by
  rw [matchAt_literal, Line.holds_offset hq]
  split <;> simp_all

theorem search_literal_none (hp : line.index? start = some p) (hsize : p ≤ line.chars.size)
    (h : (literal text).search ⟨line.chars, p⟩ (line.chars.size + 1 - p) p = none) (b : Nat) (hb : start ≤ b) :
    ¬ line.Holds text b := by
  intro hholds
  obtain ⟨q, hq, rfl⟩ := hholds.exists_offset
  rw [← Line.offset_of_index? hp, offset_le_iff hsize hq] at hb
  have hnone := Compiled.search_eq_none h hb (by omega)
  exact (matchAt_literal_eq_none hq).mp hnone hholds

theorem search_literal_some (hp : line.index? start = some p)
    (h : (literal text).search ⟨line.chars, p⟩ (line.chars.size + 1 - p) p = some (q, a)) :
    line.HoldsFirst text start (line.offset q) ∧
      toMatch line (found 0 q a) = some ⟨0, ⟨line.offset q, line.offset q + Text.byteCount text⟩, []⟩ := by
  obtain ⟨hle, hlt, hmatch, hbefore⟩ := Compiled.search_eq_some.mp h
  have hq : q ≤ line.chars.size := by omega
  rw [matchAt_literal] at hmatch
  split at hmatch
  next hprefix =>
    cases hmatch
    refine ⟨⟨?_, (Line.holds_offset hq).mpr hprefix, ?_⟩, ?_⟩
    · rw [← Line.offset_of_index? hp]
      exact (offset_le_iff (by omega) hq).mpr hle
    · intro b hb hholds
      obtain ⟨r, hr, rfl⟩ := hholds.exists_offset
      rw [offset_le_iff hq hr]
      by_contra hlt
      refine (matchAt_literal_eq_none hr).mp (hbefore r ?_ (by omega)) hholds
      rw [← Line.offset_of_index? hp] at hb
      exact (offset_le_iff (by omega) hr).mp hb
    · rw [toMatch, found, Compiled.spans]
      simp [Attempt.start, Attempt.moveTo, Line.offset_add_length hprefix hq]
  next => cases hmatch

/-- Escaping makes a pattern of any text, which finds the first place where the text stands, and which finds nothing
if there is none. -/
theorem escape_finds_first (text : List Char) :
    ∃ matcher, standard.compile [String.ofList (escape text)] = .ok matcher ∧
      ∀ line start, line.IsBoundary start →
        (∃ b, line.HoldsFirst text start b ∧
          matcher.find line start = some ⟨0, ⟨b, b + Text.byteCount text⟩, []⟩) ∨
        ((∀ b, start ≤ b → ¬ line.Holds text b) ∧ matcher.find line start = none) := by
  refine ⟨matcher [literal text], ?_, ?_⟩
  · have hpattern : compilePattern (String.ofList (escape text)) = .ok (literal text) := by
      rw [compilePattern, compile_escape]
    simp only [standard, List.mapM_cons, List.mapM_nil, hpattern]
    rfl
  · intro line start hstart
    obtain ⟨p, hsize, -, hp⟩ := hstart.exists_index?
    rw [find_singleton, hp, Option.bind_some, search]
    cases hsearch : (literal text).search ⟨line.chars, p⟩ (line.chars.size + 1 - p) p with
    | none => exact .inr ⟨search_literal_none hp hsize hsearch, rfl⟩
    | some r =>
      obtain ⟨hfirst, hmatch⟩ := search_literal_some hp hsearch
      exact .inl ⟨_, hfirst, hmatch⟩

theorem escape_finds_first_backslash :
    ∃ matcher, standard.compile [String.ofList (escape ['\\', 'd'])] = .ok matcher ∧
      matcher.find (.ofText "1é\\d\\d") 1 = some ⟨0, ⟨3, 5⟩, []⟩ := by
  obtain ⟨matcher, hcompile, hfind⟩ := escape_finds_first ['\\', 'd']
  refine ⟨matcher, hcompile, ?_⟩
  have hthere : (Line.ofText "1é\\d\\d").Holds ['\\', 'd'] 3 := ⟨['1', 'é'], ['\\', 'd', '\n'], rfl, by decide⟩
  rcases hfind (.ofText "1é\\d\\d") 1 ⟨1, by decide⟩ with ⟨b, ⟨-, hholds, hleast⟩, hfound⟩ | ⟨hnone, -⟩
  · have hb := hleast 3 (by decide) hthere
    obtain ⟨p, hp, rfl⟩ := hholds.exists_offset
    have hp' : p ≤ 2 := (offset_le_iff hp (by decide)).mp hb
    rw [Line.holds_offset hp] at hholds
    have honly : ∀ p ≤ 2, ['\\', 'd'] <+: ['1', 'é', '\\', 'd', '\\', 'd', '\n'].drop p → p = 2 := by decide
    obtain rfl := honly p hp' hholds
    exact hfound
  · exact absurd hthere (hnone 3 (by decide))

end Scanner

end GrammarScopes
