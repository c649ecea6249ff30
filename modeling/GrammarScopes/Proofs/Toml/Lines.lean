import GrammarScopes.Proofs.Text.Digits
import GrammarScopes.Proofs.Text.Split
import GrammarScopes.Proofs.Toml.Quote
import GrammarScopes.Toml.Reader
import Mathlib.Data.List.TakeWhile

/-!
Keys, values and statements are read as they were written, and a document line by line.
-/

namespace GrammarScopes.Toml

variable {n : Nat} {c : Char} {cs ds text rest : List Char}

/-! ### Quoted values and keys -/

theorem value?_valueText (depth : Nat) (hrest : ∀ c ∈ rest.head?, c ∉ ['"', '\'']) :
    value? depth (Quote.valueText text ++ rest) = some (.string (String.ofList text), rest) := by
  have hfits := Quote.fits_forValue text
  have hhead : rest.head? ≠ some (Quote.forValue text).mark := by
    intro h
    have hmark := hrest _ h
    rcases hfits.mark with h | h <;> rw [h] at hmark <;> simp at hmark
  obtain ⟨cs, hcs, hread, hshort⟩ := Quote.read_write hfits hhead
  have hopen := Quote.open?_delimiter hfits.mark hshort
  change value? depth ((Quote.forValue text).write text ++ rest) = _
  unfold value?
  rw [hcs, hopen]
  dsimp only
  rw [hread]
  rfl

theorem keyPart?_bare (hne : text ≠ []) (hbare : ∀ c ∈ text, Quote.isBare c)
    (hrest : ∀ c ∈ rest.head?, Quote.isBare c = false) :
    keyPart? (text ++ rest) = some (String.ofList text, rest) := by
  have htake := Text.takeWhile_append hbare hrest
  obtain ⟨c, cs, rfl⟩ := List.exists_cons_of_ne_nil hne
  have hc := hbare c List.mem_cons_self
  unfold keyPart?
  split
  next heq =>
    rw [(List.cons_eq_cons.mp heq).1] at hc
    cases hc
  next heq =>
    rw [(List.cons_eq_cons.mp heq).1] at hc
    cases hc
  next =>
    rw [htake]
    dsimp only
    rw [List.drop_left]
    rfl

theorem keyPart?_quoted {q : Quote} (hfits : q.Fits text) (hshort : q.isLong = false)
    (hrest : rest.head? ≠ some q.mark) :
    keyPart? (q.write text ++ rest) = some (String.ofList text, rest) := by
  obtain ⟨cs, hcs, hread, -⟩ := Quote.read_write hfits hrest
  obtain ⟨mark, isLong⟩ := q
  dsimp only at hshort
  subst hshort
  rw [hcs]
  rcases hfits.mark with hmark | hmark
  · obtain rfl : mark = '"' := hmark
    exact congrArg (Option.map _) hread
  · obtain rfl : mark = '\'' := hmark
    exact congrArg (Option.map _) hread

/-! ### Numbers -/

theorem inBase?_of_isDigit (ds : List Char) (hds : ∀ c ∈ ds, c.isDigit) (n : Nat) :
    Text.inBase? 10 n ds = some (Nat.ofDigitChars 10 ds n) := by
  induction ds generalizing n with
  | nil => rfl
  | cons c ds ih =>
    obtain ⟨hc, hds⟩ := List.forall_mem_cons.mp hds
    have hvalue : ∀ c : Char, c.isDigit →
        (Text.hexValue? c).filter (· < 10) = some (c.toNat - '0'.toNat) := Text.forall_isDigit (by decide)
    rw [Text.inBase?, hvalue c hc, Option.bind_some, ih hds, Nat.ofDigitChars_cons, Nat.mul_comm]

theorem digits?_of_isDigit (hne : ds ≠ []) (hds : ∀ c ∈ ds, c.isDigit) :
    digits? 10 ds = some (Nat.ofDigitChars 10 ds 0) := by
  have hmark : '_' ∉ ds := fun h => absurd (hds _ h) (by decide)
  unfold digits?
  rw [Text.splitAll_of_not_mem hmark]
  simpa [hne] using inBase?_of_isDigit ds hds 0

theorem expect?_of_isDigit {mark : Char} (hds : ∀ c ∈ ds, c.isDigit) (hmark : mark.isDigit = false) :
    expect? mark ds = none := by
  cases ds with
  | nil => rfl
  | cons c ds =>
    have hne : c ≠ mark := by
      rintro rfl
      rw [hds c List.mem_cons_self] at hmark
      cases hmark
    rw [expect?, if_neg (by simpa using hne)]

theorem expect?_of_field? {count low high : Nat} {mark : Char} (hds : ∀ c ∈ ds, c.isDigit)
    (hmark : mark.isDigit = false) (h : field? count low high ds = some (n, rest)) :
    expect? mark rest = none := by
  unfold field? at h
  split at h
  next => cases h
  next =>
    obtain ⟨m, -, h⟩ := Option.bind_eq_some_iff.mp h
    split at h
    next =>
      cases h
      exact expect?_of_isDigit (fun c hc => hds c (List.mem_of_mem_drop hc)) hmark
    next => cases h

theorem dateTime_of_isDigit (hds : ∀ c ∈ ds, c.isDigit) : DateTime.read? ds = none := by
  -- no mark of a date or a time comes after the first digits
  have hdate : Date.read? ds = none := by
    unfold Date.read?
    cases h : field? 4 0 9999 ds with
    | none => rfl
    | some p =>
      have hnone : expect? '-' p.2 = none := expect?_of_field? hds rfl h
      simp only [Option.bind_eq_bind, Option.bind_some, hnone, Option.bind_none]
  have htime : Time.read? ds = none := by
    unfold Time.read?
    cases h : field? 2 0 23 ds with
    | none => rfl
    | some p =>
      have hnone : expect? ':' p.2 = none := expect?_of_field? hds rfl h
      simp only [Option.bind_eq_bind, Option.bind_some, hnone, Option.bind_none]
  unfold DateTime.read?
  rw [hdate, htime]

theorem unsigned_of_isDigit (hds : ∀ c ∈ ds, c.isDigit) : unsigned ds = (false, ds) := by
  unfold unsigned
  split
  next => exact absurd (hds '+' List.mem_cons_self) (by decide)
  next => exact absurd (hds '-' List.mem_cons_self) (by decide)
  next => rfl

theorem isFloat_of_isDigit (hds : ∀ c ∈ ds, c.isDigit) : isFloat ds = false := by
  have hword {w : List Char} (hw : ∃ c ∈ w, c.isDigit = false) : (ds == w) = false := by
    obtain ⟨c, hc, hdigit⟩ := hw
    refine beq_false_of_ne fun heq => ?_
    rw [hds c (heq ▸ hc)] at hdigit
    cases hdigit
  have hscaled : scaled? ds = none := by
    have hall : ∀ c : Char, c.isDigit → (c != '.' && !(c == 'e' || c == 'E')) = true :=
      Text.forall_isDigit (by decide)
    have htake : ds.takeWhile (fun c => c != '.' && !(c == 'e' || c == 'E')) = ds :=
      List.takeWhile_eq_self_iff.mpr fun c hc => hall c (hds c hc)
    unfold scaled?
    dsimp only
    rw [htake, List.drop_length]
  unfold isFloat
  rw [unsigned_of_isDigit hds]
  dsimp only
  rw [hword ⟨'i', by decide⟩, hword ⟨'n', by decide⟩, hscaled]
  rfl

theorem readInteger?_toDigits (n : Nat) : readInteger? (Nat.toDigits 10 n) = integer? n := by
  have hds : ∀ c ∈ Nat.toDigits 10 n, c.isDigit := fun _ => Text.isDigit_toDigits
  have hvalue : Nat.ofDigitChars 10 (Nat.toDigits 10 n) 0 = n :=
    Nat.ofDigitChars_toDigits (by decide) (by decide)
  have hwhole : whole? (Nat.toDigits 10 n) = some n := by
    obtain ⟨c, cs, hdigits, hzero⟩ := Text.exists_toDigits n
    have hdigits? := digits?_of_isDigit Nat.toDigits_ne_nil hds
    rw [hvalue] at hdigits?
    unfold whole?
    split
    next heq =>
      obtain ⟨rfl, hcs⟩ := List.cons_eq_cons.mp (hdigits.symm.trans heq)
      rw [hzero rfl] at hcs
      cases hcs
    next => exact hdigits?
  unfold readInteger?
  split
  next heq => exact absurd (hds 'x' (heq ▸ by simp)) (by decide)
  next heq => exact absurd (hds 'o' (heq ▸ by simp)) (by decide)
  next heq => exact absurd (hds 'b' (heq ▸ by simp)) (by decide)
  next =>
    rw [unsigned_of_isDigit hds]
    dsimp only
    rw [hwhole, Option.bind_some, if_neg Bool.false_ne_true]

theorem scalar?_toDigits (n : Nat) : scalar? (Nat.toDigits 10 n) = (integer? n).map .integer := by
  have hds : ∀ c ∈ Nat.toDigits 10 n, c.isDigit := fun _ => Text.isDigit_toDigits
  have htrue : (Nat.toDigits 10 n == ['t', 'r', 'u', 'e']) = false :=
    beq_false_of_ne fun h => absurd (hds 't' (h ▸ by simp)) (by decide)
  have hfalse : (Nat.toDigits 10 n == ['f', 'a', 'l', 's', 'e']) = false :=
    beq_false_of_ne fun h => absurd (hds 'f' (h ▸ by simp)) (by decide)
  unfold scalar?
  rw [htrue, hfalse, dateTime_of_isDigit hds, isFloat_of_isDigit hds, readInteger?_toDigits]
  rfl

theorem open?_eq_none (hdouble : c ≠ '"') (hsingle : c ≠ '\'') : Quote.open? (c :: cs) = none := by
  unfold Quote.open?
  split
  next heq => exact absurd (List.cons_eq_cons.mp heq).1 hdouble
  next heq => exact absurd (List.cons_eq_cons.mp heq).1 hsingle
  next heq => exact absurd (List.cons_eq_cons.mp heq).1 hdouble
  next heq => exact absurd (List.cons_eq_cons.mp heq).1 hsingle
  next => rfl

theorem value?_toDigits (depth : Nat) (hn : integer? n = some (n : Int)) :
    value? depth (Nat.toDigits 10 n ++ '\n' :: rest) = some (.integer n, '\n' :: rest) := by
  have hds : ∀ c ∈ Nat.toDigits 10 n, c.isDigit := fun _ => Text.isDigit_toDigits
  have hall : ∀ c : Char, c.isDigit → isScalar c ∧ c ∉ ['"', '\'', '[', '\x7b'] :=
    Text.forall_isDigit (by decide)
  have htake : (Nat.toDigits 10 n ++ '\n' :: rest).takeWhile isScalar = Nat.toDigits 10 n := by
    apply Text.takeWhile_append
    · exact fun c hc => (hall c (hds c hc)).1
    · rintro _ ⟨⟩
      decide
  have htext : scalarText (Nat.toDigits 10 n ++ '\n' :: rest) = Nat.toDigits 10 n := by
    unfold scalarText
    dsimp only
    rw [htake, List.drop_left]
    rfl
  have hscalar : scalar? (Nat.toDigits 10 n) = some (.integer n) := by
    rw [scalar?_toDigits, hn]
    rfl
  obtain ⟨c, cs, hdigits, -⟩ := Text.exists_toDigits n
  have hc := (hall c (hds c (hdigits ▸ List.mem_cons_self))).2
  simp only [List.mem_cons, not_or] at hc
  have hopen : Quote.open? (Nat.toDigits 10 n ++ '\n' :: rest) = none := by
    rw [hdigits]
    exact open?_eq_none hc.1 hc.2.1
  unfold value?
  rw [hopen]
  dsimp only
  split
  next heq =>
    rw [hdigits] at heq
    exact absurd (List.cons_eq_cons.mp heq).1 hc.2.2.1
  next heq =>
    rw [hdigits] at heq
    exact absurd (List.cons_eq_cons.mp heq).1 hc.2.2.2.1
  next =>
    rw [htext, hscalar, List.drop_left]
    rfl

/-! ### Statements -/

def begins (c : Char) : Bool := !isBlank c && c != '\n' && c != '#'

theorem isBlank_of_begins (hc : begins c) : isBlank c = false := by
  simp only [begins, Bool.and_eq_true, Bool.not_eq_true'] at hc
  exact hc.1.1

theorem skipBlanks_cons (hc : isBlank c = false) : skipBlanks (c :: cs) = c :: cs :=
  List.dropWhile_cons_of_neg (by simp [hc])

structure KeyText (key : List Char) (k : String) : Prop where
  keyPart? : ∀ rest, keyPart? (key ++ ' ' :: rest) = some (k, ' ' :: rest)
  head? : ∃ c ∈ key.head?, begins c ∧ c ≠ '['
  not_mem : '\r' ∉ key

/-- `text` is written for `v` at the end of a line. -/
structure ValueText (text : List Char) (v : TomlValue) : Prop where
  value? : ∀ rest, value? depthLimit (text ++ '\n' :: rest) = some (v, '\n' :: rest)
  head? : ∃ c ∈ text.head?, isBlank c = false
  not_mem : '\r' ∉ text

theorem exists_head?_write {q : Quote} (h : q.Fits text) : ∃ c ∈ (q.write text).head?, c ∈ ['"', '\''] := by
  obtain ⟨cs, hcs⟩ := q.exists_delimiter
  refine ⟨q.mark, ?_, by simpa using h.mark⟩
  rw [Quote.write, hcs]
  rfl

theorem KeyText.bare (hne : text ≠ []) (hbare : ∀ c ∈ text, Quote.isBare c) :
    KeyText text (String.ofList text) := by
  have hother : ∀ c ∈ [' ', '\t', '\n', '#', '[', '\r'], Quote.isBare c = false :=
    List.all_iff_forall_prop.mp (by decide)
  have hmem {c : Char} (hc : c ∈ text) : c ∉ [' ', '\t', '\n', '#', '[', '\r'] := by
    intro h
    have hbare := hbare c hc
    rw [hother c h] at hbare
    cases hbare
  refine ⟨fun rest => keyPart?_bare hne hbare (by rintro _ ⟨⟩; decide), ?_, fun h => hmem h (by decide)⟩
  obtain ⟨c, cs, rfl⟩ := List.exists_cons_of_ne_nil hne
  have hc := hmem List.mem_cons_self
  simp only [List.mem_cons, not_or] at hc
  refine ⟨c, rfl, ?_, hc.2.2.2.2.1⟩
  simp [begins, isBlank, hc]

theorem KeyText.quoted {q : Quote} (h : q.Fits text) (hshort : q.isLong = false) :
    KeyText (q.write text) (String.ofList text) := by
  have hspace : ' ' ≠ q.mark := Ne.symm (Quote.mem_marks_ne h (by decide))
  have hhead : ∀ c ∈ ['"', '\''], begins c ∧ c ≠ '[' := List.all_iff_forall_prop.mp (by decide)
  refine ⟨fun rest => keyPart?_quoted h hshort (by simpa using hspace), ?_, Quote.not_mem_write h⟩
  obtain ⟨c, hc, hmark⟩ := exists_head?_write h
  exact ⟨c, hc, hhead c hmark⟩

theorem KeyText.keyText (text : List Char) : KeyText (Quote.keyText text) (String.ofList text) := by
  unfold Quote.keyText
  split
  next hbare =>
    obtain ⟨hne, hall⟩ := Bool.and_eq_true_iff.mp hbare
    exact .bare (by simpa using hne) (List.all_eq_true.mp hall)
  next =>
    cases h : Quote.short? text with
    | none => exact .quoted (.inl rfl) rfl
    | some q => exact .quoted (Quote.fits_short? h).2 (Quote.fits_short? h).1

theorem ValueText.valueText (text : List Char) :
    ValueText (Quote.valueText text) (.string (String.ofList text)) := by
  have hfits := Quote.fits_forValue text
  have hblank : ∀ c ∈ ['"', '\''], isBlank c = false := List.all_iff_forall_prop.mp (by decide)
  refine ⟨fun rest => value?_valueText _ (by rintro _ ⟨⟩; decide), ?_, Quote.not_mem_write hfits⟩
  obtain ⟨c, hc, hmark⟩ := exists_head?_write hfits
  exact ⟨c, hc, hblank c hmark⟩

theorem ValueText.toDigits (hn : integer? n = some (n : Int)) : ValueText (Nat.toDigits 10 n) (.integer n) := by
  have hblank : ∀ c : Char, c.isDigit → isBlank c = false := Text.forall_isDigit (by decide)
  refine ⟨fun rest => value?_toDigits _ hn, ?_, fun h => absurd (Text.isDigit_toDigits h) (by decide)⟩
  obtain ⟨c, cs, hdigits, -⟩ := Text.exists_toDigits n
  have hc : c.isDigit := Text.isDigit_toDigits (hdigits ▸ List.mem_cons_self)
  exact ⟨c, hdigits ▸ rfl, hblank c hc⟩

theorem statement?_pair {key text : List Char} {k : String} {v : TomlValue} (hkey : KeyText key k)
    (hvalue : ValueText text v) (rest : List Char) :
    statement? (key ++ " = ".toList ++ text ++ '\n' :: rest) = some (.pair [k] v, '\n' :: rest) := by
  obtain ⟨c, hc, hbegins, hmark⟩ := hkey.head?
  obtain ⟨key', rfl⟩ := List.head?_eq_some_iff.mp hc
  obtain ⟨d, hd, hblank⟩ := hvalue.head?
  obtain ⟨text', rfl⟩ := List.head?_eq_some_iff.mp hd
  have hequals : skipBlanks (' ' :: '=' :: ' ' :: (d :: text' ++ '\n' :: rest)) =
      '=' :: ' ' :: (d :: text' ++ '\n' :: rest) := rfl
  have hrest : skipBlanks (' ' :: (d :: text' ++ '\n' :: rest)) = d :: text' ++ '\n' :: rest := by
    change skipBlanks (d :: (text' ++ '\n' :: rest)) = _
    exact skipBlanks_cons hblank
  have hkey' : key? depthLimit (c :: key' ++ ' ' :: '=' :: ' ' :: (d :: text' ++ '\n' :: rest)) =
      some ([k], '=' :: ' ' :: (d :: text' ++ '\n' :: rest)) := by
    rw [depthLimit, key?, List.cons_append, skipBlanks_cons (isBlank_of_begins hbegins), ← List.cons_append,
      hkey.keyPart?]
    simp only [Option.bind_eq_bind, Option.bind_some, hequals]
    rfl
  have hpair : keyOfPair? (c :: key' ++ ' ' :: '=' :: ' ' :: (d :: text' ++ '\n' :: rest)) =
      some ([k], d :: text' ++ '\n' :: rest) := by
    rw [keyOfPair?, hkey']
    simp only [Option.bind_eq_bind, Option.bind_some, expect?, beq_self_eq_true, if_true, hrest]
    rfl
  have htext : c :: key' ++ " = ".toList ++ (d :: text') ++ '\n' :: rest =
      c :: (key' ++ ' ' :: '=' :: ' ' :: (d :: text' ++ '\n' :: rest)) := by
    have hequals : " = ".toList = [' ', '=', ' '] := by decide
    simp [hequals]
  rw [htext, statement?]
  · rw [← List.cons_append, hpair]
    simp only [Option.bind_eq_bind, Option.bind_some, hvalue.value?]
    rfl
  · exact fun _ h => hmark (List.cons_eq_cons.mp h).1
  · exact fun _ h => hmark (List.cons_eq_cons.mp h).1

/-! ### Documents -/

inductive Lines : List Char → List Statement → Prop
  | nil : Lines [] []
  | blank {cs : List Char} {ss : List Statement} (h : Lines cs ss) : Lines ('\n' :: cs) ss
  | line {c : Char} {line cs : List Char} {s : Statement} {ss : List Statement} (hc : begins c)
    (hfeed : '\r' ∉ c :: line) (hs : ∀ rest, statement? (c :: line ++ '\n' :: rest) = some (s, '\n' :: rest))
    (h : Lines cs ss) : Lines (c :: line ++ '\n' :: cs) (s :: ss)

variable {ss : List Statement}

theorem skipLines_of_begins (hc : begins c) : skipLines false (c :: cs) = c :: cs := by
  simp only [begins, Bool.and_eq_true, bne_iff_ne, Bool.not_eq_true'] at hc
  rw [skipLines, if_neg (by simpa using hc.1.2), if_neg Bool.false_ne_true, if_neg (by simp [hc.1.1]),
    if_neg (by simpa using hc.2)]

theorem Lines.pair {key text cs : List Char} {k : String} {v : TomlValue} (hkey : KeyText key k)
    (hvalue : ValueText text v) (h : Lines cs ss) : Lines (key ++ " = ".toList ++ text ++ '\n' :: cs) (.pair [k] v :: ss) := by
  obtain ⟨c, hc, hbegins, -⟩ := hkey.head?
  obtain ⟨key', rfl⟩ := List.head?_eq_some_iff.mp hc
  have hfeed : '\r' ∉ c :: key' ++ " = ".toList ++ text := by
    simp only [List.mem_append, not_or]
    exact ⟨⟨hkey.not_mem, by decide⟩, hvalue.not_mem⟩
  exact .line hbegins hfeed (statement?_pair hkey hvalue) h

theorem Lines.statements? (h : Lines cs ss) (hn : ss.length < n) : statements? n cs = some ss := by
  induction h generalizing n with
  | nil =>
    obtain ⟨n, rfl⟩ := Nat.exists_eq_succ_of_ne_zero (Nat.ne_of_gt hn)
    rfl
  | blank h ih =>
    obtain ⟨n, rfl⟩ := Nat.exists_eq_succ_of_ne_zero (Nat.ne_of_gt (Nat.zero_lt_of_lt hn))
    exact ih hn
  | @line c line cs s ss hc hfeed hs h ih =>
    obtain ⟨n, rfl⟩ := Nat.exists_eq_succ_of_ne_zero (Nat.ne_of_gt (Nat.zero_lt_of_lt hn))
    have hend : lineEnd? ('\n' :: cs) = some cs := rfl
    have hstatement := hs cs
    rw [List.cons_append] at hstatement ⊢
    rw [Toml.statements?, skipLines_of_begins hc]
    simp only [hstatement, hend, ih (Nat.lt_of_succ_lt_succ hn), Option.bind_eq_bind, Option.bind_some,
      Option.pure_def]

theorem Lines.length_le (h : Lines cs ss) : ss.length ≤ cs.length := by
  induction h with
  | nil => exact Nat.le_refl 0
  | blank h ih => exact Nat.le_succ_of_le ih
  | line hc hfeed hs h ih =>
    simp only [List.length_append, List.length_cons]
    omega

theorem Lines.not_mem (h : Lines cs ss) : '\r' ∉ cs := by
  induction h with
  | nil => nofun
  | blank h ih => exact List.not_mem_cons_of_ne_of_not_mem (by decide) ih
  | line hc hfeed hs h ih =>
    intro hmem
    rcases List.mem_append.mp hmem with hmem | hmem
    · exact hfeed hmem
    · exact List.not_mem_cons_of_ne_of_not_mem (by decide) ih hmem

theorem lineFeeds?_of_not_mem (h : '\r' ∉ cs) : lineFeeds? cs = some cs := by
  induction cs with
  | nil => rfl
  | cons c cs ih =>
    simp only [List.mem_cons, not_or] at h
    have hc : c ≠ '\r' := Ne.symm h.1
    rw [lineFeeds?, if_neg (by simpa using hc), ih h.2, Option.map_some]
    exact fun _ heq => absurd heq hc

theorem Lines.read? (h : Lines cs ss) (hhead : cs.head? ≠ some '\ufeff') :
    read? (String.ofList cs) = assemble ss := by
  have hfuel : ss.length < cs.length + 1 := Nat.lt_succ_of_le h.length_le
  unfold Toml.read?
  rw [String.toList_ofList]
  dsimp only
  split
  next => exact absurd rfl hhead
  next =>
    simp only [lineFeeds?_of_not_mem h.not_mem, h.statements? hfuel, Option.bind_eq_bind, Option.bind_some]

end GrammarScopes.Toml
