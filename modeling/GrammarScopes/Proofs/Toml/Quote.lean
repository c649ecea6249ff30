import GrammarScopes.Toml.Quote

/-!
Quoted texts are read as the texts that were written.
-/

namespace GrammarScopes.Toml.Quote

variable {q : Quote} {run n : Nat} {c : Char} {e body text seen cs rest : List Char}

structure Escapes (e : List Char) (c : Char) : Prop where
  escape? : ∀ cs, escape? (e ++ cs) = some (c, cs)
  afterLineEnd? : ∀ cs, afterLineEnd? (e ++ cs) = none
  not_mem : '\r' ∉ e

/-- `body` may stand for `text` between the marks of `q`, after `run` marks that are part of the
text. -/
inductive Spells (q : Quote) : Nat → List Char → List Char → Prop
  | nil {run : Nat} : Spells q run [] []
  | mark {run : Nat} {body text : List Char} (hlong : q.isLong) (hrun : run < 2)
    (h : Spells q (run + 1) body text) : Spells q run (q.mark :: body) (q.mark :: text)
  | plain {run : Nat} {c : Char} {body text : List Char} (hmark : c ≠ q.mark)
    (hescape : c = '\\' → q.hasEscapes = false) (hplain : isPlain c ∨ q.isLong ∧ c = '\n')
    (h : Spells q 0 body text) : Spells q run (c :: body) (c :: text)
  | escape {run : Nat} {c : Char} {e body text : List Char} (hescapes : q.hasEscapes)
    (he : Escapes e c) (h : Spells q 0 body text) : Spells q run ('\\' :: (e ++ body)) (c :: text)

/-! ### Reading -/

theorem takeWhile_replicate (k : Nat) (hcs : cs.head? ≠ some c) :
    (List.replicate k c ++ cs).takeWhile (· == c) = List.replicate k c := by
  rw [List.takeWhile_append_of_pos (by simp)]
  cases cs with
  | nil => simp
  | cons d cs => rw [List.takeWhile_cons_of_neg (by simpa using hcs), List.append_nil]

theorem mark_ne_backslash (h : q.hasEscapes) : '\\' ≠ q.mark := by
  rw [eq_of_beq h]
  decide

/-- Either nothing but marks is left, or another character comes before there are too many. -/
theorem Spells.marks (h : Spells q run body text) (hrun : run ≤ 2) :
    (∃ k, k + run ≤ 2 ∧ body = List.replicate k q.mark ∧ text = body) ∨
      ∀ cs, ((body ++ cs).takeWhile (· == q.mark)).length + run ≤ 2 := by
  have hother {c : Char} {body : List Char} {run : Nat} (hc : c ≠ q.mark) (hrun : run ≤ 2) (cs : List Char) :
      ((c :: body ++ cs).takeWhile (· == q.mark)).length + run ≤ 2 := by
    rw [List.cons_append, List.takeWhile_cons_of_neg (by simpa using hc)]
    simpa using hrun
  induction h with
  | nil => exact .inl ⟨0, by omega, rfl, rfl⟩
  | mark hlong hmany h ih =>
    rcases ih hmany with ⟨k, hk, hbody, htext⟩ | hfew
    · exact .inl ⟨k + 1, by omega, by rw [hbody]; rfl, by rw [htext]⟩
    · refine .inr fun cs => ?_
      rw [List.cons_append, List.takeWhile_cons_of_pos (by simp), List.length_cons]
      have := hfew cs
      omega
  | plain hmark => exact .inr (hother hmark hrun)
  | escape hescapes => exact .inr (hother (mark_ne_backslash hescapes) hrun)

theorem close?_replicate (hlong : q.isLong) {k : Nat} (hk : k ≤ 2) (hrest : rest.head? ≠ some q.mark) :
    q.close? (List.replicate (k + 3) q.mark ++ rest) = some (List.replicate k q.mark, rest) := by
  unfold close?
  rw [if_pos hlong, takeWhile_replicate _ hrest, List.length_replicate]
  dsimp only
  rw [if_neg (by omega), Nat.add_sub_cancel, Nat.min_eq_left hk, List.drop_left' List.length_replicate]

theorem exists_delimiter (q : Quote) : ∃ cs, q.delimiter = q.mark :: cs := by
  unfold delimiter
  cases q.isLong <;> exact ⟨_, rfl⟩

theorem close?_delimiter (hrest : rest.head? ≠ some q.mark) :
    q.close? (q.delimiter ++ rest) = some ([], rest) := by
  unfold delimiter
  cases hlong : q.isLong with
  | true => exact close?_replicate hlong (Nat.zero_le 2) hrest
  | false =>
    unfold close?
    rw [hlong]
    rfl

theorem readTail_of_spells (h : Spells q run body text) (hrun : run ≤ 2)
    (hrest : rest.head? ≠ some q.mark) (hn : body.length < n) :
    q.readTail n seen (body ++ (q.delimiter ++ rest)) = some (seen.reverse ++ text, rest) := by
  induction h generalizing n seen with
  | nil =>
    obtain ⟨n, rfl⟩ := Nat.exists_eq_succ_of_ne_zero (Nat.ne_of_gt hn)
    obtain ⟨cs, hcs⟩ := exists_delimiter q
    have hclose := close?_delimiter hrest
    rw [hcs, List.cons_append] at hclose
    rw [hcs, List.nil_append, List.cons_append, readTail, if_pos (beq_self_eq_true _), hclose,
      List.append_nil]
    rfl
  | @mark run body text hlong hmany h ih =>
    obtain ⟨n, rfl⟩ := Nat.exists_eq_succ_of_ne_zero (Nat.ne_of_gt (Nat.zero_lt_of_lt hn))
    rw [List.cons_append, readTail, if_pos (beq_self_eq_true _)]
    rcases h.marks hmany with ⟨k, hk, hbody, htext⟩ | hfew
    · -- the marks at the end of the text run into those that close it
      have hmarks : q.mark :: (List.replicate k q.mark ++ (q.delimiter ++ rest)) =
          List.replicate (k + 1 + 3) q.mark ++ rest := by
        unfold delimiter
        rw [if_pos hlong, ← List.append_assoc, List.replicate_append_replicate]
        rfl
      rw [htext, hbody, hmarks, close?_replicate hlong (by omega) hrest]
      dsimp only
      rw [List.reverse_append, List.reverse_replicate, List.replicate_succ]
    · have hnone : q.close? (q.mark :: (body ++ (q.delimiter ++ rest))) = none := by
        have hcount := hfew (q.delimiter ++ rest)
        unfold close?
        rw [if_pos hlong, List.takeWhile_cons_of_pos (by simp), List.length_cons, if_pos (by omega)]
      rw [hnone]
      dsimp only
      rw [ih hmany (Nat.lt_of_succ_lt_succ hn), List.reverse_cons, List.append_assoc, List.singleton_append]
  | @plain run c body text hmark hescape hplain h ih =>
    obtain ⟨n, rfl⟩ := Nat.exists_eq_succ_of_ne_zero (Nat.ne_of_gt (Nat.zero_lt_of_lt hn))
    have hnone : ¬((c == '\\' && q.hasEscapes) = true) := by
      intro h
      obtain ⟨hc, hescapes⟩ := Bool.and_eq_true_iff.mp h
      rw [hescape (eq_of_beq hc)] at hescapes
      cases hescapes
    rw [List.cons_append, readTail, if_neg (by simpa using hmark), if_neg hnone, if_pos (by simpa using hplain),
      ih (Nat.zero_le 2) (Nat.lt_of_succ_lt_succ hn), List.reverse_cons, List.append_assoc, List.singleton_append]
  | @escape run c e body text hescapes he h ih =>
    obtain ⟨n, rfl⟩ := Nat.exists_eq_succ_of_ne_zero (Nat.ne_of_gt (Nat.zero_lt_of_lt hn))
    rw [List.cons_append, readTail, if_neg (by simpa using mark_ne_backslash hescapes),
      if_pos (by simpa using hescapes), List.append_assoc, he.afterLineEnd?, ite_self, he.escape?]
    have hlength : body.length < n := by
      simp only [List.length_cons, List.length_append] at hn
      omega
    dsimp only [Option.bind_some]
    rw [ih (Nat.zero_le 2) hlength, List.reverse_cons, List.append_assoc, List.singleton_append]

/-! ### Writing -/

theorem escapes_letter {e c : Char} (he : e ∈ ['b', 't', 'n', 'f', 'r', '"', '\\'])
    (hc : escape? [e] = some (c, [])) : Escapes [e] c := by
  simp only [List.mem_cons, List.not_mem_nil, or_false] at he
  rcases he with rfl | rfl | rfl | rfl | rfl | rfl | rfl <;>
    (cases hc; exact ⟨fun _ => rfl, fun _ => rfl, by decide⟩)

def codeDigits (n : Nat) : List Char :=
  let digits := (Nat.toDigits 16 n).map Char.toUpper
  List.replicate (4 - digits.length) '0' ++ digits

theorem inBase?_codeDigits : ∀ n < 128, (codeDigits n).length = 4 ∧
    Text.inBase? 16 0 (codeDigits n) = some n ∧ '\r' ∉ codeDigits n := by
  decide

theorem escapes_code (hc : c.toNat < 128) : ∃ e, codeEscape c = '\\' :: e ∧ Escapes e c := by
  obtain ⟨hlength, hvalue, hfeed⟩ := inBase?_codeDigits c.toNat hc
  refine ⟨'u' :: codeDigits c.toNat, rfl, fun cs => ?_, fun cs => rfl, ?_⟩
  · have hvalid : c.toNat.isValidChar := c.valid
    rw [List.cons_append, escape?, codeChar?, List.take_left' hlength, hlength, if_neg (Nat.lt_irrefl 4), hvalue,
      Option.bind_some, if_pos hvalid, Char.ofNat_toNat, List.drop_left' hlength]
  · exact List.not_mem_cons_of_ne_of_not_mem (by decide) hfeed

theorem spells_escaped (isLong : Bool) (text : List Char) (run : Nat) :
    Spells ⟨'"', isLong⟩ run (escaped isLong run text) text := by
  induction text generalizing run with
  | nil => exact .nil
  | cons c text ih =>
    unfold escaped
    split
    next hc =>
      rw [eq_of_beq hc]
      by_cases hrun : run < if isLong then 2 else 0
      · rw [if_pos hrun]
        cases isLong with
        | false => exact absurd hrun (Nat.not_lt_zero run)
        | true => exact .mark rfl hrun (ih _)
      · rw [if_neg hrun]
        exact .escape rfl (escapes_letter (by decide) rfl) (ih 0)
    next hc =>
      have hescape {e : Char} (he : e ∈ ['b', 't', 'n', 'f', 'r', '"', '\\']) (hc : escape? [e] = some (c, [])) :
          Spells ⟨'"', isLong⟩ run ('\\' :: ([e] ++ escaped isLong 0 text)) (c :: text) :=
        .escape rfl (escapes_letter he hc) (ih 0)
      have hmark : c ≠ '"' := by simpa using hc
      unfold escapedChar
      split
      · exact hescape (by decide) rfl
      · exact hescape (by decide) rfl
      · cases isLong with
        | true => exact .plain hmark nofun (.inr ⟨rfl, rfl⟩) (ih 0)
        | false => exact hescape (by decide) rfl
      · exact hescape (by decide) rfl
      · exact hescape (by decide) rfl
      · exact hescape (by decide) rfl
      next hback =>
        split
        next hplain => exact .plain hmark (fun h => absurd h hback) (.inl hplain) (ih 0)
        next hplain =>
          have hcode : c.toNat < 128 := by
            simp only [isPlain, Bool.or_eq_true, Bool.and_eq_true, decide_eq_true_eq, not_or, not_and] at hplain
            by_cases hlow : 0x20 ≤ c.toNat
            · have hdelete : c = '\x7f' := by simpa using hplain.2 hlow
              rw [hdelete]
              decide
            · omega
          obtain ⟨e, he, hescapes⟩ := escapes_code hcode
          rw [he]
          exact .escape rfl hescapes (ih 0)

theorem le_longestRun (mark : Char) (run : Nat) (text : List Char) : run ≤ longestRun mark run text := by
  induction text generalizing run with
  | nil => exact Nat.le_refl run
  | cons c text ih =>
    unfold longestRun
    split
    · exact Nat.le_trans (Nat.le_succ run) (ih _)
    · exact Nat.le_max_left _ _

theorem spells_self {isLong : Bool} (hplain : ∀ c ∈ text, isPlain c ∨ isLong ∧ c = '\n')
    (hmarks : '\'' ∈ text → isLong ∧ longestRun '\'' run text ≤ 2) : Spells ⟨'\'', isLong⟩ run text text := by
  induction text generalizing run with
  | nil => exact .nil
  | cons c text ih =>
    obtain ⟨hc, htext⟩ := List.forall_mem_cons.mp hplain
    by_cases hmark : c = '\''
    · subst hmark
      obtain ⟨hlong, hle⟩ := hmarks List.mem_cons_self
      unfold longestRun at hle
      rw [if_pos (beq_self_eq_true _)] at hle
      have hrun := le_longestRun '\'' (run + 1) text
      exact .mark hlong (by omega) (ih htext fun _ => ⟨hlong, hle⟩)
    · refine .plain hmark (fun _ => rfl) hc (ih htext fun hmem => ?_)
      obtain ⟨hlong, hle⟩ := hmarks (List.mem_cons_of_mem _ hmem)
      unfold longestRun at hle
      rw [if_neg (by simpa using hmark)] at hle
      exact ⟨hlong, Nat.le_trans (Nat.le_max_right _ _) hle⟩

/-- `q` has escapes, or `text` needs none in it. -/
def Fits (q : Quote) (text : List Char) : Prop :=
  q.mark = '"' ∨ q.mark = '\'' ∧ (∀ c ∈ text, isPlain c ∨ q.isLong ∧ c = '\n') ∧
    ('\'' ∈ text → q.isLong ∧ longestRun '\'' 0 text ≤ 2)

theorem Fits.spells (h : q.Fits text) :
    Spells q 0 (if q.hasEscapes then escaped q.isLong 0 text else text) text := by
  obtain ⟨mark, isLong⟩ := q
  rcases h with rfl | ⟨rfl, hplain, hmarks⟩
  · exact spells_escaped isLong text 0
  · exact spells_self hplain hmarks

theorem isPlain_of_hasCodes (h : hasCodes text = false) (hc : c ∈ text) (hne : c ≠ '\n') : isPlain c := by
  have hplain := List.any_eq_false.mp h c hc
  simpa [hne] using hplain

theorem fits_short? (h : short? text = some q) : q.isLong = false ∧ q.Fits text := by
  unfold short? at h
  split at h
  next => cases h
  next hcodes =>
    simp only [Bool.or_eq_true, not_or, Bool.not_eq_true] at hcodes
    split at h
    next => cases h; exact ⟨rfl, .inl rfl⟩
    next =>
      split at h
      next hmark =>
        cases h
        refine ⟨rfl, .inr ⟨rfl, fun c hc => .inl ?_, fun hmem => absurd hmem (by simpa using hmark)⟩⟩
        refine isPlain_of_hasCodes hcodes.1 hc fun hline => ?_
        subst hline
        exact absurd hc (by simpa using hcodes.2)
      next => cases h

theorem fits_long? (h : long? text = some q) : q.Fits text := by
  unfold long? at h
  split at h
  next => cases h
  next hcodes =>
    split at h
    next => cases h; exact .inl rfl
    next =>
      split at h
      next hrun =>
        cases h
        refine .inr ⟨rfl, fun c hc => ?_, fun _ => ⟨rfl, hrun⟩⟩
        by_cases hline : c = '\n'
        · exact .inr ⟨rfl, hline⟩
        · exact .inl (isPlain_of_hasCodes (by simpa using hcodes) hc hline)
      next => cases h

def forValue (text : List Char) : Quote :=
  ((short? text).or (long? text)).getD ⟨'"', text.contains '\n'⟩

theorem fits_forValue (text : List Char) : (forValue text).Fits text := by
  unfold forValue
  cases hshort : short? text with
  | some q => exact (fits_short? hshort).2
  | none =>
    cases hlong : long? text with
    | some q => exact fits_long? hlong
    | none => exact .inl rfl

/-! ### Reading what was written -/

theorem Spells.head?_ne_mark (h : Spells q run body text) (hshort : q.isLong = false) :
    body.head? ≠ some q.mark := by
  cases h with
  | nil => nofun
  | mark hlong => rw [hshort] at hlong; cases hlong
  | plain hmark => simpa using hmark
  | escape hescapes => simpa using mark_ne_backslash hescapes

theorem Spells.head?_ne_newline (h : Spells q run body text) (hmark : q.mark ≠ '\n') (htext : '\n' ∉ text) :
    body.head? ≠ some '\n' := by
  cases h with
  | nil => nofun
  | mark => simpa using hmark
  | plain =>
    rintro ⟨⟩
    exact htext List.mem_cons_self
  | escape => simp

theorem Spells.not_mem (h : Spells q run body text) (hmark : q.mark ≠ '\r') : '\r' ∉ body := by
  induction h with
  | nil => nofun
  | mark _ _ _ ih => exact List.not_mem_cons_of_ne_of_not_mem (Ne.symm hmark) ih
  | plain _ _ hplain _ ih =>
    refine List.not_mem_cons_of_ne_of_not_mem ?_ ih
    rintro rfl
    rcases hplain with h | ⟨-, h⟩ <;> exact absurd h (by decide)
  | escape _ he _ ih =>
    refine List.not_mem_cons_of_ne_of_not_mem (by decide) fun h => ?_
    rcases List.mem_append.mp h with h | h
    · exact he.not_mem h
    · exact ih h

theorem open?_delimiter (hmark : q.mark = '"' ∨ q.mark = '\'')
    (hcs : q.isLong = false → ∀ cs', cs ≠ q.mark :: q.mark :: cs') :
    open? (q.delimiter ++ cs) = some (q, cs) := by
  obtain ⟨mark, isLong⟩ := q
  cases isLong with
  | true => rcases hmark with rfl | rfl <;> rfl
  | false =>
    have hne := hcs rfl
    dsimp only at hmark hne
    change open? (mark :: cs) = _
    unfold open?
    split
    next heq =>
      obtain ⟨rfl, htail⟩ := List.cons_eq_cons.mp heq
      exact absurd htail (hne _)
    next heq =>
      obtain ⟨rfl, htail⟩ := List.cons_eq_cons.mp heq
      exact absurd htail (hne _)
    next heq =>
      obtain ⟨rfl, rfl⟩ := List.cons_eq_cons.mp heq
      rfl
    next heq =>
      obtain ⟨rfl, rfl⟩ := List.cons_eq_cons.mp heq
      rfl
    next hdouble hsingle =>
      rcases hmark with rfl | rfl
      · exact absurd rfl (hdouble cs)
      · exact absurd rfl (hsingle cs)

theorem Fits.mark (h : q.Fits text) : q.mark = '"' ∨ q.mark = '\'' :=
  h.imp_right And.left

theorem mem_marks_ne {d : Char} (h : q.Fits text) (hd : d ∉ ['"', '\'']) : q.mark ≠ d := by
  rintro rfl
  exact hd (by simpa using h.mark)

theorem read_newline (hlong : q.isLong) : q.read ('\n' :: cs) = q.readTail (cs.length + 1) [] cs := by
  unfold read
  rw [hlong]
  rfl

theorem read_other (h : q.isLong → cs.head? ≠ some '\n') : q.read cs = q.readTail (cs.length + 1) [] cs := by
  unfold read
  dsimp only
  split
  next hlong => exact absurd rfl (h hlong)
  next => rfl

theorem read_write (h : q.Fits text) (hrest : rest.head? ≠ some q.mark) :
    ∃ cs, q.write text ++ rest = q.delimiter ++ cs ∧ q.read cs = some (text, rest) ∧
      (q.isLong = false → ∀ cs', cs ≠ q.mark :: q.mark :: cs') := by
  have hspells := h.spells
  unfold write
  generalize (if q.hasEscapes then escaped q.isLong 0 text else text) = body at hspells ⊢
  have htail : q.readTail ((body ++ (q.delimiter ++ rest)).length + 1) [] (body ++ (q.delimiter ++ rest)) =
      some (text, rest) :=
    readTail_of_spells hspells (Nat.zero_le 2) hrest (by simp only [List.length_append]; omega)
  have hnewline : q.mark ≠ '\n' := mem_marks_ne h (by decide)
  obtain ⟨cs, hcs⟩ := exists_delimiter q
  have hhead (htext : body.head? ≠ some '\n') : (body ++ (q.delimiter ++ rest)).head? ≠ some '\n' := by
    rw [hcs]
    cases body with
    | nil => simpa using hnewline
    | cons => exact htext
  simp only [List.append_assoc]
  refine ⟨_, rfl, ?_, fun hshort cs' => ?_⟩
  · by_cases hlines : (q.isLong && text.contains '\n') = true
    · rw [if_pos hlines, List.singleton_append, read_newline (Bool.and_eq_true_iff.mp hlines).1, htail]
    · rw [if_neg hlines, List.nil_append, read_other, htail]
      intro hlong
      rw [hlong, Bool.true_and, List.contains_iff_mem] at hlines
      exact hhead (hspells.head?_ne_newline hnewline hlines)
  · have hmark := hspells.head?_ne_mark hshort
    rw [hshort, Bool.false_and, if_neg Bool.false_ne_true, List.nil_append, delimiter, hshort]
    cases body with
    | nil =>
      intro heq
      have htail : rest = q.mark :: cs' := (List.cons_eq_cons.mp heq).2
      exact hrest (htail ▸ rfl)
    | cons c body =>
      intro heq
      exact hmark (congrArg some (List.cons_eq_cons.mp heq).1)

theorem not_mem_write (h : q.Fits text) : '\r' ∉ q.write text := by
  have hmark : q.mark ≠ '\r' := mem_marks_ne h (by decide)
  have hbody := h.spells.not_mem hmark
  have hdelimiter : '\r' ∉ q.delimiter := fun hmem => hmark (List.eq_of_mem_replicate hmem).symm
  unfold write
  simp only [List.mem_append, not_or]
  refine ⟨⟨⟨hdelimiter, ?_⟩, hbody⟩, hdelimiter⟩
  split <;> decide

end GrammarScopes.Toml.Quote
