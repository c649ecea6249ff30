import GrammarScopes.Document
import GrammarScopes.Proofs.Text.Split

/-!
The lines of a text and the line breaks between them are the text again, but for a carriage return at its very end: no
line feed follows it, and it is dropped all the same.
-/

namespace GrammarScopes

namespace Document

/-- A text is its lines with a line break after each but the last.  A line that ends in a carriage return has another
one in its line break. -/
inductive CutInto : List Char → List (List Char) → Prop
  | last {line : List Char} (hline : '\n' ∉ line) : CutInto line [line]
  | feed {line rest : List Char} {lines : List (List Char)} (hline : '\n' ∉ line) (hreturn : line.getLast? ≠ some '\r')
      (hrest : CutInto rest lines) : CutInto (line ++ '\n' :: rest) (line :: lines)
  | returnFeed {line rest : List Char} {lines : List (List Char)} (hline : '\n' ∉ line) (hrest : CutInto rest lines) :
      CutInto (line ++ '\r' :: '\n' :: rest) (line :: lines)

/-- A text without its line feeds, and without each carriage return directly before one. -/
def withoutBreaks : List Char → List Char
  | [] => []
  | c :: cs => if c = '\n' ∨ c = '\r' ∧ cs.head? = some '\n' then withoutBreaks cs else c :: withoutBreaks cs

variable {text line rest piece : List Char} {lines : List (List Char)}

theorem dropReturn_append (front : List Char) : dropReturn (front ++ ['\r']) = front := by
  simp [dropReturn]

theorem dropReturn_of_getLast? (h : text.getLast? ≠ some '\r') : dropReturn text = text := if_neg h

theorem dropReturn_append_feed (front rest : List Char) :
    dropReturn (front ++ '\n' :: rest) = front ++ '\n' :: dropReturn rest := by
  cases rest with
  | nil => simp [dropReturn]
  | cons c rest =>
    have hlast : (front ++ '\n' :: c :: rest).getLast? = (c :: rest).getLast? := by
      simp [List.getLast?_append, List.getLast?_cons]
    unfold dropReturn
    rw [hlast]
    split
    · simp [List.dropLast_append_of_ne_nil]
    · rfl

theorem dropReturn_cases (text : List Char) :
    text = dropReturn text ++ ['\r'] ∨ text = dropReturn text ∧ text.getLast? ≠ some '\r' := by
  by_cases h : text.getLast? = some '\r'
  · left
    obtain ⟨front, rfl⟩ := List.getLast?_eq_some_iff.mp h
    rw [dropReturn_append]
  · right
    exact ⟨(dropReturn_of_getLast? h).symm, h⟩

theorem not_mem_dropReturn (h : '\n' ∉ piece) : '\n' ∉ dropReturn piece := by
  rcases dropReturn_cases piece with heq | ⟨heq, -⟩
  · intro hmem
    apply h
    rw [heq]
    exact List.mem_append_left _ hmem
  · rwa [← heq]

theorem cutInto_splitAll (text : List Char) :
    CutInto (dropReturn text) ((Text.splitAll '\n' text).map dropReturn) := by
  induction text using Text.pieceInduction '\n' with
  | last piece hpiece =>
    rw [Text.splitAll_of_not_mem hpiece]
    exact .last (not_mem_dropReturn hpiece)
  | more piece rest hpiece ih =>
    rw [Text.splitAll_append hpiece, dropReturn_append_feed, List.map_cons]
    rcases dropReturn_cases piece with heq | ⟨heq, hlast⟩
    · have hcut := CutInto.returnFeed (not_mem_dropReturn hpiece) ih
      rwa [← List.singleton_append, ← List.append_assoc, ← heq] at hcut
    · rw [← heq]
      exact .feed hpiece hlast ih

theorem withoutBreaks_append (rest : List Char) (hline : '\n' ∉ line)
    (hreturn : line.getLast? = some '\r' → rest.head? ≠ some '\n') :
    withoutBreaks (line ++ rest) = line ++ withoutBreaks rest := by
  induction line with
  | nil => rfl
  | cons c line ih =>
    simp only [List.mem_cons, not_or] at hline
    have hkept : ¬ (c = '\n' ∨ c = '\r' ∧ (line ++ rest).head? = some '\n') := by
      rintro (rfl | ⟨rfl, hhead⟩)
      · exact hline.1 rfl
      · cases line with
        | nil => exact hreturn rfl hhead
        | cons d line =>
          cases hhead
          exact hline.2 List.mem_cons_self
    rw [List.cons_append, withoutBreaks, if_neg hkept, ih hline.2, List.cons_append]
    intro hlast
    apply hreturn
    rw [List.getLast?_cons, hlast, Option.getD_some]

theorem CutInto.flatten (h : CutInto text lines) : lines.flatten = withoutBreaks text := by
  induction h with
  | @last line hline =>
    have happend := withoutBreaks_append [] hline (by simp)
    rw [List.append_nil] at happend
    rw [happend, List.flatten_singleton]
    simp [withoutBreaks]
  | feed hline hreturn _ ih =>
    rw [withoutBreaks_append _ hline fun h => absurd h hreturn, List.flatten_cons, ih]
    simp [withoutBreaks]
  | returnFeed hline _ ih =>
    rw [withoutBreaks_append _ hline (by simp), List.flatten_cons, ih]
    simp [withoutBreaks]

theorem CutInto.length (h : CutInto text lines) : lines.length = text.count '\n' + 1 := by
  induction h with
  | last hline => simp [List.count_eq_zero.mpr hline]
  | feed hline _ _ ih => simp [List.count_append, List.count_eq_zero.mpr hline, ih]
  | returnFeed hline _ ih => simp [List.count_append, List.count_eq_zero.mpr hline, ih]

/-- Nothing of a text is lost in its lines but the line breaks, unless it ends in a carriage return, which no line has. -/
theorem cutInto_ofText (text : String) :
    ∃ front rest, text.toList = front ++ rest ∧ (rest = ['\r'] ∨ rest = [] ∧ front.getLast? ≠ some '\r') ∧
      CutInto front ((ofText text).lines.map String.toList) ∧
      (ofText text).lineCount = text.toList.count '\n' + 1 ∧
      ((ofText text).lines.map String.toList).flatten = withoutBreaks front := by
  have hlines : (ofText text).lines.map String.toList = (Text.splitAll '\n' text.toList).map dropReturn := by
    simp [ofText, Function.comp_def]
  have hcut := cutInto_splitAll text.toList
  have hlength : (ofText text).lineCount = (dropReturn text.toList).count '\n' + 1 := by
    rw [← hcut.length, ← hlines, List.length_map]
    rfl
  rw [← hlines] at hcut
  rcases dropReturn_cases text.toList with heq | ⟨heq, hlast⟩
  · refine ⟨dropReturn text.toList, ['\r'], heq, .inl rfl, hcut, ?_, hcut.flatten⟩
    rw [hlength]
    conv_rhs => rw [heq]
    simp [List.count_append]
  · rw [← heq] at hcut hlength
    exact ⟨text.toList, [], (List.append_nil _).symm, .inr ⟨rfl, hlast⟩, hcut, hlength, hcut.flatten⟩

/-- A carriage return at the end of a text is in no line. -/
theorem not_cutInto_ofText : ¬ CutInto "a\r".toList ((ofText "a\r").lines.map String.toList) := by
  intro h
  have hflatten := h.flatten
  revert hflatten
  decide

end Document

end GrammarScopes
