import GrammarScopes.Proofs.Tokenizer.Again
import Mathlib.Data.Finset.Card
import Mathlib.Logic.Relation
import Mathlib.Order.OrderIsoNat

/-!
Why scanning a line comes to an end.  Where nothing is consumed, regions that began elsewhere are left
before rules are entered, and no rule is entered twice; so at every position there are only so many
matches.
-/

namespace GrammarScopes

/-- No match ends beyond the end of the searched line. -/
def Scanner.EndsInLine (s : Scanner) : Prop :=
  ∀ sources matcher, s.compile sources = .ok matcher →
    ∀ line pos m, matcher.find line pos = some m → m.stop ≤ line.size

theorem Scanner.Sound.endsInLine {s : Scanner} (h : s.Sound) : s.EndsInLine :=
  fun sources matcher hcompile line pos m hm =>
    (h sources matcher hcompile line pos m hm).stop.le_size

theorem ScanPoint.advance_pos (p : ScanPoint) (stop : Nat) :
    (p.advance stop).pos = max p.pos stop := by
  unfold advance
  split
  next h => exact (Nat.max_eq_right h.le).symm
  next h => exact (Nat.max_eq_left (Nat.le_of_not_lt h)).symm

theorem Frames.depth_push (fs : Frames) (f : Frame) : (fs.push f).depth = fs.depth + 1 := rfl

namespace Grammar

/-- The rules that can still be entered at a position without consuming anything. -/
def fresh (g : Grammar) (fs : Frames) (pos : Nat) : Finset RuleId :=
  {id ∈ Finset.range g.ruleCount | id ∉ fs.enteredAt pos}

/-- How much there is left to do on a line.  A position that is left behind outweighs all that can be
entered and left at the next one. -/
def remaining (g : Grammar) (line : Line) (fs : Frames) (pos : Nat) : Nat :=
  fs.depth + (line.size - pos) * (2 * g.ruleCount + 3) + 2 * (g.fresh fs pos).card

/-- The end that a scan comes to, match by match. -/
inductive Scans (g : Grammar) (line : Line) (again : Retokenize) :
    ScanState → Except GrammarError ScanState → Prop
  | done {s t : ScanState} : g.step line again s = .ok (.done t) → Scans g line again s (.ok t)
  | error {s : ScanState} {e : GrammarError} :
      g.step line again s = .error e → Scans g line again s (.error e)
  | more {s t : ScanState} {x : Except GrammarError ScanState} :
      g.step line again s = .ok (.more t) → Scans g line again t x → Scans g line again s x

variable {g : Grammar} {line : Line} {again again' : Retokenize} {fs fs' : Frames} {pos pos' : Nat}

theorem card_fresh_le : (g.fresh fs pos).card ≤ g.ruleCount := by
  have h := Finset.card_filter_le (Finset.range g.ruleCount) (· ∉ fs.enteredAt pos)
  rwa [Finset.card_range] at h

theorem card_fresh_of_enterPos_ne (h : fs.top.enterPos ≠ some pos) :
    (g.fresh fs pos).card = g.ruleCount := by
  have hnone : fs.enteredAt pos = [] := by simp [Frames.enteredAt, Frames.toList, h]
  simp [fresh, hnone]

theorem card_fresh_push {f : Frame} (hf : f.enterPos = some pos) (hid : f.rule < g.ruleCount)
    (hnew : f.rule ∉ fs.enteredAt pos) : (g.fresh (fs.push f) pos).card < (g.fresh fs pos).card := by
  have hentered : (fs.push f).enteredAt pos = f.rule :: fs.enteredAt pos := by
    simp [Frames.enteredAt, Frames.push, Frames.toList, hf]
  apply Finset.card_lt_card
  refine Finset.ssubset_iff_subset_ne.mpr ⟨?_, fun heq => ?_⟩
  · intro id h
    simp only [fresh, Finset.mem_filter, hentered, List.mem_cons, not_or] at h ⊢
    exact ⟨h.1, h.2.2⟩
  · have hmem : f.rule ∈ g.fresh fs pos := by simp [fresh, hid, hnew]
    rw [← heq] at hmem
    simp [fresh, hentered] at hmem

theorem remaining_lt_of_pos_lt (hdepth : fs'.depth ≤ fs.depth + 1) (hpos : pos < pos')
    (hsize : pos' ≤ line.size) : g.remaining line fs' pos' < g.remaining line fs pos := by
  have hfresh : (g.fresh fs' pos').card ≤ g.ruleCount := card_fresh_le
  obtain ⟨d, hd⟩ : ∃ d, line.size - pos = (line.size - pos') + 1 + d :=
    ⟨pos' - pos - 1, by omega⟩
  unfold remaining
  rw [hd, Nat.add_mul, Nat.add_mul]
  omega

theorem remaining_lt_scanLimit (s : ScanState) :
    g.remaining line s.frames s.point.pos < g.scanLimit line s.frames := by
  have hfresh : (g.fresh s.frames s.point.pos).card ≤ g.ruleCount := card_fresh_le
  have hle : (line.size - s.point.pos) * (2 * g.ruleCount + 3) ≤ line.size * (2 * g.ruleCount + 3) :=
    Nat.mul_le_mul_right _ (Nat.sub_le _ _)
  unfold remaining scanLimit
  rw [Nat.add_mul]
  omega

section

variable (hg : g.WellFormed) (hends : g.scanner.EndsInLine)

include hg hends

/-- Every match that leaves something to do leaves less. -/
theorem step_remaining {s t : ScanState} (h : g.step line again s = .ok (.more t)) :
    g.remaining line t.frames t.point.pos < g.remaining line s.frames s.point.pos := by
  have hstop {w : Winner} {m : ScanMatch}
      (hnext : g.nextMatch line s.frames.top s.point = .ok (some (w, m))) : m.stop ≤ line.size := by
    obtain ⟨patterns, matcher, hcompile, hfind⟩ := nextMatch_finds hg hnext
    exact hends _ matcher hcompile line _ m hfind
  cases step_outcome h with
  | @left _ m u f below hnext _ hbelow hkeep =>
    have hdepth : (Frames.mk f below).depth + 1 = s.frames.depth := by simp [Frames.depth, hbelow]
    simp only [ScanPoint.advance_pos]
    by_cases hadvance : s.point.pos < m.stop
    · rw [Nat.max_eq_right hadvance.le]
      exact remaining_lt_of_pos_lt (by omega) hadvance (hstop hnext)
    · -- the region began elsewhere, so nothing has been entered here yet
      rw [Nat.max_eq_left (by omega)]
      have hall := card_fresh_of_enterPos_ne (g := g) (hkeep (by omega))
      have hle : (g.fresh ⟨f, below⟩ s.point.pos).card ≤ g.ruleCount := card_fresh_le
      unfold remaining
      omega
  | @entered id rule region m u hnext hrule hregion _ hnew =>
    simp only [ScanPoint.advance_pos]
    by_cases hadvance : s.point.pos < m.stop
    · rw [Nat.max_eq_right hadvance.le]
      exact remaining_lt_of_pos_lt (by rw [Frames.depth_push]) hadvance (hstop hnext)
    · -- the rule becomes active here, and is one less that can be entered without moving on
      rw [Nat.max_eq_left (by omega)]
      have hid : id < g.ruleCount := (Array.getElem?_eq_some_iff.mp hrule).1
      let f := enteredFrame line region m (startedFrame line id rule m s)
      have hlt : (g.fresh (s.frames.push f) _).card < _ := card_fresh_push rfl hid (hnew (by omega))
      change (g.remaining line (s.frames.push f) _) < _
      unfold remaining
      rw [Frames.depth_push]
      omega
  | single hnext _ _ hadvance =>
    simp only [ScanPoint.advance_pos]
    rw [Nat.max_eq_right hadvance.le]
    exact remaining_lt_of_pos_lt (by omega) hadvance (hstop hnext)

theorem exists_scans (s : ScanState) : ∃ x, g.Scans line again s x := by
  induction hr : g.remaining line s.frames s.point.pos using Nat.strong_induction_on
    generalizing s with
  | _ r ih =>
    cases h : g.step line again s with
    | error e => exact ⟨_, .error h⟩
    | ok p =>
      cases p with
      | done t => exact ⟨_, .done h⟩
      | more t =>
        have hlt := step_remaining hg hends h
        obtain ⟨x, hx⟩ := ih _ (hr ▸ hlt) t rfl
        exact ⟨x, .more h hx⟩

theorem Scans.scan_eq {s : ScanState} {x : Except GrammarError ScanState} (h : g.Scans line again s x)
    {n : Nat} (hn : g.remaining line s.frames s.point.pos < n) : g.scan line again n s = x := by
  induction h generalizing n with
  | @done s t h =>
    obtain ⟨n, rfl⟩ := Nat.exists_eq_add_one.mpr (Nat.zero_lt_of_lt hn)
    simp only [scan, h]
    rfl
  | @error s e h =>
    obtain ⟨n, rfl⟩ := Nat.exists_eq_add_one.mpr (Nat.zero_lt_of_lt hn)
    simp only [scan, h]
    rfl
  | @more s t x h _ ih =>
    obtain ⟨n, rfl⟩ := Nat.exists_eq_add_one.mpr (Nat.zero_lt_of_lt hn)
    have hlt := step_remaining hg hends h
    simp only [scan, h]
    exact ih (by omega)

theorem Scans.scanAll_eq {s : ScanState} {x : Except GrammarError ScanState}
    (h : g.Scans line again s x) : g.scanAll line again s = x :=
  h.scan_eq hg hends (remaining_lt_scanLimit s)

theorem scans_scanAll (s : ScanState) : g.Scans line again s (g.scanAll line again s) := by
  obtain ⟨x, hx⟩ : ∃ x, g.Scans line again s x := exists_scans hg hends s
  exact hx.scanAll_eq hg hends ▸ hx

end

theorem Scans.of_follows {s t : ScanState} {x : Except GrammarError ScanState}
    (hfollows : Relation.ReflTransGen (g.Follows line again) s t) (h : g.Scans line again t x) :
    g.Scans line again s x := by
  induction hfollows using Relation.ReflTransGen.head_induction_on with
  | refl => exact h
  | head hstep _ ih => exact .more hstep ih

theorem Scans.agree {I : ScanState → Prop}
    (hagree : ∀ s, I s → Agree (g.step line again s) (g.step line again' s))
    (hmore : ∀ s t, I s → g.step line again s = .ok (.more t) → I t) {s : ScanState}
    {x : Except GrammarError ScanState} (hs : I s) (h : g.Scans line again s x) :
    g.Scans line again' s x ∧ x ≠ .error .endless := by
  induction h with
  | @done s t h => exact ⟨.done ((hagree s hs).1 ▸ h), nofun⟩
  | @error s e h =>
    obtain ⟨heq, hne⟩ := hagree s hs
    exact ⟨.error (heq ▸ h), fun he => hne (by cases he; exact h)⟩
  | @more s t x h _ ih =>
    obtain ⟨hx, hne⟩ := ih (hmore s t hs h)
    exact ⟨.more ((hagree s hs).1 ▸ h) hx, hne⟩

theorem scanAll_agree (hg : g.WellFormed) (hends : g.scanner.EndsInLine) {I : ScanState → Prop}
    (hagree : ∀ s, I s → Agree (g.step line again s) (g.step line again' s))
    (hmore : ∀ s t, I s → g.step line again s = .ok (.more t) → I t) {s : ScanState} (hs : I s) :
    Agree (g.scanAll line again s) (g.scanAll line again' s) := by
  have hscans : g.Scans line again s (g.scanAll line again s) := scans_scanAll hg hends s
  obtain ⟨hscans', hne⟩ := hscans.agree hagree hmore hs
  exact ⟨(hscans'.scanAll_eq hg hends).symm, hne⟩

/-- Scanning a line always makes progress, whatever consumes nothing: every match that leaves something
to do leaves less of it, there is no endless run of matches, and the end that a scan comes to does
not depend on how many matches are allowed. -/
theorem scan_progress {scope : String} {grammars : GrammarSet} {scanner : Scanner}
    (hcompile : compile scope grammars scanner = .ok g) (hends : scanner.EndsInLine) (line : Line)
    (again : Retokenize) :
    (∀ s t, g.step line again s = .ok (.more t) →
      g.remaining line t.frames t.point.pos < g.remaining line s.frames s.point.pos) ∧
    (¬ ∃ run : Nat → ScanState, ∀ i, g.step line again (run i) = .ok (.more (run (i + 1)))) ∧
    (∀ s, g.Scans line again s (g.scanAll line again s) ∧
      ∀ n, g.remaining line s.frames s.point.pos < n →
        g.scan line again n s = g.scanAll line again s) ∧
    ((∀ l fs start b, again l fs start b ≠ .error .endless) →
      ∀ s, g.scanAll line again s ≠ .error .endless) := by
  have hg := compile_wellFormed hcompile
  have hends : g.scanner.EndsInLine := compile_scanner hcompile ▸ hends
  refine ⟨fun s t => step_remaining hg hends, ?_, ?_, ?_⟩
  · rintro ⟨run, hrun⟩
    let left (i : Nat) : Nat := g.remaining line (run i).frames (run i).point.pos
    have hlt (i : Nat) : left (i + 1) < left i := step_remaining hg hends (hrun i)
    exact not_strictAnti_of_wellFoundedLT left (strictAnti_nat_of_succ_lt hlt)
  · intro s
    have hscans : g.Scans line again s (g.scanAll line again s) := scans_scanAll hg hends s
    exact ⟨hscans, fun n hn => hscans.scan_eq hg hends hn⟩
  · intro hagain s
    have hagree (s : ScanState) : Agree (g.step line again s) (g.step line again s) :=
      step_agree fun _ _ _ _ _ _ => ⟨rfl, hagain _ _ _ _⟩
    exact (scanAll_agree hg hends (fun s _ => hagree s) (fun _ _ _ _ => trivial) trivial).2

def mutualGrammar : GrammarDescription where
  scopeName := "s"
  patterns := [{ reference := some "#a" }]
  repository := [
    ("a", {
      beginPattern := some "(?=x)"
      endPattern := some "(?!x)"
      patterns := some [{ reference := some "#b" }] }),
    ("b", {
      beginPattern := some "(?=x)"
      endPattern := some "(?!x)"
      patterns := some [{ reference := some "#a" }] })]

theorem scan_progress_mutual :
    let line := Line.ofText "x"
    let again : Retokenize := fun _ _ _ _ => .ok []
    let point : ScanPoint := ⟨0, true, none⟩
    let s : ScanState := ⟨⟨.root 0 "s", []⟩, point, .startingAt 0⟩
    let a : Frame := ⟨1, some 0, none, false, none, ["s"], ["s"]⟩
    let t : ScanState := ⟨s.frames.push a, { point with anchor := some 0 }, .startingAt 0⟩
    ∃ g, compile "s" [("s", mutualGrammar)] .standard = .ok g ∧
      g.step line again s = .ok (.more t) ∧ t.point.pos = s.point.pos ∧
      g.remaining line t.frames t.point.pos < g.remaining line s.frames s.point.pos ∧
      g.scan line again 1000 s = g.scanAll line again s ∧
      g.scanAll line again s ≠ .error .endless := by
  intro line again point s a t
  have hrun : ∃ g, compile "s" [("s", mutualGrammar)] .standard = .ok g ∧
      (g.step line again s).toOption = some (.more t) ∧
      g.remaining line s.frames s.point.pos < 1000 :=
    ⟨_, rfl, by decide +kernel, by decide +kernel⟩
  obtain ⟨g, hg, hstep, hremaining⟩ := hrun
  have hstep := ok_of_toOption hstep
  obtain ⟨hless, -, hscan, hends⟩ :=
    scan_progress hg Scanner.standard_sound.endsInLine line again
  exact ⟨g, hg, hstep, rfl, hless s t hstep, (hscan s).2 1000 hremaining,
    hends (fun _ _ _ _ => nofun) s⟩

end Grammar

end GrammarScopes
