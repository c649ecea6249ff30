import GrammarScopes.Proofs.Dictionary
import GrammarScopes.Proofs.Json.Scalars

/-!
Reading what was written: a reader that takes a value off the front of every text of a JSON value.
-/

namespace GrammarScopes

open Json Json.Read

variable {α σ : Type} {isFirst : Bool} {bs text tail cs rest : List Char} {j : JsonValue} {js : List JsonValue}
  {ms : List (String × JsonValue)} {n depth : Nat}

theorem JsonValue.Laid.exists_cons (h : j.Laid text) : ∃ c cs, text = c :: cs ∧ isBlank c = false ∧
    c ∉ [',', ']', '\x7d'] ∧ (c = 'n' → j = .null) := by
  cases h with
  | null => exact ⟨_, _, rfl, rfl, by decide, fun _ => rfl⟩
  | bool b => cases b <;> exact ⟨_, _, rfl, rfl, by decide, fun h => absurd h (by decide)⟩
  | number n =>
    have hall : ∀ c : Char, c.isDigit → isBlank c = false ∧ c ∉ [',', ']', '\x7d'] ∧ c ≠ 'n' :=
      Text.forall_isDigit (by decide)
    rw [Text.toList_toString]
    split
    · obtain ⟨c, cs, hdigits, -⟩ := Text.exists_toDigits n.toNat
      have hc : c.isDigit := Text.isDigit_toDigits (hdigits ▸ List.mem_cons_self)
      obtain ⟨hblank, hmark, hne⟩ := hall c hc
      exact ⟨c, cs, hdigits, hblank, hmark, fun h => absurd h hne⟩
    · exact ⟨_, _, rfl, rfl, by decide, fun h => absurd h (by decide)⟩
  | _ => exact ⟨_, _, rfl, rfl, by decide, fun h => absurd h (by decide)⟩

namespace Json

theorem ends_blanks (hbs : Blanks bs) {c : Char} (hc : c ∈ [',', ']', '\x7d']) : Ends (bs ++ c :: rest) := by
  have hmark : [',', ']', '\x7d'] ⊆ [' ', '\n', '\t', '\r', ',', ']', '\x7d'] := by simp
  intro c' hc'
  cases bs with
  | nil =>
    cases hc'
    exact hmark hc
  | cons b bs =>
    cases hc'
    have hb := hbs c' List.mem_cons_self
    simp only [isBlank, Bool.or_eq_true, beq_iff_eq] at hb
    rcases hb with ((h | h) | h) | h <;> rw [h] <;> decide

theorem MembersTail.ends {L : JsonValue → List Char → Prop} (h : MembersTail L false ms tail)
    (rest : List Char) : Ends (tail ++ rest) := by
  cases h with
  | close hbs =>
    rw [List.append_assoc]
    exact ends_blanks hbs (by decide)
  | member hbs => exact ends_blanks blanks_nil (by decide)

theorem ItemsTail.ends {L : JsonValue → List Char → Prop} (h : ItemsTail L false js tail)
    (rest : List Char) : Ends (tail ++ rest) := by
  cases h with
  | close hbs =>
    rw [List.append_assoc]
    exact ends_blanks hbs (by decide)
  | item hbs => exact ends_blanks blanks_nil (by decide)

namespace Read

/-- Whatever text the value has, `a` is read from it. -/
def ReadsAs (read : Read α) (j : JsonValue) (a : α) : Prop :=
  ∀ bs text rest, Blanks bs → j.Laid text → Ends rest →
    read.run (bs ++ (text ++ rest)) = .ok (a, rest)

theorem ReadsAs.map {β : Type} {read : Read α} {f : α → β} {a : α} (h : ReadsAs read j a) :
    ReadsAs (do return f (← read)) j (f a) := by
  intro bs text rest hbs htext hrest
  rw [run_bind_of_ok (h bs text rest hbs htext hrest)]
  rfl

/-! ### Strings, and what may be null -/

theorem readsAs_string (s : String) : ReadsAs readString (.string s) s := by
  intro bs text rest hbs htext hrest
  cases htext with
  | string =>
    unfold readString JsonValue.stringText
    rw [List.cons_append, List.cons_append, List.append_assoc, run_bind_of_ok (run_peekOr hbs rfl)]
    exact run_string s

theorem ReadsAs.optional {read : Read α} {a : α} (h : ReadsAs read j a) (hj : j ≠ .null) :
    ReadsAs (readOptional read) j (some a) := by
  intro bs text rest hbs htext hrest
  obtain ⟨c, cs, rfl, hblank, -, hnull⟩ := htext.exists_cons
  have hc : c ≠ 'n' := fun h => hj (hnull h)
  have hread := h [] _ rest blanks_nil htext hrest
  unfold readOptional
  rw [List.cons_append, run_bind_of_ok (run_peek hbs hblank), if_neg (by simpa using hc)]
  rw [List.nil_append, List.cons_append] at hread
  rw [run_bind_of_ok hread]
  rfl

/-! ### Booleans and integers -/

theorem readsAs_bool (b : Bool) : ReadsAs (readScalar (depth + 1)) (.bool b) (.bool b) := by
  intro bs text rest hbs htext hrest
  cases htext with
  | bool =>
    cases b with
    | false =>
      change StateT.run (readScalar (depth + 1)) (bs ++ 'f' :: (['a', 'l', 's', 'e'] ++ rest)) = _
      rw [readScalar, run_bind_of_ok (run_peekOr hbs rfl)]
      change StateT.run (discard next >>= fun _ => word _ >>= _) _ = _
      rw [run_bind_of_ok run_discard_next, run_bind_of_ok (run_word _)]
      rfl
    | true =>
      change StateT.run (readScalar (depth + 1)) (bs ++ 't' :: (['r', 'u', 'e'] ++ rest)) = _
      rw [readScalar, run_bind_of_ok (run_peekOr hbs rfl)]
      change StateT.run (discard next >>= fun _ => word _ >>= _) _ = _
      rw [run_bind_of_ok run_discard_next, run_bind_of_ok (run_word _)]
      rfl

theorem readsAs_integer {i : Int} (hlow : -Nat.pow 2 63 ≤ i) (hhigh : i < Nat.pow 2 63) :
    ReadsAs (readScalar (depth + 1)) (.number i) (.integer i) := by
  intro bs text rest hbs htext hrest
  have hword : Nat.pow 2 63 ≤ largestWord := by decide
  cases htext with
  | number =>
    rw [Text.toList_toString]
    split
    next hpos =>
      obtain ⟨c, cs, hdigits, -⟩ := Text.exists_toDigits i.toNat
      have hc : c.isDigit := Text.isDigit_toDigits (hdigits ▸ List.mem_cons_self)
      have hblank : ∀ c : Char, c.isDigit → isBlank c = false := Text.forall_isDigit (by decide)
      have hrun : (number false).run (c :: (cs ++ rest)) = .ok (.integer i, rest) := by
        have hnumber := run_number (n := i.toNat) (by omega) (nofun : false → _) hrest
        rw [hdigits, if_neg Bool.false_ne_true, Int.toNat_of_nonneg hpos] at hnumber
        exact hnumber
      rw [hdigits, List.cons_append, readScalar, run_bind_of_ok (run_peekOr hbs (hblank c hc))]
      split
      case h_8 =>
        rw [if_pos hc, run_bind_of_ok hrun]
        rfl
      all_goals exact absurd hc (by decide)
    next hneg =>
      have hnumber := run_number (n := (-i).toNat) (by omega) (fun _ : true => ⟨by omega, by omega⟩) hrest
      rw [if_pos rfl, Int.toNat_of_nonneg (by omega), Int.neg_neg] at hnumber
      rw [List.cons_append, readScalar, run_bind_of_ok (run_peekOr hbs rfl)]
      change StateT.run (discard next >>= fun _ => number true >>= _) _ = _
      rw [run_bind_of_ok run_discard_next, run_bind_of_ok hnumber]
      rfl

/-! ### Lists -/

theorem run_peek_comma : peek.run (',' :: cs) = .ok (some ',', ',' :: cs) := rfl

theorem run_hasItem_close (hbs : Blanks bs) :
    (hasItem isFirst).run (bs ++ [']'] ++ rest) = .ok (false, ']' :: rest) := by
  unfold hasItem
  rw [List.append_assoc, List.singleton_append, run_bind_of_ok (run_peek hbs rfl)]
  rfl

theorem run_hasItem_item (hbs : Blanks bs) (htext : j.Laid text) :
    (hasItem isFirst).run (lead isFirst ++ (bs ++ (text ++ tail)) ++ rest) =
      .ok (true, text ++ (tail ++ rest)) := by
  obtain ⟨c, cs, rfl, hblank, hmark, -⟩ := htext.exists_cons
  have hc : c ≠ ']' := fun h => hmark (h ▸ by simp)
  have hpeek : peek.run (bs ++ c :: (cs ++ (tail ++ rest))) = .ok (some c, c :: (cs ++ (tail ++ rest))) :=
    run_peek hbs hblank
  unfold hasItem
  cases isFirst with
  | true =>
    simp only [lead, if_true, List.nil_append, List.append_assoc, List.cons_append]
    rw [run_bind_of_ok hpeek]
    split
    next h => cases h
    next h => exact absurd (Option.some.inj h) hc
    next => rfl
  | false =>
    simp only [lead, Bool.false_eq_true, if_false, List.append_assoc, List.cons_append, List.nil_append]
    rw [run_bind_of_ok run_peek_comma]
    change StateT.run (discard next >>= fun _ => peek >>= _) _ = _
    rw [run_bind_of_ok run_discard_next, run_bind_of_ok hpeek]
    split
    next h => cases h
    next h => exact absurd (Option.some.inj h) hc
    next => rfl

theorem run_foldItems {read : Read α} {write : α → JsonValue} {as : List α}
    (htail : ItemsTail JsonValue.Laid isFirst (as.map write) tail) (h : ∀ a ∈ as, ReadsAs read (write a) a)
    (hn : as.length < n) (acc : List α) :
    (foldItems (fun items => return (← read) :: items) n isFirst acc).run (tail ++ rest) =
      .ok (as.reverse ++ acc, ']' :: rest) := by
  induction as generalizing isFirst tail n acc with
  | nil =>
    obtain ⟨n, rfl⟩ := Nat.exists_eq_succ_of_ne_zero (Nat.ne_of_gt hn)
    cases htail with
    | close hbs =>
      unfold foldItems
      rw [run_bind_of_ok (run_hasItem_close hbs)]
      rfl
  | cons a as ih =>
    obtain ⟨n, rfl⟩ := Nat.exists_eq_succ_of_ne_zero (Nat.ne_of_gt (Nat.zero_lt_of_lt hn))
    obtain ⟨ha, has⟩ := List.forall_mem_cons.mp h
    cases htail with
    | item hbs htext htail =>
      have hread := ha [] _ _ blanks_nil htext (htail.ends rest)
      have hrest := ih htail has (Nat.lt_of_succ_lt_succ hn) (a :: acc)
      unfold foldItems
      rw [run_bind_of_ok (run_hasItem_item hbs htext), if_pos rfl]
      simp only [bind_assoc, pure_bind]
      rw [List.nil_append] at hread
      rw [run_bind_of_ok hread, hrest, List.reverse_cons, List.append_assoc, List.singleton_append]

theorem length_lt_of_itemsTail (h : ItemsTail JsonValue.Laid isFirst js tail) :
    js.length < tail.length := by
  induction js generalizing isFirst tail with
  | nil =>
    cases h with
    | close => simp
  | cons j js ih =>
    cases h with
    | item hbs htext htail =>
      obtain ⟨c, cs, rfl, -⟩ := htext.exists_cons
      have hlt := ih htail
      simp only [List.length_append, List.length_cons]
      omega

theorem run_enter {c : Char} (h : 2 ≤ depth) : (enter depth).run (c :: cs) = .ok ((), cs) := by
  unfold enter
  rw [if_neg (Nat.not_lt.mpr h)]
  rfl

theorem readsAs_sequence {read : Read α} {write : α → JsonValue} {as : List α} (hdepth : 2 ≤ depth)
    (h : ∀ a ∈ as, ReadsAs read (write a) a) :
    ReadsAs (readSequence depth read) (.list (as.map write)) as := by
  intro bs text rest hbs htext hrest
  cases htext with
  | list htail =>
    rename_i tail
    have hlength := length_lt_of_itemsTail htail
    have hfuel : as.length < (tail ++ rest).length + 1 := by
      rw [List.length_map] at hlength
      rw [List.length_append]
      omega
    unfold readSequence readList
    rw [List.cons_append, run_bind_of_ok (run_peekOr hbs rfl), if_pos (beq_self_eq_true _)]
    simp only [bind_assoc]
    rw [run_bind_of_ok (run_enter hdepth), run_bind_of_ok run_get,
      run_bind_of_ok (run_foldItems htail h hfuel [])]
    change Except.ok ((as.reverse ++ []).reverse, rest) = _
    rw [List.append_nil, List.reverse_reverse]

/-! ### Objects -/

theorem run_hasMember_close (hbs : Blanks bs) :
    (hasMember isFirst).run (bs ++ ['\x7d'] ++ rest) = .ok (false, '\x7d' :: rest) := by
  unfold hasMember
  rw [List.append_assoc, List.singleton_append, run_bind_of_ok (run_peek hbs rfl)]
  rfl

theorem run_hasMember_member (hbs : Blanks bs) :
    (hasMember isFirst).run (lead isFirst ++ (bs ++ '"' :: cs)) = .ok (true, '"' :: cs) := by
  have hpeek : peek.run (bs ++ '"' :: cs) = .ok (some '"', '"' :: cs) := run_peek hbs rfl
  unfold hasMember
  cases isFirst with
  | true =>
    rw [lead, if_pos rfl, List.nil_append, run_bind_of_ok hpeek]
    rfl
  | false =>
    simp only [lead, Bool.false_eq_true, if_false, List.cons_append, List.nil_append]
    rw [run_bind_of_ok run_peek_comma]
    change StateT.run (discard next >>= fun _ => peek >>= _) _ = _
    rw [run_bind_of_ok run_discard_next, run_bind_of_ok hpeek]
    rfl

def ReadsMember (x : Read α) (j : JsonValue) (a : α) : Prop :=
  ∀ bs text rest, Blanks bs → j.Laid text → Ends rest → x.run (':' :: (bs ++ (text ++ rest))) = .ok (a, rest)

inductive Members (step : σ → String → Read σ) : σ → List (String × JsonValue) → σ → Prop
  | nil (s : σ) : Members step s [] s
  | cons {s s' s'' : σ} {key : String} {j : JsonValue} {ms : List (String × JsonValue)}
    (h : ReadsMember (step s key) j s') (hms : Members step s' ms s'') : Members step s ((key, j) :: ms) s''

theorem run_foldMembers {step : σ → String → Read σ} {s s' : σ} (h : Members step s ms s')
    (htail : MembersTail JsonValue.Laid isFirst ms tail) (hn : ms.length < n) :
    (foldMembers step n isFirst s).run (tail ++ rest) = .ok (s', rest) := by
  induction h generalizing isFirst tail n with
  | nil s =>
    obtain ⟨n, rfl⟩ := Nat.exists_eq_succ_of_ne_zero (Nat.ne_of_gt hn)
    cases htail with
    | close hbs =>
      unfold foldMembers
      rw [run_bind_of_ok (run_hasMember_close hbs)]
      rfl
  | cons h hms ih =>
    obtain ⟨n, rfl⟩ := Nat.exists_eq_succ_of_ne_zero (Nat.ne_of_gt (Nat.zero_lt_of_lt hn))
    cases htail with
    | member hbs hbs' htext htail =>
      have hread := h _ _ _ hbs' htext (htail.ends rest)
      have hrest := ih htail (Nat.lt_of_succ_lt_succ hn)
      unfold foldMembers JsonValue.stringText
      simp only [List.append_assoc, List.cons_append, List.nil_append]
      rw [run_bind_of_ok (run_hasMember_member hbs), if_pos rfl, run_bind_of_ok run_discard_next,
        run_bind_of_ok (run_string _), run_bind_of_ok hread, hrest]

theorem length_lt_of_membersTail (h : MembersTail JsonValue.Laid isFirst ms tail) :
    ms.length < tail.length := by
  induction ms generalizing isFirst tail with
  | nil =>
    cases h with
    | close => simp
  | cons m ms ih =>
    cases h with
    | member hbs hbs' htext htail =>
      have hlt := ih htail
      simp only [JsonValue.stringText, List.length_append, List.length_cons]
      omega

theorem run_readObject {step : σ → String → Read σ} {s s' : σ} (hdepth : 2 ≤ depth) (h : Members step s ms s')
    (htail : MembersTail JsonValue.Laid true ms tail) :
    (readObject depth step s).run ('\x7b' :: (tail ++ rest)) = .ok (s', rest) := by
  have hlength := length_lt_of_membersTail htail
  have hfuel : ms.length < (tail ++ rest).length + 1 := by
    rw [List.length_append]
    omega
  unfold readObject
  rw [run_bind_of_ok (run_enter hdepth), run_bind_of_ok run_get, run_foldMembers h htail hfuel]

theorem readsMember_bind {β : Type} {read : Read α} {f : α → β} {a : α} (h : ReadsAs read j a) :
    ReadsMember (do colon; return f (← read)) j (f a) := by
  intro bs text rest hbs htext hrest
  have hcolon : colon.run (':' :: (bs ++ (text ++ rest))) = .ok ((), bs ++ (text ++ rest)) := rfl
  rw [run_bind_of_ok hcolon, run_bind_of_ok (h bs text rest hbs htext hrest)]
  rfl

theorem members_insert {read : Read α} {write : α → JsonValue} {es : List (String × α)} (acc : List (String × α))
    (hsorted : Dictionary.Sorted (acc ++ es)) (h : ∀ e ∈ es, ReadsAs read (write e.2) e.2) :
    Members (fun entries key => do
      colon
      return Dictionary.insert key (← read) entries) acc (es.map fun e => (e.1, write e.2)) (acc ++ es) := by
  induction es generalizing acc with
  | nil =>
    rw [List.append_nil]
    exact .nil acc
  | cons e es ih =>
    obtain ⟨he, hes⟩ := List.forall_mem_cons.mp h
    have hinsert : Dictionary.insert e.1 e.2 acc = acc ++ [e] :=
      Dictionary.insert_of_forall_lt fun e' he' =>
        (List.pairwise_append.mp hsorted).2.2 e' he' e List.mem_cons_self
    have hrest := ih (acc ++ [e]) (by simpa using hsorted) hes
    rw [List.append_assoc, List.singleton_append, ← hinsert] at hrest
    exact .cons (readsMember_bind (f := fun v => Dictionary.insert e.1 v acc) he) hrest

theorem readsAs_dictionary {read : Read α} {write : α → JsonValue} {es : List (String × α)}
    (hdepth : 2 ≤ depth) (hsorted : Dictionary.Sorted es) (h : ∀ e ∈ es, ReadsAs read (write e.2) e.2) :
    ReadsAs (readDictionary depth read) (.object (es.map fun e => (e.1, write e.2))) es := by
  intro bs text rest hbs htext hrest
  cases htext with
  | object htail =>
    unfold readDictionary
    rw [List.cons_append, run_bind_of_ok (run_peekOr hbs rfl), if_pos (beq_self_eq_true _)]
    exact run_readObject hdepth (members_insert [] hsorted h) htail

/-! ### Records -/

/-- What is written for the members of a record, in their order, and the record that is read from it:
`Fills members s js s'` leads from `s` to `s'`. -/
inductive Fills : List (Member σ) → σ → List (String × JsonValue) → σ → Prop
  | done (s : σ) : Fills [] s [] s
  | absent {m : Member σ} {ms : List (Member σ)} {s s' : σ} {js : List (String × JsonValue)}
    (hm : m.isRequired = false) (h : Fills ms s js s') : Fills (m :: ms) s js s'
  | present {m : Member σ} {ms : List (Member σ)} {s s' s'' : σ} {j : JsonValue} {js : List (String × JsonValue)}
    (hread : ReadsAs (m.read s) j s') (h : Fills ms s' js s'') : Fills (m :: ms) s ((m.key, j) :: js) s''

theorem find?_key {members : List (Member σ)} {m : Member σ} (hkeys : (members.map Member.key).Nodup)
    (hm : m ∈ members) : members.find? (·.key == m.key) = some m := by
  obtain ⟨m', hfind⟩ : ∃ m', members.find? (·.key == m.key) = some m' := by
    rw [← Option.isSome_iff_exists, List.find?_isSome]
    exact ⟨m, hm, beq_self_eq_true _⟩
  have hkey : m'.key = m.key := by simpa using List.find?_some hfind
  rw [hfind, List.inj_on_of_nodup_map hkeys (List.mem_of_find?_eq_some hfind) hm hkey]

theorem members_of_fills {all members : List (Member σ)} {s s' : σ} (hall : (all.map Member.key).Nodup)
    (h : Fills members s ms s') (hmembers : members.Sublist all) (seen : List String)
    (hseen : ∀ m ∈ members, m.key ∉ seen) :
    ∃ seen', Members (readMember all) (seen, s) ms (seen', s') ∧ seen ⊆ seen' ∧
      ∀ m ∈ members, m.isRequired → m.key ∈ seen' := by
  -- none of the keys of `members` has been seen, and those of the members that are written become seen
  induction h generalizing seen with
  | done s => exact ⟨seen, .nil _, List.Subset.refl _, nofun⟩
  | absent hm h ih =>
    obtain ⟨seen', hsteps, hsub, hrequired⟩ := ih ((List.sublist_cons_self _ _).trans hmembers) seen
      (fun m hm => hseen m (List.mem_cons_of_mem _ hm))
    refine ⟨seen', hsteps, hsub, List.forall_mem_cons.mpr ⟨fun h => ?_, hrequired⟩⟩
    rw [hm] at h
    cases h
  | present hread h ih =>
    rename_i m members s s₁ s₂ j js
    have hfind := find?_key hall (hmembers.subset List.mem_cons_self)
    have hnodup := (hmembers.map Member.key).nodup hall
    obtain ⟨hnot, -⟩ := List.nodup_cons.mp hnodup
    have hseen' : ∀ m' ∈ members, m'.key ∉ m.key :: seen := by
      intro m' hm' hmem
      rcases List.mem_cons.mp hmem with heq | hmem
      · exact hnot (List.mem_map.mpr ⟨m', hm', heq⟩)
      · exact hseen m' (List.mem_cons_of_mem _ hm') hmem
    obtain ⟨seen', hsteps, hsub, hrequired⟩ := ih ((List.sublist_cons_self _ _).trans hmembers) _ hseen'
    obtain ⟨hkey, hsub⟩ := List.cons_subset.mp hsub
    refine ⟨seen', .cons ?_ hsteps, hsub, List.forall_mem_cons.mpr ⟨fun _ => hkey, hrequired⟩⟩
    have hcontains : seen.contains m.key = false := by
      simpa using hseen m List.mem_cons_self
    unfold readMember
    simp only [hfind, hcontains, Bool.false_eq_true, if_false]
    exact readsMember_bind (f := fun s => (m.key :: seen, s)) hread

theorem readsAs_record {members : List (Member σ)} {name : String} {blank s : σ} (hdepth : 2 ≤ depth)
    (hkeys : (members.map Member.key).Nodup) (h : Fills members blank ms s) :
    ReadsAs (readRecord name depth members blank) (.object ms) s := by
  intro bs text rest hbs htext hrest
  obtain ⟨seen, hsteps, -, hrequired⟩ := members_of_fills hkeys h (List.Sublist.refl _) [] (fun _ _ => nofun)
  have hnone : members.find? (fun m => m.isRequired && !seen.contains m.key) = none := by
    refine List.find?_eq_none.mpr fun m hm => ?_
    cases hrequires : m.isRequired with
    | false => simp
    | true => simpa using hrequired m hm hrequires
  cases htext with
  | object htail =>
    unfold readRecord
    rw [List.cons_append, run_bind_of_ok (run_peekOr hbs rfl)]
    change StateT.run (readObject depth (readMember members) ([], blank) >>= _) _ = _
    rw [run_bind_of_ok (run_readObject hdepth hsteps htail)]
    dsimp only
    rw [hnone]
    rfl

end Read

end Json

end GrammarScopes
