import GrammarScopes.Json.Reader
import GrammarScopes.Proofs.Dictionary
import GrammarScopes.Proofs.Except

/-!
What a reader can give, whatever text it reads.
-/

namespace GrammarScopes.Json.Read

variable {α β σ : Type} {P : α → Prop}

def Yields (read : Read α) (P : α → Prop) : Prop :=
  ∀ cs a rest, read.run cs = .ok (a, rest) → P a

theorem Yields.pure {a : α} (h : P a) : Yields (Pure.pure a) P := by
  intro cs a' rest hrun
  cases hrun
  exact h

theorem Yields.throw {e : JsonError} : Yields (MonadExcept.throw e) P := nofun

theorem Yields.imp {Q : α → Prop} {read : Read α} (h : Yields read P) (hPQ : ∀ a, P a → Q a) : Yields read Q :=
  fun cs a rest hrun => hPQ a (h cs a rest hrun)

theorem Yields.bind {Q : β → Prop} {x : Read α} {f : α → Read β} (hx : Yields x P)
    (hf : ∀ a, P a → Yields (f a) Q) : Yields (x >>= f) Q := by
  intro cs b rest hrun
  rw [StateT.run_bind] at hrun
  obtain ⟨⟨a, cs'⟩, ha, hb⟩ := bind_eq_ok.mp hrun
  exact hf a (hx cs a cs' ha) cs' b rest hb

theorem Yields.after {Q : β → Prop} {x : Read α} {f : α → Read β} (hf : ∀ a, Yields (f a) Q) :
    Yields (x >>= f) Q :=
  Yields.bind (P := fun _ => True) (fun _ _ _ _ => trivial) fun a _ => hf a

theorem Yields.ite {c : Prop} [Decidable c] {x y : Read α} (hx : c → Yields x P) (hy : ¬c → Yields y P) :
    Yields (if c then x else y) P := by
  split
  next h => exact hx h
  next h => exact hy h

theorem yields_refuse {expected : String} : Yields (refuse expected) P := by
  unfold refuse
  refine .after fun cs => ?_
  dsimp only
  split
  case h_1 | h_2 | h_3 => exact .after fun _ => .after fun _ => .throw
  case h_4 => exact .after fun _ => .after fun _ => .throw
  case h_5 => exact .after fun _ => .after fun _ => .throw
  case h_8 => exact .ite (fun _ => .after fun _ => .throw) fun _ => .throw
  all_goals exact .throw

theorem yields_optional {read : Read α} (h : Yields read P) :
    Yields (readOptional read) (fun v => ∀ a ∈ v, P a) := by
  unfold readOptional
  refine .after fun _ => .ite (fun _ => .after fun _ => .after fun _ => .pure nofun) fun _ => ?_
  exact h.bind fun a ha => .pure fun a' ha' => Option.some.inj ha' ▸ ha

theorem whole_eq_ok {read : Read α} {text : String} {a : α} :
    whole read text = .ok a ↔ ∃ rest, read.run text.toList = .ok (a, rest) ∧ rest.all isBlank := by
  unfold whole
  rw [bind_eq_ok]
  constructor
  · rintro ⟨⟨a', rest⟩, hrun, h⟩
    dsimp only at h
    split at h
    next hblank =>
      cases h
      exact ⟨rest, hrun, hblank⟩
    next => cases h
  · rintro ⟨rest, hrun, hblank⟩
    exact ⟨_, hrun, if_pos hblank⟩

/-! ### Lists and objects -/

variable {Q : σ → Prop} {s : σ} {depth : Nat}

theorem yields_foldItems {step : σ → Read σ} (hstep : ∀ s, Q s → Yields (step s) Q) {n : Nat} {isFirst : Bool}
    (hs : Q s) : Yields (foldItems step n isFirst s) Q := by
  induction n generalizing isFirst s with
  | zero => exact .pure hs
  | succ n ih =>
    unfold foldItems
    refine .after fun _ => .ite (fun _ => ?_) fun _ => .pure hs
    exact (hstep s hs).bind fun s' hs' => ih hs'

theorem yields_foldMembers {step : σ → String → Read σ} (hstep : ∀ s key, Q s → Yields (step s key) Q) {n : Nat}
    {isFirst : Bool} (hs : Q s) : Yields (foldMembers step n isFirst s) Q := by
  induction n generalizing isFirst s with
  | zero => exact .pure hs
  | succ n ih =>
    unfold foldMembers
    refine .after fun _ => .ite (fun _ => ?_) fun _ => .after fun _ => .pure hs
    exact .after fun _ => .after fun key => (hstep s key hs).bind fun s' hs' => ih hs'

theorem yields_enter : Yields (enter depth) (fun _ => 2 ≤ depth) := by
  unfold enter
  refine .ite (fun _ => .throw) fun h => ?_
  intro _ _ _ _
  exact Nat.not_lt.mp h

theorem yields_list {step : σ → Read σ} (hstep : ∀ s, Q s → Yields (step s) Q) (hs : Q s) :
    Yields (readList depth step s) (fun s => 2 ≤ depth ∧ Q s) := by
  unfold readList
  refine yields_enter.bind fun _ hdepth => .after fun _ => ?_
  exact (yields_foldItems hstep hs).bind fun s' hs' => .after fun _ => .pure ⟨hdepth, hs'⟩

theorem yields_object {step : σ → String → Read σ} (hstep : ∀ s key, Q s → Yields (step s key) Q) (hs : Q s) :
    Yields (readObject depth step s) (fun s => 2 ≤ depth ∧ Q s) := by
  unfold readObject
  refine yields_enter.bind fun _ hdepth => .after fun _ => ?_
  exact (yields_foldMembers hstep hs).imp fun s' hs' => ⟨hdepth, hs'⟩

theorem yields_sequence {read : Read α} (h : Yields read P) :
    Yields (readSequence depth read) (fun as => 2 ≤ depth ∧ ∀ a ∈ as, P a) := by
  unfold readSequence
  refine .after fun _ => .ite (fun _ => ?_) fun _ => yields_refuse
  have hlist : Yields (readList depth (fun items => return (← read) :: items) [])
      (fun as => 2 ≤ depth ∧ ∀ a ∈ as, P a) := by
    refine yields_list (fun as has => ?_) nofun
    exact h.bind fun a ha => .pure (List.forall_mem_cons.mpr ⟨ha, has⟩)
  exact hlist.bind fun as has => .pure ⟨has.1, fun a ha => has.2 a (List.mem_reverse.mp ha)⟩

theorem yields_dictionary {read : Read α} (h : Yields read P) :
    Yields (readDictionary depth read)
      (fun es => 2 ≤ depth ∧ Dictionary.Sorted es ∧ ∀ e ∈ es, P e.2) := by
  unfold readDictionary
  refine .after fun _ => .ite (fun _ => ?_) fun _ => yields_refuse
  refine yields_object (fun es key hes => ?_) ⟨List.Pairwise.nil, nofun⟩
  refine .after fun _ => h.bind fun a ha => .pure ⟨hes.1.insert, fun e he => ?_⟩
  rcases Dictionary.mem_insert he with rfl | he
  · exact ha
  · exact hes.2 e he

/-! ### Records -/

variable {members : List (Member σ)}

theorem yields_positions (h : ∀ m ∈ members, ∀ s, Q s → Yields (m.read s) Q) {expected : String} {index : Nat}
    (hs : Q s) : Yields (readPositions expected index members s) Q := by
  induction members generalizing index s with
  | nil => exact .pure hs
  | cons m ms ih =>
    obtain ⟨hm, hms⟩ := List.forall_mem_cons.mp h
    unfold readPositions
    refine .after fun _ => .ite (fun _ => ?_) fun _ => .ite (fun _ => .throw) fun _ => ih hms hs
    exact (hm s hs).bind fun s' hs' => ih hms hs'

theorem yields_member (h : ∀ m ∈ members, ∀ s, Q s → Yields (m.read s) Q) {seen : List String} {key : String}
    (hs : Q s) : Yields (readMember members (seen, s) key) (fun state => Q state.2) := by
  unfold readMember
  split
  next m hfind =>
    refine .ite (fun _ => .throw) fun _ => .after fun _ => ?_
    exact (h m (List.mem_of_find?_eq_some hfind) s hs).bind fun s' hs' => .pure hs'
  next => exact .after fun _ => .after fun _ => .pure hs

theorem yields_record (h : ∀ m ∈ members, ∀ s, Q s → Yields (m.read s) Q) {name : String} {blank : σ}
    (hblank : Q blank) : Yields (readRecord name depth members blank) (fun s => 2 ≤ depth ∧ Q s) := by
  unfold readRecord
  refine .after fun _ => ?_
  split
  next =>
    refine yields_enter.bind fun _ hdepth => ?_
    exact (yields_positions h hblank).bind fun s hs => .after fun _ => .pure ⟨hdepth, hs⟩
  next =>
    have hobject : Yields (readObject depth (readMember members) ([], blank))
        (fun state => 2 ≤ depth ∧ Q state.2) :=
      yields_object (fun _ _ hs => yields_member h hs) hblank
    refine hobject.bind fun state hstate => ?_
    dsimp only
    split
    next => exact .throw
    next => exact .pure hstate
  next => exact yields_refuse

end GrammarScopes.Json.Read
