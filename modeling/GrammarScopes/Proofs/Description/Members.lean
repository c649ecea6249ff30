import GrammarScopes.Description.Reader
import GrammarScopes.Proofs.Json.Yields

/-!
What can be read for rules and grammars, member by member.
-/

namespace GrammarScopes.Description

open Json Json.Read

variable {α σ : Type} {depth : Nat} {rule : Read RuleDescription} {T : RuleTable → Prop}
  {L : List RuleDescription → Prop} {S : Switch → Prop}

theorem yields_optional_member {Q : α → Prop} {P : σ → Prop} {key : String} {read : Read α}
    {put : σ → Option α → σ} {s : σ} (h : Yields read Q) (hput : ∀ v, (∀ a ∈ v, Q a) → P (put s v)) :
    Yields ((optional key read put).read s) P :=
  (yields_optional h).bind fun v hv => .pure (hput v hv)

structure PartsAre (T : RuleTable → Prop) (L : List RuleDescription → Prop) (S : Switch → Prop)
    (r : RuleDescription) : Prop where
  captures : ∀ es ∈ r.captures, T es
  beginCaptures : ∀ es ∈ r.beginCaptures, T es
  endCaptures : ∀ es ∈ r.endCaptures, T es
  whileCaptures : ∀ es ∈ r.whileCaptures, T es
  patterns : ∀ rs ∈ r.patterns, L rs
  repository : ∀ es ∈ r.repository, T es
  applyEndPatternLast : ∀ s ∈ r.applyEndPatternLast, S s

theorem partsAre_blank : PartsAre T L S {} := ⟨nofun, nofun, nofun, nofun, nofun, nofun, nofun⟩

theorem yields_ruleMembers (htable : Yields (readDictionary depth rule) T)
    (hlist : Yields (readSequence depth rule) L) (hswitch : Yields (readSwitch depth) S) :
    ∀ m ∈ ruleMembers depth rule, ∀ r, PartsAre T L S r → Yields (m.read r) (PartsAre T L S) := by
  have hany : Yields readString fun _ => True := fun _ _ _ _ => trivial
  simp only [ruleMembers, List.forall_mem_cons]
  refine ⟨?_, ?_, ?_, ?_, ?_, ?_, ?_, ?_, ?_, ?_, ?_, ?_, ?_, ?_, nofun⟩
  all_goals intro r hr
  case refine_5 => exact yields_optional_member htable fun v hv => { hr with captures := hv }
  case refine_7 => exact yields_optional_member htable fun v hv => { hr with beginCaptures := hv }
  case refine_9 => exact yields_optional_member htable fun v hv => { hr with endCaptures := hv }
  case refine_11 => exact yields_optional_member htable fun v hv => { hr with whileCaptures := hv }
  case refine_12 => exact yields_optional_member hlist fun v hv => { hr with patterns := hv }
  case refine_13 => exact yields_optional_member htable fun v hv => { hr with repository := hv }
  case refine_14 =>
    exact yields_optional_member hswitch fun v hv => { hr with applyEndPatternLast := hv }
  all_goals exact yields_optional_member hany fun v _ => { hr with }

/-- Rules are read two levels of the text at a time, and none at the last two. -/
theorem yields_readRule_of {P : Nat → RuleDescription → Prop}
    (h : ∀ depth, Yields (readRule depth) (P depth) → Yields (readRule (depth + 2)) (P (depth + 2))) :
    ∀ depth, Yields (readRule depth) (P depth)
  | 0 | 1 => (yields_record (Q := fun _ => True) nofun trivial).imp fun _ h => absurd h.1 (by decide)
  | depth + 2 => h depth (yields_readRule_of h depth)

structure RulesAre (T : RuleTable → Prop) (L : List RuleDescription → Prop) (g : GrammarDescription) : Prop where
  patterns : L g.patterns
  repository : T g.repository

theorem yields_grammarMembers (htable : Yields (readDictionary depth (readRule (depth - 1))) T)
    (hlist : Yields (readSequence depth (readRule (depth - 1))) L) :
    ∀ m ∈ grammarMembers depth, ∀ g, RulesAre T L g → Yields (m.read g) (RulesAre T L) := by
  have hany : Yields readString fun _ => True := fun _ _ _ _ => trivial
  simp only [grammarMembers, List.forall_mem_cons]
  refine ⟨?_, ?_, ?_, ?_, ?_, nofun⟩
  all_goals intro g hg
  · exact .after fun _ => .pure { hg with }
  · exact yields_optional_member hany fun _ _ => { hg with }
  · exact .after fun _ => .pure { hg with }
  · exact hlist.bind fun rs hrs => .pure { hg with patterns := hrs }
  · exact htable.bind fun es hes => .pure { hg with repository := hes }

end GrammarScopes.Description
