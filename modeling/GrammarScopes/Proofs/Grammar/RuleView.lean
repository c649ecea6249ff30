import GrammarScopes.Grammar.Basic
import GrammarScopes.Proofs.Grammar.Places
import GrammarScopes.Proofs.Text.Split

/-!
What a rule looks like when it is known what its references mean: compiled rules, which refer to rules
by number, and rules as they are written, which refer to places.
-/

namespace GrammarScopes

structure CaptureView (α : Type) where
  name : Option ScopeTemplate
  contentName : Option ScopeTemplate
  retokenize : Option α

structure RegionView (α : Type) where
  name : Option ScopeTemplate
  contentName : Option ScopeTemplate
  beginPattern : String
  beginCaptures : Nat → Option (CaptureView α)
  limit : PatternSet
  limitSource : String
  hasBackReferences : Bool
  limitCaptures : Nat → Option (CaptureView α)
  patterns : List α

/-- A rule that refers to others by what is in `α`. -/
inductive RuleView (α : Type)
  | container (patterns : List α)
  | single (name : Option ScopeTemplate) (pattern : String) (captures : Nat → Option (CaptureView α))
  | beginEnd (region : RegionView α) (endLast : Bool)
  | beginWhile (region : RegionView α)

abbrev CaptureSlots (α : Type) := Nat → Option (CaptureView α)

/-- A rule with all that it refers to, down to some depth. -/
inductive RuleTree
  | cut
  | node (rule : RuleView RuleTree)

section Map

variable {α β γ : Type}

def CaptureView.map (f : α → β) (c : CaptureView α) : CaptureView β :=
  ⟨c.name, c.contentName, c.retokenize.map f⟩

def CaptureSlots.map (f : α → β) (c : CaptureSlots α) : CaptureSlots β :=
  fun group => (c group).map (CaptureView.map f)

def RegionView.map (f : α → β) (r : RegionView α) : RegionView β where
  name := r.name
  contentName := r.contentName
  beginPattern := r.beginPattern
  beginCaptures := CaptureSlots.map f r.beginCaptures
  limit := r.limit
  limitSource := r.limitSource
  hasBackReferences := r.hasBackReferences
  limitCaptures := CaptureSlots.map f r.limitCaptures
  patterns := r.patterns.map f

def RuleView.map (f : α → β) : RuleView α → RuleView β
  | container patterns => container (patterns.map f)
  | single name pattern captures => single name pattern (CaptureSlots.map f captures)
  | beginEnd region endLast => beginEnd (region.map f) endLast
  | beginWhile region => beginWhile (region.map f)

theorem CaptureSlots.map_map (g : β → γ) (f : α → β) (c : CaptureSlots α) :
    CaptureSlots.map g (CaptureSlots.map f c) = CaptureSlots.map (g ∘ f) c := by
  funext group
  simp only [CaptureSlots.map, Option.map_map]
  refine congrArg (Option.map · (c group)) (funext fun v => ?_)
  simp only [Function.comp_apply, CaptureView.map, Option.map_map]

theorem RegionView.map_map (g : β → γ) (f : α → β) (r : RegionView α) : (r.map f).map g = r.map (g ∘ f) := by
  simp only [RegionView.map, CaptureSlots.map_map, List.map_map]

theorem RuleView.map_map (g : β → γ) (f : α → β) (r : RuleView α) : (r.map f).map g = r.map (g ∘ f) := by
  cases r <;> simp only [RuleView.map, CaptureSlots.map_map, RegionView.map_map, List.map_map]

end Map

/-! ### Compiled rules -/

def CaptureRule.view (c : CaptureRule) : CaptureView RuleId := ⟨c.name, c.contentName, c.retokenize⟩

def CaptureTable.view (table : CaptureTable) : CaptureSlots RuleId :=
  fun group => (table.rule? group).map CaptureRule.view

def Region.view (r : Region) : RegionView RuleId where
  name := r.name
  contentName := r.contentName
  beginPattern := r.beginPattern
  beginCaptures := CaptureTable.view r.beginCaptures
  limit := r.limit
  limitSource := r.limitSource
  hasBackReferences := r.hasBackReferences
  limitCaptures := CaptureTable.view r.limitCaptures
  patterns := r.patterns

def Rule.view : Rule → RuleView RuleId
  | container patterns => .container patterns
  | single name pattern captures => .single name pattern (CaptureTable.view captures)
  | beginEnd region endLast => .beginEnd region.view endLast
  | beginWhile region => .beginWhile region.view

/-- The rules of a compiled grammar, from one of them down to a depth. -/
def Grammar.unfold (g : Grammar) : Nat → RuleId → RuleTree
  | 0, _ => .cut
  | depth + 1, id => ((g.rule? id).map fun r => .node (r.view.map (g.unfold depth))).getD .cut

/-! ### Written rules

Rules without repositories of their own: a name in a reference is one of the repository of the grammar in
which the reference is written. -/

namespace Reference

/-- How references are written. -/
inductive Spells : String → Reference → Prop
  | named (key : String) : Spells ("#" ++ key) (named key)
  | self : Spells "$self" self
  | base : Spells "$base" base
  | grammar {scope : String} (hmark : '#' ∉ scope.toList) (hself : scope ≠ "$self") (hbase : scope ≠ "$base") :
    Spells scope (grammar scope)
  | ruleOf {scope : String} (hmark : '#' ∉ scope.toList) (hscope : scope ≠ "") (key : String) :
    Spells (scope ++ "#" ++ key) (ruleOf scope key)

theorem spells_parse (text : String) : Spells text (parse text) := by
  unfold parse
  split
  next key htext =>
    have htext : text = "#" ++ String.ofList key := by simp [← String.toList_inj, htext]
    rw [htext]
    exact .named _
  next hhash =>
    split
    next htext => exact htext ▸ .self
    next hself =>
      split
      next htext => exact htext ▸ .base
      next hbase =>
        split
        next before after hsplit =>
          obtain ⟨hmark, hcs⟩ := Text.splitOnce_eq_some.mp hsplit
          have htext : text = String.ofList before ++ "#" ++ String.ofList after := by
            simp [← String.toList_inj, hcs]
          have hscope : String.ofList before ≠ "" := by
            intro hnil
            have hbefore : before = [] := by simpa [← String.toList_inj] using hnil
            exact hhash after (by rw [hcs, hbefore]; rfl)
          rw [htext]
          exact .ruleOf (by rwa [String.toList_ofList]) hscope _
        next hsplit => exact .grammar (Text.splitOnce_eq_none.mp hsplit) hself hbase

theorem parse_ruleOf {scope : String} (hmark : '#' ∉ scope.toList) (hscope : scope ≠ "") (key : String) :
    parse (scope ++ "#" ++ key) = ruleOf scope key := by
  have hlist : (scope ++ "#" ++ key).toList = scope.toList ++ '#' :: key.toList := by simp
  have hsplit : Text.splitOnce '#' (scope.toList ++ '#' :: key.toList) = some (scope.toList, key.toList) :=
    Text.splitOnce_eq_some.mpr ⟨hmark, rfl⟩
  have hne : ∀ text : String, '#' ∉ text.toList → scope ++ "#" ++ key ≠ text := by
    rintro text htext rfl
    exact htext (by rw [hlist]; exact List.mem_append_right _ List.mem_cons_self)
  unfold parse
  split
  next rest htext =>
    rw [hlist] at htext
    cases hcs : scope.toList with
    | nil => exact absurd (String.toList_inj.mp hcs) hscope
    | cons c cs =>
      rw [hcs] at htext
      cases htext
      exact absurd (hcs ▸ List.mem_cons_self) hmark
  next =>
    rw [if_neg (hne _ (by decide)), if_neg (hne _ (by decide)), hlist, hsplit]
    simp

theorem parse_eq_iff {text : String} {r : Reference} : parse text = r ↔ Spells text r := by
  constructor
  · rintro rfl
    exact spells_parse text
  · intro h
    cases h with
    | named key => simp [parse]
    | self => rfl
    | base => rfl
    | ruleOf hmark hscope key => exact parse_ruleOf hmark hscope key
    | grammar hmark hself hbase =>
      unfold parse
      split
      next htext => exact absurd (htext ▸ List.mem_cons_self) hmark
      next => rw [if_neg hself, if_neg hbase, Text.splitOnce_eq_none.mpr hmark]

end Reference

def namedOrigin? (grammars : GrammarSet) (scope key : String) : Option Origin :=
  (Dictionary.find? grammars scope).bind fun g =>
    (Dictionary.find? g.repository key).map fun _ => .rule ⟨scope, [.entry .repository key]⟩

/-- What a reference names that is written in the grammar `owner`, where `base` is compiled. -/
def Reference.origin? (grammars : GrammarSet) (base owner : String) : Reference → Option Origin
  | .named key => namedOrigin? grammars owner key
  | .self => some (.grammar owner)
  | .base => some (.grammar base)
  | .grammar scope => (Dictionary.find? grammars scope).map fun _ => .grammar scope
  | .ruleOf scope key => namedOrigin? grammars scope key

namespace RuleDescription

variable (grammars : GrammarSet) (base : String) (scanner : Scanner) (site : Site)

/-- What the items of a list of patterns come to, in order; a reference that names nothing is left out. -/
def itemOrigins (rules : List RuleDescription) : List Origin :=
  rules.zipIdx.filterMap fun (r, index) =>
    match r.reference with
    | some text => (Reference.parse text).origin? grammars base site.grammar
    | none => some (.rule (site.within (.pattern index)))

/-- The last key that is the number of a group tells what the group means. -/
def slots (list : RuleList) (rules : RuleTable) : CaptureSlots Origin := fun group =>
  (rules.reverse.find? fun e => Text.word? e.1.toList == some group).map fun e =>
    ⟨e.2.name.map .ofText, e.2.contentName.map .ofText,
      if e.2.patterns.isSome then some (.rule (site.within (.entry list e.1))) else none⟩

/-- Groups that have no list of their own are those of the general list. -/
def slotsOr (r : RuleDescription) (list : RuleList) (rules : Option RuleTable) : CaptureSlots Origin :=
  match rules with
  | some rules => slots site list rules
  | none => slots site .captures (r.captures.getD [])

def regionView (r : RuleDescription) (beginPattern limit : String) (limitCaptures : CaptureSlots Origin) :
    RegionView Origin where
  name := r.name.map .ofText
  contentName := r.contentName.map .ofText
  beginPattern := beginPattern
  beginCaptures := slotsOr site r .beginCaptures r.beginCaptures
  limit := .ofSource scanner limit
  limitSource := limit
  hasBackReferences := BackReference.occursIn limit
  limitCaptures := limitCaptures
  patterns := itemOrigins grammars base site (r.patterns.getD [])

def view (r : RuleDescription) : RuleView Origin :=
  match r.pattern, r.beginPattern, r.whilePattern with
  | some pattern, _, _ => .single (r.name.map .ofText) pattern (slots site .captures (r.captures.getD []))
  | none, some beginPattern, some whilePattern =>
    .beginWhile (regionView grammars base scanner site r beginPattern whilePattern
      (slotsOr site r .whileCaptures r.whileCaptures))
  | none, some beginPattern, none =>
    .beginEnd (regionView grammars base scanner site r beginPattern (r.endPattern.getD "\uffff")
      (slotsOr site r .endCaptures r.endCaptures)) (r.applyEndPatternLast.any Switch.isSet)
  | none, none, _ =>
    match r.patterns, r.reference with
    | some rules, _ => .container (itemOrigins grammars base site rules)
    | none, some text => .container ((Reference.parse text).origin? grammars base site.grammar).toList
    | none, none => .container []

end RuleDescription

namespace Origin

def site : Origin → Site
  | grammar scope => ⟨scope, []⟩
  | rule site => site

def description? (grammars : GrammarSet) (o : Origin) : Option RuleDescription :=
  (Dictionary.find? grammars o.site.grammar).bind (·.at? o.site.steps)

def view? (grammars : GrammarSet) (base : String) (scanner : Scanner) (o : Origin) : Option (RuleView Origin) :=
  (o.description? grammars).map (RuleDescription.view grammars base scanner o.site)

/-- What is written at a place with all that it refers to, from there down to a depth: every reference is
followed, whether or not it has been followed before. -/
def unfold (grammars : GrammarSet) (base : String) (scanner : Scanner) : Nat → Origin → RuleTree
  | 0, _ => .cut
  | depth + 1, o =>
    ((o.view? grammars base scanner).map fun v => .node (v.map (unfold grammars base scanner depth))).getD .cut

end Origin

end GrammarScopes
