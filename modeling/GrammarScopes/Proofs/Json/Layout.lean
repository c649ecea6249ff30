import GrammarScopes.Json.Reader
import GrammarScopes.Json.Value

/-!
Texts of JSON values: a value is written by its marks, with blanks in front of any of its parts.
-/

namespace GrammarScopes

open Json.Read (isBlank)

namespace Json

def Blanks (bs : List Char) : Prop := ∀ c ∈ bs, isBlank c

def lead (isFirst : Bool) : List Char := if isFirst then [] else [',']

inductive ItemsTail (L : JsonValue → List Char → Prop) : Bool → List JsonValue → List Char → Prop
  | close {isFirst : Bool} {bs : List Char} (hbs : Blanks bs) :
    ItemsTail L isFirst [] (bs ++ [']'])
  | item {isFirst : Bool} {bs text tail : List Char} {j : JsonValue} {js : List JsonValue}
      (hbs : Blanks bs) (h : L j text) (htail : ItemsTail L false js tail) :
    ItemsTail L isFirst (j :: js) (lead isFirst ++ (bs ++ (text ++ tail)))

inductive MembersTail (L : JsonValue → List Char → Prop) :
    Bool → List (String × JsonValue) → List Char → Prop
  | close {isFirst : Bool} {bs : List Char} (hbs : Blanks bs) :
    MembersTail L isFirst [] (bs ++ ['\x7d'])
  | member {isFirst : Bool} {bs bs' text tail : List Char} {k : String} {j : JsonValue}
      {ms : List (String × JsonValue)} (hbs : Blanks bs) (hbs' : Blanks bs') (h : L j text)
      (htail : MembersTail L false ms tail) :
    MembersTail L isFirst ((k, j) :: ms)
      (lead isFirst ++ (bs ++ (JsonValue.stringText k ++ ':' :: (bs' ++ (text ++ tail)))))

end Json

open Json

/-- The texts of a value. -/
inductive JsonValue.Laid : JsonValue → List Char → Prop
  | null : Laid null ['n', 'u', 'l', 'l']
  | bool (b : Bool) : Laid (bool b) (bool b).atomText
  | number (n : Int) : Laid (number n) (toString n).toList
  | string (s : String) : Laid (string s) (stringText s)
  | list {items : List JsonValue} {tail : List Char} (h : ItemsTail Laid true items tail) :
    Laid (list items) ('[' :: tail)
  | object {members : List (String × JsonValue)} {tail : List Char}
      (h : MembersTail Laid true members tail) :
    Laid (object members) ('\x7b' :: tail)

namespace Json

theorem blanks_nil : Blanks [] := nofun

theorem blanks_space : Blanks [' '] := fun _ hc => List.mem_singleton.mp hc ▸ rfl

theorem blanks_newLine (level : Nat) : Blanks (JsonValue.newLine level) := by
  intro c hc
  rcases List.mem_cons.mp hc with rfl | hc
  · rfl
  · rw [List.eq_of_mem_replicate hc]
    rfl

end Json

namespace JsonValue

mutual

theorem laid_compactText : ∀ j : JsonValue, j.Laid j.compactText
  | null => .null
  | bool true => .bool true
  | bool false => .bool false
  | number n => .number n
  | string s => .string s
  | list items => .list (itemsTail_compact true items)
  | object members => .object (membersTail_compact true members)

theorem itemsTail_compact : ∀ (isFirst : Bool) (items : List JsonValue),
    ItemsTail Laid isFirst items (lead (isFirst || items.isEmpty) ++ (compactItems items ++ [']']))
  | true, [] | false, [] => .close blanks_nil
  | isFirst, [j] => by
    have h : ItemsTail Laid isFirst [j] _ :=
      .item blanks_nil (laid_compactText j) (.close blanks_nil)
    simpa [compactItems] using h
  | isFirst, j :: k :: rest => by
    have h : ItemsTail Laid isFirst (j :: k :: rest) _ :=
      .item blanks_nil (laid_compactText j) (itemsTail_compact false (k :: rest))
    simpa [compactItems, lead] using h

theorem membersTail_compact : ∀ (isFirst : Bool) (members : List (String × JsonValue)),
    MembersTail Laid isFirst members
      (lead (isFirst || members.isEmpty) ++ (compactMembers members ++ ['\x7d']))
  | true, [] | false, [] => .close blanks_nil
  | isFirst, [(k, j)] => by
    have h : MembersTail Laid isFirst [(k, j)] _ :=
      .member blanks_nil blanks_nil (laid_compactText j) (.close blanks_nil)
    simpa [compactMembers] using h
  | isFirst, (k, j) :: m :: rest => by
    have h : MembersTail Laid isFirst ((k, j) :: m :: rest) _ :=
      .member blanks_nil blanks_nil (laid_compactText j) (membersTail_compact false (m :: rest))
    simpa [compactMembers, lead] using h

end

mutual

theorem laid_prettyText : ∀ (level : Nat) (j : JsonValue), j.Laid (j.prettyText level)
  | _, null => .null
  | _, bool true => .bool true
  | _, bool false => .bool false
  | _, number n => .number n
  | _, string s => .string s
  | _, list [] => .list (.close blanks_nil)
  | level, list (j :: items) =>
    .list (itemsTail_pretty (level + 1) (blanks_newLine level) true (j :: items))
  | _, object [] => .object (.close blanks_nil)
  | level, object (m :: members) =>
    .object (membersTail_pretty (level + 1) (blanks_newLine level) true (m :: members))

theorem itemsTail_pretty (level : Nat) {bs : List Char} (hbs : Blanks bs) :
    ∀ (isFirst : Bool) (items : List JsonValue),
    ItemsTail Laid isFirst items
      (lead (isFirst || items.isEmpty) ++ (prettyItems level items ++ bs ++ [']']))
  | true, [] | false, [] => .close hbs
  | isFirst, [j] => by
    have h : ItemsTail Laid isFirst [j] _ :=
      .item (blanks_newLine level) (laid_prettyText level j) (.close hbs)
    simpa [prettyItems] using h
  | isFirst, j :: k :: rest => by
    have h : ItemsTail Laid isFirst (j :: k :: rest) _ :=
      .item (blanks_newLine level) (laid_prettyText level j)
        (itemsTail_pretty level hbs false (k :: rest))
    simpa [prettyItems, lead] using h

theorem membersTail_pretty (level : Nat) {bs : List Char} (hbs : Blanks bs) :
    ∀ (isFirst : Bool) (members : List (String × JsonValue)),
    MembersTail Laid isFirst members
      (lead (isFirst || members.isEmpty) ++ (prettyMembers level members ++ bs ++ ['\x7d']))
  | true, [] | false, [] => .close hbs
  | isFirst, [(k, j)] => by
    have h : MembersTail Laid isFirst [(k, j)] _ :=
      .member (blanks_newLine level) blanks_space (laid_prettyText level j) (.close hbs)
    simpa [prettyMembers] using h
  | isFirst, (k, j) :: m :: rest => by
    have h : MembersTail Laid isFirst ((k, j) :: m :: rest) _ :=
      .member (blanks_newLine level) blanks_space (laid_prettyText level j)
        (membersTail_pretty level hbs false (m :: rest))
    simpa [prettyMembers, lead] using h

end

end JsonValue

end GrammarScopes
