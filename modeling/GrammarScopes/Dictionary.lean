/-!
Dictionaries: entries in the order of their keys, one for each key.
-/

namespace GrammarScopes.Dictionary

/-- Puts a word in its place in a sorted list, once. -/
def insertWord (word : String) : List String → List String
  | [] => [word]
  | w :: ws =>
    if word < w then word :: w :: ws
    else if word = w then w :: ws
    else w :: insertWord word ws

def insert {α : Type} (key : String) (value : α) : List (String × α) → List (String × α)
  | [] => [(key, value)]
  | e :: es =>
    if key < e.1 then (key, value) :: e :: es
    else if key = e.1 then (key, value) :: es
    else e :: insert key value es

def find? {α : Type} (entries : List (String × α)) (key : String) : Option α :=
  (entries.find? (·.1 == key)).map (·.2)

theorem mem_insertWord {a word : String} {ws : List String} :
    a ∈ insertWord word ws ↔ a = word ∨ a ∈ ws := by
  induction ws with
  | nil => simp [insertWord]
  | cons w ws ih =>
    unfold insertWord
    split
    · simp
    · split
      · next h => subst h; simp
      · simp [ih, or_left_comm]

theorem find?_insert {α : Type} (key k : String) (value : α) (entries : List (String × α)) :
    find? (insert key value entries) k = if key = k then some value else find? entries k := by
  induction entries with
  | nil => by_cases h : key = k <;> simp [insert, find?, h]
  | cons e es ih =>
    unfold insert
    split
    · by_cases h : key = k <;> simp [find?, h]
    · split
      · next h => by_cases hk : key = k <;> simp_all [find?]
      · next h => by_cases hk : e.1 = k <;> simp_all [find?]

end GrammarScopes.Dictionary
