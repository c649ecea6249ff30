import GrammarScopes.Loading.Error

/-!
A cache of loaded values.  The first task that asks for a key loads its value, and tasks that ask
meanwhile wait for that attempt.  Values stay; a failure is told to all who wait for it and forgotten.
-/

namespace GrammarScopes

/-- Attempts to load are numbered in the order in which they begin. -/
abbrev AttemptId := Nat

inductive Slot (α : Type)
  | ready (value : α)
  | loading (attempt : AttemptId)
  deriving DecidableEq, Repr

inductive AttemptStatus (α : Type)
  | running
  | finished (result : Except ScopeError α)
  /-- The task that made the attempt was dropped. -/
  | abandoned
  deriving Repr

structure LoadCache (κ α : Type) where
  slots : List (κ × Slot α) := []
  attempts : List (AttemptStatus α) := []

namespace LoadCache

variable {κ α : Type} [BEq κ]

def slot? (c : LoadCache κ α) (key : κ) : Option (Slot α) := c.slots.lookup key

def erase (c : LoadCache κ α) (key : κ) : LoadCache κ α :=
  { c with slots := c.slots.filter (!·.1 == key) }

def put (c : LoadCache κ α) (key : κ) (slot : Slot α) : LoadCache κ α :=
  { c with slots := (key, slot) :: (c.erase key).slots }

def value? (c : LoadCache κ α) (key : κ) : Option α :=
  match c.slot? key with
  | some (.ready value) => some value
  | _ => none

def isLoading (c : LoadCache κ α) (key : κ) : Bool :=
  match c.slot? key with
  | some (.loading _) => true
  | _ => false

def readyCount (c : LoadCache κ α) : Nat :=
  c.slots.countP fun e => match e.2 with
    | .ready _ => true
    | .loading _ => false

def status? (c : LoadCache κ α) (a : AttemptId) : Option (AttemptStatus α) := c.attempts[a]?

def begin (c : LoadCache κ α) (key : κ) : LoadCache κ α × AttemptId :=
  let a := c.attempts.length
  ({ c.put key (.loading a) with attempts := c.attempts ++ [.running] }, a)

/-- Ends an attempt with its result.  Only a value is kept. -/
def settle (c : LoadCache κ α) (key : κ) (a : AttemptId) (result : Except ScopeError α) :
    LoadCache κ α :=
  let slots := match result with
    | .ok value => (c.put key (.ready value)).slots
    | .error _ => (c.erase key).slots
  ⟨slots, c.attempts.set a (.finished result)⟩

def abandon (c : LoadCache κ α) (key : κ) (a : AttemptId) : LoadCache κ α :=
  ⟨(c.erase key).slots, c.attempts.set a .abandoned⟩

end LoadCache

end GrammarScopes
