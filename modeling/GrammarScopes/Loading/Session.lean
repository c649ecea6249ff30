import GrammarScopes.Dictionary
import GrammarScopes.Loading.Task
import GrammarScopes.Text.Quoted

/-!
Tasks that share one cache, driven by hand: every event creates, polls or drops a task, or tells a
load its outcome.
-/

namespace GrammarScopes

/-- A load whose outcome comes from outside. -/
structure OwnLoad (α : Type) where
  isStarted : Bool := false
  outcome : Option (Except ScopeError α) := none

structure SharedLoads (α : Type) where
  cache : LoadCache String α := {}
  runs : Nat := 0

namespace SharedLoads

variable {α : Type}

def run (load : OwnLoad α) (s : SharedLoads α) : SharedLoads α × Poll (OwnLoad α) α :=
  let s := if load.isStarted then s else { s with runs := s.runs + 1 }
  match load.outcome with
  | some result => (s, .done result)
  | none => (s, .pending { load with isStarted := true })

def loader : Loader (SharedLoads α) String (OwnLoad α) α where
  get := cache
  set cache s := { s with cache := cache }
  describe := Text.quoted
  run := run
  drop _ s := s

end SharedLoads

abbrev SharedTask (α : Type) := Task String (OwnLoad α)

def Task.decide {α : Type} (outcome : Except ScopeError α) : SharedTask α → SharedTask α
  | asked key load => asked key { load with outcome := some outcome }
  | leading key a load => leading key a { load with outcome := some outcome }
  | waiting key a => waiting key a

structure LoadSession (α : Type) where
  loads : SharedLoads α := {}
  tasks : List (String × SharedTask α) := []
  keys : List String := []

inductive LoadEvent (α : Type)
  /-- Creates a task, and polls it at once unless it is lazy. -/
  | start (id key : String) (isLazy : Bool) (outcome : Option (Except ScopeError α))
  | decide (id : String) (outcome : Except ScopeError α)
  | poll (id : String)
  | drop (id : String)
  | value (key : String)
  | isLoading (key : String)

inductive LoadReply (α : Type)
  | created
  | pending
  | done (result : Except ScopeError α)
  | decided
  | dropped
  | value (value : Option α)
  | isLoading (answer : Bool)
  | noSuchTask

namespace LoadSession

variable {α : Type}

def task? (s : LoadSession α) (id : String) : Option (SharedTask α) := s.tasks.lookup id

def remove (s : LoadSession α) (id : String) : LoadSession α :=
  { s with tasks := s.tasks.filter (·.1 != id) }

def put (s : LoadSession α) (id : String) (t : SharedTask α) : LoadSession α :=
  { s with tasks := (id, t) :: (s.remove id).tasks }

def drop (s : LoadSession α) (id : String) : LoadSession α :=
  match s.task? id with
  | some t => { s.remove id with loads := t.drop SharedLoads.loader s.loads }
  | none => s

def poll (s : LoadSession α) (id : String) (t : SharedTask α) : LoadSession α × LoadReply α :=
  match t.poll SharedLoads.loader s.loads with
  | (loads, .pending t) => ({ s with loads := loads }.put id t, .pending)
  | (loads, .done result) => ({ s with loads := loads }.remove id, .done result)

def step (s : LoadSession α) : LoadEvent α → LoadSession α × LoadReply α
  | .start id key isLazy outcome =>
    let s := { s.drop id with keys := Dictionary.insertWord key s.keys }
    let t := .asked key { outcome := outcome }
    if isLazy then (s.put id t, .created) else s.poll id t
  | .decide id outcome =>
    match s.task? id with
    | some t => (s.put id (t.decide outcome), .decided)
    | none => (s, .noSuchTask)
  | .poll id =>
    match s.task? id with
    | some t => s.poll id t
    | none => (s, .noSuchTask)
  | .drop id =>
    match s.task? id with
    | some _ => (s.drop id, .dropped)
    | none => (s, .noSuchTask)
  | .value key => (s, .value (s.loads.cache.value? key))
  | .isLoading key => (s, .isLoading (s.loads.cache.isLoading key))

def loadingKeys (s : LoadSession α) : List String := s.keys.filter s.loads.cache.isLoading

end LoadSession

end GrammarScopes
