import GrammarScopes.Loading.Cache

/-!
Tasks that ask a cache for a value.  A task advances only when it is polled, and does then as much as
it can.
-/

namespace GrammarScopes

inductive Poll (τ α : Type)
  | pending (task : τ)
  | done (result : Except ScopeError α)
  deriving Repr

/-- A task that asks for the value of a key; `ι` is the state of the load it may have to run. -/
inductive Task (κ ι : Type)
  /-- Not polled so far. -/
  | asked (key : κ) (load : ι)
  /-- Runs an attempt of its own. -/
  | leading (key : κ) (attempt : AttemptId) (load : ι)
  /-- Waits for the attempt of another task. -/
  | waiting (key : κ) (attempt : AttemptId)
  deriving DecidableEq, Repr

structure CacheView (σ κ α : Type) where
  get : σ → LoadCache κ α
  set : LoadCache κ α → σ → σ

/-- How the values of a cache are loaded: one step of a load, and what becomes of the state when a load
is dropped. -/
structure Loader (σ κ ι α : Type) extends CacheView σ κ α where
  describe : κ → String
  run : ι → σ → σ × Poll ι α
  drop : ι → σ → σ

namespace Task

variable {σ κ ι α : Type} [BEq κ] (l : Loader σ κ ι α)

def lead (key : κ) (a : AttemptId) (load : ι) (s : σ) : σ × Poll (Task κ ι) α :=
  match l.run load s with
  | (s, .pending load) => (s, .pending (leading key a load))
  | (s, .done result) => (l.set ((l.get s).settle key a result) s, .done result)

def await (key : κ) (a : AttemptId) (s : σ) : Poll (Task κ ι) α :=
  match (l.get s).status? a with
  | some (.finished result) => .done result
  | some .running => .pending (waiting key a)
  | some .abandoned | none => .done (.error (.abandoned (l.describe key)))

def poll (t : Task κ ι) (s : σ) : σ × Poll (Task κ ι) α :=
  match t with
  | asked key load =>
    match (l.get s).slot? key with
    | some (.ready value) => (s, .done (.ok value))
    | some (.loading a) => (s, await l key a s)
    | none =>
      let (cache, a) := (l.get s).begin key
      lead l key a load (l.set cache s)
  | leading key a load => lead l key a load s
  | waiting key a => (s, await l key a s)

def drop (t : Task κ ι) (s : σ) : σ :=
  match t with
  | leading key a load =>
    let s := l.drop load s
    l.set ((l.get s).abandon key a) s
  | asked .. | waiting .. => s

end Task

end GrammarScopes
