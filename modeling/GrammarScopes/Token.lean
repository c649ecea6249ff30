/-!
Tokens: runs of columns of one line that share their scopes.
-/

namespace GrammarScopes

structure Token where
  /-- First UTF-16 unit. -/
  start : Nat
  /-- One past the last UTF-16 unit. -/
  stop : Nat
  /-- Scope names, outermost first. -/
  scopes : List String
  deriving DecidableEq, Repr, Inhabited

namespace Token

def contains (t : Token) (character : Nat) : Bool :=
  t.start ≤ character && character < t.stop

/-- The scopes of the token that contains the column; past the last token those of the last token,
and otherwise the root scope alone. -/
def scopesAt (tokens : List Token) (character : Nat) (root : String) : List String :=
  match tokens.find? (·.contains character) with
  | some t => t.scopes
  | none =>
    match tokens.getLast? with
    | some last => if last.stop ≤ character then last.scopes else [root]
    | none => [root]

end Token

end GrammarScopes
