import GrammarScopes.Line
import GrammarScopes.Token

/-!
Tokens as they are found: in bytes, each beginning where the one before it ends.
-/

namespace GrammarScopes

structure ByteToken where
  start : Nat
  stop : Nat
  scopes : List String
  deriving DecidableEq, Repr, Inhabited

/-- The tokens of a stretch of a line that begins anywhere and ends at `stop`. -/
structure TokenRun where
  /-- The tokens found so far, the latest first. -/
  latest : List ByteToken
  stop : Nat
  deriving DecidableEq, Repr, Inhabited

namespace TokenRun

def startingAt (pos : Nat) : TokenRun := ⟨[], pos⟩

def tokens (r : TokenRun) : List ByteToken := r.latest.reverse

/-- Extends the run to `stop` with a token of the given scopes, unless it reaches so far already. -/
def extend (r : TokenRun) (stop : Nat) (scopes : List String) : TokenRun :=
  if r.stop < stop then ⟨⟨r.stop, stop, scopes⟩ :: r.latest, stop⟩ else r

def dropBreak (line : Line) (latest : List ByteToken) : List ByteToken :=
  match latest with
  | [] => []
  | last :: rest =>
    -- The last token holds the line feed alone.  On an empty line it stays, without width.
    if last.start + 1 = line.size then
      if rest.isEmpty then [⟨0, line.contentSize, last.scopes⟩] else rest
    else last :: rest

def trimLast (line : Line) (latest : List ByteToken) : List ByteToken :=
  match latest with
  | [] => []
  | last :: rest =>
    if last.stop = line.size then { last with stop := line.contentSize } :: rest else last :: rest

def finish (r : TokenRun) (line : Line) : List Token :=
  (trimLast line (dropBreak line r.latest)).reverse.map fun t =>
    ⟨line.unitsAt t.start, line.unitsAt t.stop, t.scopes⟩

end TokenRun

end GrammarScopes
