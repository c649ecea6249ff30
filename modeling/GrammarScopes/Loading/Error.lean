import GrammarScopes.Error

/-!
Why a grammar is not available.
-/

namespace GrammarScopes

inductive ScopeError
  | backendUnavailable (reason : String)
  | unmappedScope (scope : String)
  | read (location reason : String)
  | grammar (e : GrammarError)
  /-- The task that loaded the value was dropped. -/
  | abandoned (key : String)
  deriving DecidableEq, Repr

def ScopeError.message : ScopeError → String
  | backendUnavailable reason => "Scanner backend unavailable: " ++ reason
  | unmappedScope scope => "No grammar path found for scope " ++ scope
  | read location reason => "Failed to read grammar " ++ location ++ ": " ++ reason
  | grammar e => e.message
  | abandoned key => "Load of " ++ key ++ " was abandoned"

end GrammarScopes
