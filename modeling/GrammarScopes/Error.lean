import GrammarScopes.Json.Error
import GrammarScopes.Scanner
import GrammarScopes.Text.Quoted

/-!
Why a grammar cannot be read, compiled or run.
-/

namespace GrammarScopes

inductive GrammarError
  | invalidGrammar (origin : String) (reason : JsonError)
  | missingGrammar (scope : String)
  | invalidPattern (fault : PatternFault)
  | groupTooLarge (group : Nat)
  /-- A line is tokenized without end. -/
  | endless
  deriving DecidableEq, Repr

def PatternFault.message (f : PatternFault) : String :=
  "Invalid pattern " ++ Text.quoted f.pattern ++ ": Oniguruma error: " ++ f.reason.message

def GrammarError.message : GrammarError → String
  | invalidGrammar origin reason => "Invalid grammar " ++ origin ++ ": " ++ reason.message
  | missingGrammar scope => "Grammar not provided: " ++ scope
  | invalidPattern fault => fault.message
  | groupTooLarge group => "No room for capture group " ++ toString group
  | endless => "Tokenizing does not end"

end GrammarScopes
