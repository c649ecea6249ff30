import GrammarScopes.CommentStyle
import GrammarScopes.Document
import GrammarScopes.Tokenizer.Basic

/-!
The tokens of a document and the scopes at a cursor.  A line that is too long is not tokenized and
has no effect on the lines after it.
-/

namespace GrammarScopes

def isTooLong (maxLength : Nat) (text : String) : Bool :=
  maxLength < Text.unitCount text.toList

namespace Grammar

variable (g : Grammar) (maxLength : Nat)

def tokenizeLines : List String → RuleStack → Except GrammarError (List (List Token))
  | [], _ => return []
  | text :: rest, stack =>
    if isTooLong maxLength text then return [] :: (← tokenizeLines rest stack)
    else do
      let r ← g.tokenizeLine text stack
      return r.tokens :: (← tokenizeLines rest r.stack)

def tokenizeDocument (d : Document) : Except GrammarError (List (List Token)) :=
  g.tokenizeLines maxLength d.lines .initial

/-- The scopes in the line after `line` others, at a column; `none` if there are not so many lines. -/
def walkLines (character : Nat) (root : String) :
    Nat → List String → RuleStack → Except GrammarError (Option (List String))
  | _, [], _ => return none
  | line, text :: rest, stack =>
    if isTooLong maxLength text then
      match line with
      | 0 => return some [root]
      | n + 1 => walkLines character root n rest stack
    else do
      let r ← g.tokenizeLine text stack
      match line with
      | 0 => return some (Token.scopesAt r.tokens character root)
      | n + 1 => walkLines character root n rest r.stack

/-- The scopes at a cursor; `none` outside the document, or if a line up to the cursor cannot be
tokenized. -/
def scopesAt? (d : Document) (p : Position) (root : String) : Option (List String) :=
  match g.walkLines maxLength p.character root p.line d.lines .initial with
  | .ok scopes => scopes
  | .error _ => none

end Grammar

end GrammarScopes
