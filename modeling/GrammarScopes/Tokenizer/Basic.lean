import GrammarScopes.Tokenizer.While

/-!
Tokenizing the lines of a document, one after the other.
-/

namespace GrammarScopes

/-- The tokens of a line, and the state in which the next line begins. -/
structure LineTokens where
  tokens : List Token
  stack : RuleStack
  deriving DecidableEq, Repr

namespace Grammar

def startFrames (g : Grammar) : RuleStack → Frames
  | .initial => ⟨.root root g.scopeName, []⟩
  | .active frames => frames.mapFrames Frame.forNextLine

/-- Captured texts are tokenized inside each other at most this deep. -/
def nestingLimit : Nat := 4096

def tokenizeNested (g : Grammar) (n : Nat) (text : String) (stack : RuleStack) :
    Except GrammarError LineTokens := do
  let line := Line.ofText text
  let again := g.retokenize n
  let s ← g.checkWhile line again (g.startFrames stack) stack.isInitial
  let s ← g.scanAll line again s
  return ⟨s.run.finish line, .active s.frames⟩

def tokenizeLine (g : Grammar) (text : String) (stack : RuleStack) :
    Except GrammarError LineTokens :=
  g.tokenizeNested nestingLimit text stack

end Grammar

end GrammarScopes
