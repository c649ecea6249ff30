import GrammarScopes.Pattern.Node

/-!
Literal text when case is ignored.  A character may then stand for several, and several for one:
two texts match if their case foldings agree, as long as no character of either is split.
-/

namespace GrammarScopes.Pattern

/-- What can be read where a literal goes on: the folding of its first character, if that is a
single character, and the node for all of it. -/
structure Suffix where
  folded : Option Char
  node : Node

/-- The characters that fold to the first `n` characters of a literal, when `n` is two or three,
each followed by the rest of the literal. -/
def merged (c : Char) (rest : List Suffix) (n : Nat) : Option Node := do
  let later ← (rest.take (n - 1)).mapM (·.folded)
  let after ← rest[n - 1]?
  match Text.unfold (c :: later) with
  | [] => none
  | ds => some (.seq (.oneOf ds) after.node)

def prepend (c : Char) (rest : List Suffix) : Suffix :=
  let after := (rest.head?.map (·.node)).getD .empty
  let single := Node.seq (.oneOf (c :: Text.caseVariants c)) after
  match Text.foldChar c with
  | [d] => ⟨some d, Node.choice ([3, 2].filterMap (merged d rest) ++ [single])⟩
  | ds =>
    let spelled := ds.map fun d => Node.oneOf (d :: Text.caseVariants d)
    ⟨none, .alt (Node.sequence (spelled ++ [after])) single⟩

/-- The suffixes of a literal, the longest first. -/
def suffixes : List Char → List Suffix
  | [] => [⟨none, .empty⟩]
  | c :: cs =>
    let rest := suffixes cs
    prepend c rest :: rest

def caseless (cs : List Char) : Node :=
  ((suffixes cs).head?.map (·.node)).getD .empty

end GrammarScopes.Pattern
