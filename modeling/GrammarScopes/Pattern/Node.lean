import GrammarScopes.Pattern.CharSet

/-!
The syntax tree of a pattern.
-/

namespace GrammarScopes.Pattern

inductive Assertion
  /-- The start of the text, or after a line feed that does not end it. -/
  | lineStart
  /-- The end of the text, or before a line feed. -/
  | lineEnd
  | textStart
  | textEnd
  /-- The end of the text, or before a line feed that ends it. -/
  | textEndOrBreak
  | searchStart
  /-- Between a word character and something else. -/
  | wordBoundary (word : CharSet)
  /-- Where no character attaches to the one before it. -/
  | segmentBoundary
  deriving DecidableEq, Repr

inductive GroupRef
  | index (n : Nat)
  | name (s : String)
  deriving DecidableEq, Repr

inductive Node
  | empty
  | fail
  | char (c : Char)
  | set (s : CharSet)
  | seq (a b : Node)
  | alt (a b : Node)
  /-- Between `least` and `most` copies of `body`, many first if `greedy`. -/
  | loop (least : Nat) (most : Option Nat) (greedy : Bool) (body : Node)
  /-- The first way in which `body` matches, and no other. -/
  | atomic (body : Node)
  | group (index : Nat) (body : Node)
  | ahead (positive : Bool) (body : Node)
  | behind (positive : Bool) (body : Node)
  | assertion (positive : Bool) (a : Assertion)
  /-- The text of the first listed group that is set and occurs here. -/
  | backReference (groups : List Nat) (anyCase : Bool)
  | call (target : GroupRef) (written : String)
  /-- The reported match begins here. -/
  | keep
  | isSet (groups : List Nat)
  /-- Goes on with `yes` after the first way in which `test` matches, and with `no` if none does. -/
  | ifElse (test yes no : Node)
  /-- Any text in which `body` matches nowhere, long ones first. -/
  | absent (body : Node)
  deriving DecidableEq, Repr

namespace Node

def sequence : List Node → Node
  | [] => empty
  | [a] => a
  | a :: rest => seq a (sequence rest)

def choice : List Node → Node
  | [] => fail
  | [a] => a
  | a :: rest => alt a (choice rest)

/-- Whether a match may begin elsewhere than where it was looked for. -/
def keeps : Node → Bool
  | keep => true
  | seq a b | alt a b => a.keeps || b.keeps
  | ifElse a b c => a.keeps || b.keeps || c.keeps
  | loop _ _ _ body | atomic body | group _ body | ahead _ body | behind _ body | absent body =>
    body.keeps
  | _ => false

def oneOf : List Char → Node
  | [c] => char c
  | cs => set (.oneOf cs)

end Node

structure Compiled where
  root : Node
  groupCount : Nat
  names : List (String × Nat)
  deriving DecidableEq, Repr

end GrammarScopes.Pattern
