import GrammarScopes.Grammar.Rule

/-!
The rules that are active at some point of a document.
-/

namespace GrammarScopes

structure Frame where
  rule : RuleId
  /-- Where the rule became active, if that was on this line. -/
  enterPos : Option Nat
  /-- Where `\G` held when the rule became active. -/
  anchorPos : Option Nat
  /-- Whether the begin match ran to the end of its line. -/
  beganAtEnd : Bool
  /-- The pattern that limits the rule, when it refers to what the begin pattern captured. -/
  limit : Option String
  nameScopes : List String
  contentScopes : List String
  deriving DecidableEq, Repr, Inhabited

def Frame.root (rule : RuleId) (scopeName : String) : Frame :=
  ⟨rule, none, none, false, none, [scopeName], [scopeName]⟩

/-- Positions belong to one line only. -/
def Frame.forNextLine (f : Frame) : Frame := { f with enterPos := none, anchorPos := none }

structure Frames where
  top : Frame
  /-- The enclosing rules, the nearest first. -/
  below : List Frame
  deriving DecidableEq, Repr, Inhabited

namespace Frames

def toList (fs : Frames) : List Frame := fs.top :: fs.below

def depth (fs : Frames) : Nat := fs.below.length + 1

def push (fs : Frames) (f : Frame) : Frames := ⟨f, fs.toList⟩

/-- Takes the top away; the last frame stays. -/
def pop (fs : Frames) : Frames :=
  match fs.below with
  | [] => fs
  | f :: rest => ⟨f, rest⟩

/-- Whether the rule on top is active a second time and both times became so at one position,
without a frame in between that became active elsewhere. -/
def repeatsEnclosing (fs : Frames) : Bool :=
  (fs.below.takeWhile (·.enterPos == fs.top.enterPos)).any (·.rule == fs.top.rule)

def mapFrames (fs : Frames) (change : Frame → Frame) : Frames :=
  ⟨change fs.top, fs.below.map change⟩

end Frames

inductive RuleStack
  | initial
  | active (frames : Frames)
  deriving DecidableEq, Repr, Inhabited

namespace RuleStack

def isInitial : RuleStack → Bool
  | initial => true
  | active _ => false

def depth : RuleStack → Nat
  | initial => 0
  | active frames => frames.depth

def scopes : RuleStack → List String
  | initial => []
  | active frames => frames.top.contentScopes

end RuleStack

end GrammarScopes
