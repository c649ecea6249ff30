import GrammarScopes.Description.Basic
import GrammarScopes.Json.Reader

/-!
Reading grammar descriptions from JSON.
-/

namespace GrammarScopes

open Json Json.Read

def Switch.ofScalar? : Scalar → Option Switch
  | .bool b => some (bool b)
  | .integer n => if -Nat.pow 2 63 ≤ n && n < Nat.pow 2 63 then some (number n) else none
  | .otherwise => none

namespace Description

def readSwitch (depth : Nat) : Read Switch := do
  match Switch.ofScalar? (← readScalar depth) with
  | some s => return s
  | none => throw (.noVariant "Flag")

/-- A member that may be left out or null. -/
def optional {σ α : Type} (key : String) (read : Read α) (put : σ → Option α → σ) : Member σ :=
  ⟨key, false, fun s => return put s (← readOptional read)⟩

def text {σ : Type} (key : String) (put : σ → Option String → σ) : Member σ :=
  optional key readString put

/-- The members of a rule; `rule` reads a rule in a list or a table, which is nested at most `depth`
deep. -/
def ruleMembers (depth : Nat) (rule : Read RuleDescription) : List (Member RuleDescription) :=
  let table := fun key put => optional key (readDictionary depth rule) put
  [text "include" fun r v => { r with reference := v },
    text "name" fun r v => { r with name := v },
    text "contentName" fun r v => { r with contentName := v },
    text "match" fun r v => { r with pattern := v },
    table "captures" fun r v => { r with captures := v },
    text "begin" fun r v => { r with beginPattern := v },
    table "beginCaptures" fun r v => { r with beginCaptures := v },
    text "end" fun r v => { r with endPattern := v },
    table "endCaptures" fun r v => { r with endCaptures := v },
    text "while" fun r v => { r with whilePattern := v },
    table "whileCaptures" fun r v => { r with whileCaptures := v },
    optional "patterns" (readSequence depth rule) fun r v => { r with patterns := v },
    table "repository" fun r v => { r with repository := v },
    optional "applyEndPatternLast" (readSwitch depth) fun r v =>
      { r with applyEndPatternLast := v }]

def readRule : Nat → Read RuleDescription
  | 0 => readRecord "struct RawRule" 0 [] {}
  | 1 => readRecord "struct RawRule" 1 [] {}
  | depth + 2 =>
    readRecord "struct RawRule" (depth + 2) (ruleMembers (depth + 1) (readRule depth)) {}

def grammarMembers (depth : Nat) : List (Member GrammarDescription) :=
  let rule := readRule (depth - 1)
  [⟨"scopeName", true, fun g => return { g with scopeName := ← readString }⟩,
    text "name" fun g v => { g with name := v },
    ⟨"fileTypes", false, fun g => return { g with fileTypes := ← readSequence depth readString }⟩,
    ⟨"patterns", false, fun g => return { g with patterns := ← readSequence depth rule }⟩,
    ⟨"repository", false, fun g => return { g with repository := ← readDictionary depth rule }⟩]

/-- Lists and objects may be nested this deep, less one. -/
def depthLimit : Nat := 128

def readGrammar : Read GrammarDescription :=
  readRecord "struct RawGrammar" depthLimit (grammarMembers (depthLimit - 1)) ⟨"", none, [], [], []⟩

end Description

def GrammarDescription.ofText (text : String) : Except JsonError GrammarDescription :=
  whole Description.readGrammar text

end GrammarScopes
