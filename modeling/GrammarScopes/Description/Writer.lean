import GrammarScopes.Description.Basic
import GrammarScopes.Json.Value

/-!
Writing grammar descriptions as JSON: what is absent is left out.
-/

namespace GrammarScopes

def Switch.toJson : Switch → JsonValue
  | bool b => .bool b
  | number n => .number n

namespace Description

def member (key : String) (value : Option JsonValue) : List (String × JsonValue) :=
  value.toList.map fun v => (key, v)

mutual

def ruleJson : RuleDescription → JsonValue
  | ⟨reference, name, contentName, pattern, captures, beginPattern, beginCaptures, endPattern,
      endCaptures, whilePattern, whileCaptures, patterns, repository, applyEndPatternLast⟩ =>
    .object (member "include" (reference.map .string) ++ member "name" (name.map .string) ++
      member "contentName" (contentName.map .string) ++ member "match" (pattern.map .string) ++
      member "captures" (tableJson captures) ++ member "begin" (beginPattern.map .string) ++
      member "beginCaptures" (tableJson beginCaptures) ++ member "end" (endPattern.map .string) ++
      member "endCaptures" (tableJson endCaptures) ++ member "while" (whilePattern.map .string) ++
      member "whileCaptures" (tableJson whileCaptures) ++ member "patterns" (listJson patterns) ++
      member "repository" (tableJson repository) ++
      member "applyEndPatternLast" (applyEndPatternLast.map Switch.toJson))

def ruleItems : List RuleDescription → List JsonValue
  | [] => []
  | r :: rs => ruleJson r :: ruleItems rs

def ruleMembersJson : List (String × RuleDescription) → List (String × JsonValue)
  | [] => []
  | (key, r) :: rs => (key, ruleJson r) :: ruleMembersJson rs

def listJson : Option (List RuleDescription) → Option JsonValue
  | none => none
  | some rs => some (.list (ruleItems rs))

def tableJson : Option (List (String × RuleDescription)) → Option JsonValue
  | none => none
  | some rs => some (.object (ruleMembersJson rs))

end

end Description

open Description in
def GrammarDescription.toJson (g : GrammarDescription) : JsonValue :=
  .object ([("scopeName", .string g.scopeName)] ++ member "name" (g.name.map .string) ++
    (if g.fileTypes.isEmpty then [] else [("fileTypes", .list (g.fileTypes.map .string))]) ++
    [("patterns", .list (ruleItems g.patterns)),
      ("repository", .object (ruleMembersJson g.repository))])

end GrammarScopes
