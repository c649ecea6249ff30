import GrammarScopes.Text.Class

/-!
Cutting text at separators.
-/

namespace GrammarScopes.Text

def splitOnce (mark : Char) : List Char → Option (List Char × List Char)
  | [] => none
  | c :: cs =>
    if c = mark then some ([], cs)
    else (splitOnce mark cs).map fun (before, after) => (c :: before, after)

def splitAll (mark : Char) : List Char → List (List Char)
  | [] => [[]]
  | c :: cs =>
    if c = mark then [] :: splitAll mark cs
    else match splitAll mark cs with
      | [] => [[c]]
      | piece :: rest => (c :: piece) :: rest

def words : List Char → List (List Char)
  | [] => []
  | c :: cs =>
    if isBlank c then words cs
    else match cs with
      | [] => [[c]]
      | d :: _ =>
        if isBlank d then [c] :: words cs
        else match words cs with
          | [] => [[c]]
          | w :: ws => (c :: w) :: ws

end GrammarScopes.Text
