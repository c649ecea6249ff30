import GrammarScopes.Text.CaseMap

/-!
The comment markers that apply inside a scope stack.
-/

namespace GrammarScopes

inductive CommentStyle
  | line
  | block
  | markup
  deriving DecidableEq, Repr, Inhabited

namespace CommentStyle

def occurs (word : List Char) : List Char → Bool
  | [] => word.isEmpty
  | c :: cs => word.isPrefixOf (c :: cs) || occurs word cs

def mentions (word : String) (scope : String) : Bool :=
  occurs word.toList (Text.lower scope.toList)

/-- Script scopes win over style scopes; no stack at all means markup. -/
def ofScopes : Option (List String) → CommentStyle
  | none => markup
  | some scopes =>
    if scopes.any fun s => mentions "javascript" s || mentions "source.js" s then line
    else if scopes.any (mentions "css") then block
    else markup

def name : CommentStyle → String
  | line => "line"
  | block => "block"
  | markup => "markup"

def opening : CommentStyle → String
  | line => "//"
  | block => "/*"
  | markup => "<!--"

/-- The marker that closes a comment; a line comment has none. -/
def closing? : CommentStyle → Option String
  | line => none
  | block => some "*/"
  | markup => some "-->"

def display (s : CommentStyle) : String :=
  match s.closing? with
  | some close => s.name ++ " " ++ s.opening ++ " " ++ close
  | none => s.name ++ " " ++ s.opening

end CommentStyle

end GrammarScopes
