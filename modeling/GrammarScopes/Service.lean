import GrammarScopes.Loading.Registry
import GrammarScopes.Resolver
import GrammarScopes.Settings.Basic

/-!
Questions about documents.  Each is answered with the grammar of a root scope, which is loaded when it
is first needed.
-/

namespace GrammarScopes

inductive Question
  | grammar (scope : String)
  | load (scope : String)
  | scopes (document : Document) (position : Position) (root : Option String)
  | style (document : Document) (position : Position) (root : Option String)
  | tokens (document : Document) (root : Option String)

inductive Reply
  | grammar (scopeName : String) (ruleCount : Nat)
  | noGrammar
  | scopes (scopes : Option (List String))
  | style (style : CommentStyle)
  | tokens (lines : List (List Token))
  | failed (e : ScopeError)
  deriving Repr

structure Service where
  registry : Registry
  rootScope : String
  maxLineLength : Nat

namespace Question

def scope (q : Question) (defaultRoot : String) : String :=
  match q with
  | grammar scope | load scope => scope
  | scopes _ _ root | style _ _ root | tokens _ root => root.getD defaultRoot

/-- The scopes at a cursor; none without a grammar. -/
def scopesWith (maxLength : Nat) (d : Document) (p : Position) (root : String) :
    Except ScopeError Grammar → Option (List String)
  | .ok g => g.scopesAt? maxLength d p root
  | .error _ => none

def tokensWith (maxLength : Nat) (d : Document) :
    Except ScopeError Grammar → Except ScopeError (List (List Token))
  | .ok g => (g.tokenizeDocument maxLength d).mapError .grammar
  | .error e => .error e

def reply (q : Question) (defaultRoot : String) (maxLength : Nat)
    (result : Except ScopeError Grammar) : Reply :=
  let root := q.scope defaultRoot
  match q, result with
  | grammar _, .ok g | load _, .ok g => .grammar g.scopeName g.ruleCount
  | grammar _, .error _ => .noGrammar
  | load _, .error e => .failed e
  | scopes d p _, result => .scopes (scopesWith maxLength d p root result)
  | style d p _, result => .style (.ofScopes (scopesWith maxLength d p root result))
  | tokens d _, result =>
    match tokensWith maxLength d result with
    | .ok lines => .tokens lines
    | .error e => .failed e

end Question

namespace Service

def ofSettings (s : Settings) (files : FileTree) : Service where
  registry := { table := s.table, world := { source := s.source files, backend := .immediate } }
  rootScope := s.rootScope
  maxLineLength := s.maxLineLength

def reply (s : Service) (q : Question) (result : Except ScopeError Grammar) : Reply :=
  q.reply s.rootScope s.maxLineLength result

/-- Answers a question at once, where nothing is held back. -/
def answer (s : Service) (q : Question) : Service × Reply :=
  let (registry, result) := s.registry.load (q.scope s.rootScope)
  ({ s with registry := registry }, s.reply q result)

def grammar (s : Service) (root : Option String) : Except ScopeError Grammar :=
  (s.registry.load (root.getD s.rootScope)).2

def scopesAt? (s : Service) (d : Document) (p : Position) (root : Option String) :
    Option (List String) :=
  Question.scopesWith s.maxLineLength d p (root.getD s.rootScope) (s.grammar root)

def commentStyleAt (s : Service) (d : Document) (p : Position) (root : Option String) :
    CommentStyle :=
  .ofScopes (s.scopesAt? d p root)

def tokenize (s : Service) (d : Document) (root : Option String) :
    Except ScopeError (List (List Token)) :=
  Question.tokensWith s.maxLineLength d (s.grammar root)

end Service

end GrammarScopes
