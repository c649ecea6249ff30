import GrammarScopes.FileTree
import GrammarScopes.Loading.Source

/-!
Settings: the scope of documents, how long a line may be, and where grammars come from.
-/

namespace GrammarScopes

structure Settings where
  rootScope : String := "text.html.basic"
  /-- Longer lines get no tokens. -/
  maxLineLength : Nat := 10000
  /-- Where the files of grammars are; without it, grammars are the bundled ones. -/
  directory : Option FilePath := none
  scopes : GrammarTable := []
  deriving DecidableEq, Repr, Inhabited

namespace Settings

/-- The locations of grammars; without any, those of the bundled ones. -/
def table (s : Settings) : GrammarTable :=
  if s.scopes.isEmpty then .bundled else s.scopes

def source (s : Settings) (files : FileTree) : Source :=
  match s.directory with
  | some directory => .directory directory files
  | none => .bundled

def rebase (s : Settings) (base : FilePath) : Settings :=
  { s with directory := s.directory.map (FilePath.join base) }

theorem rebase_of_isAbsolute {s : Settings} {d base : FilePath} (hs : s.directory = some d)
    (hd : FilePath.isAbsolute d) : s.rebase base = s := by
  cases s
  simp_all [rebase, FilePath.join]

end Settings

end GrammarScopes
