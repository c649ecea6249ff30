import GrammarScopes.Dictionary
import GrammarScopes.Text.Split

/-!
Files by their paths, and how paths lead to them.
-/

namespace GrammarScopes

inductive FileContent
  | text (s : String)
  | binary
  deriving DecidableEq, Repr, Inhabited

inductive FileFault
  | notFound
  | notDirectory
  | isDirectory
  | notText
  | nulInPath
  deriving DecidableEq, Repr

def FileFault.message : FileFault → String
  | notFound => "No such file or directory (os error 2)"
  | notDirectory => "Not a directory (os error 20)"
  | isDirectory => "Is a directory (os error 21)"
  | notText => "stream did not contain valid UTF-8"
  | nulInPath => "file name contained an unexpected NUL byte"

abbrev FilePath := String

namespace FilePath

def isAbsolute (p : FilePath) : Bool := p.toList.head? == some '/'

def join (base p : FilePath) : FilePath :=
  if isAbsolute p then p
  else if base.isEmpty || base.toList.getLast? == some '/' then base ++ p
  else base ++ "/" ++ p

/-- The names of a path; an empty name at the end stands for a slash there. -/
def names (p : FilePath) : List String := (Text.splitAll '/' p.toList).map String.ofList

def parent (p : FilePath) : FilePath :=
  match (names p).dropLast with
  | [] => ""
  | first :: rest =>
    let kept := (rest.reverse.dropWhile fun n => n == "" || n == ".").reverse
    if kept.isEmpty && first == "" then "/" else "/".intercalate (first :: kept)

end FilePath

inductive FileBase
  | root
  | above (levels : Nat)
  deriving DecidableEq, Repr, Inhabited

structure FilePlace where
  base : FileBase
  /-- The names that lead to it, the last one first. -/
  reversed : List String := []
  deriving DecidableEq, Repr, Inhabited

namespace FilePlace

def ofBase (p : FilePath) : FilePlace :=
  if FilePath.isAbsolute p then { base := .root } else { base := .above 0 }

def up (at_ : FilePlace) : FilePlace :=
  match at_.reversed, at_.base with
  | _ :: rest, _ => { at_ with reversed := rest }
  | [], .root => at_
  | [], .above n => { base := .above (n + 1) }

def step (at_ : FilePlace) (name : String) : FilePlace :=
  if name == "" || name == "." then at_
  else if name == ".." then at_.up
  else { at_ with reversed := name :: at_.reversed }

/-- Where a path leads if all directories on it are there. -/
def ofPath (p : FilePath) : FilePlace := (FilePath.names p).foldl step (ofBase p)

def directories (at_ : FilePlace) : List FilePlace :=
  (List.range at_.reversed.length).map fun n =>
    { at_ with reversed := at_.reversed.drop (n + 1) }

end FilePlace

inductive FileNode
  | file (content : FileContent)
  | directory
  deriving DecidableEq, Repr

/-- Files and directories.  Those that paths start from are always there. -/
structure FileTree where
  files : List (FilePlace × FileContent) := []
  directories : List FilePlace := []
  deriving Repr, Inhabited

namespace FileTree

def remove (t : FileTree) (p : FilePath) : FileTree :=
  { t with files := t.files.filter (·.1 != FilePlace.ofPath p) }

def write (t : FileTree) (p : FilePath) (content : FileContent) : FileTree :=
  let place := FilePlace.ofPath p
  ⟨(place, content) :: (t.remove p).files, place.directories ++ t.directories⟩

def makeDirectory (t : FileTree) (p : FilePath) : FileTree :=
  let place := FilePlace.ofPath p
  { t with directories := place :: place.directories ++ t.directories }

def isDirectory (t : FileTree) (at_ : FilePlace) : Bool :=
  at_.reversed.isEmpty || t.directories.contains at_

def follow (t : FileTree) (at_ : FilePlace) : List String → Except FileFault FileNode
  | [] => .ok .directory
  | name :: rest =>
    let place := at_.step name
    match t.files.lookup place with
    | some content => if rest.isEmpty then .ok (.file content) else .error .notDirectory
    | none => if t.isDirectory place then follow t place rest else .error .notFound

def find (t : FileTree) (p : FilePath) : Except FileFault FileNode :=
  if p.toList.contains '\x00' then .error .nulInPath
  else if p.isEmpty then .error .notFound
  else t.follow (.ofBase p) (FilePath.names p)

def contains (t : FileTree) (p : FilePath) : Bool :=
  match t.find p with
  | .ok _ => true
  | .error _ => false

def readText (t : FileTree) (p : FilePath) : Except FileFault String :=
  match t.find p with
  | .ok (.file (.text s)) => .ok s
  | .ok (.file .binary) => .error .notText
  | .ok .directory => .error .isDirectory
  | .error e => .error e

end FileTree

end GrammarScopes
