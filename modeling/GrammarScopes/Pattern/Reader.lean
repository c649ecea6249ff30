import GrammarScopes.Pattern.Error
import GrammarScopes.Pattern.Literal
import GrammarScopes.Pattern.Property

/-!
Reading: what is left of the pattern, and the groups opened so far.
-/

namespace GrammarScopes.Pattern

structure Options where
  anyCase : Bool := false
  extended : Bool := false
  dotAll : Bool := false
  asciiWord : Bool := false
  asciiDigit : Bool := false
  asciiSpace : Bool := false
  asciiBrackets : Bool := false
  deriving DecidableEq, Repr

structure ReadState where
  rest : List Char
  groupCount : Nat
  names : List (String × Nat)

abbrev Read := StateT ReadState (Except PatternError)

namespace Read

def rest : Read (List Char) := return (← get).rest

def setRest (cs : List Char) : Read Unit := modify fun s => { s with rest := cs }

def next? : Read (Option Char) := do
  match ← rest with
  | [] => return none
  | c :: cs => setRest cs; return some c

def take (c : Char) : Read Bool := do
  match ← rest with
  | d :: cs => if d == c then setRest cs; return true else return false
  | [] => return false

def span (p : Char → Bool) (most : Nat) : Read (List Char) := do
  let cs ← rest
  let run := (cs.take most).takeWhile p
  setRest (cs.drop run.length)
  return run

def groupsNamed (name : String) : Read (List Nat) :=
  return ((← get).names.filter (·.1 == name)).map (·.2)

end Read

def digitsValue (base : Nat) (ds : List Char) : Nat :=
  ds.foldl (fun n d => base * n + (Text.hexValue? d).getD 0) 0

def isOctal (c : Char) : Bool := '0' ≤ c && c ≤ '7'

def largestNumber : Nat := 2147483647

def readNumber (error : PatternError) : Read (Option Nat) := do
  let ds ← Read.span Char.isDigit (← Read.rest).length
  if ds.isEmpty then return none
  let n := digitsValue 10 ds
  if n > largestNumber then throw error
  return some n

def codeChar (n : Nat) : Except PatternError Char :=
  if n > 0x10ffff then .error .codeTooLarge
  else if 0xd800 ≤ n ∧ n ≤ 0xdfff then .error .invalidCode
  else .ok (Char.ofNat n)

/-- What follows a comment group, unless the comment does not end. -/
def afterComment? : List Char → Option (List Char)
  | [] => none
  | ')' :: cs => some cs
  | '\\' :: _ :: cs => afterComment? cs
  | _ :: cs => afterComment? cs

def isSkippedBlank (c : Char) : Bool :=
  c == ' ' || c == '\t' || c == '\n' || c == '\r' || c == '\x0c'

/-- Drops what carries no meaning: comment groups, and in extended mode blanks and comments that
run to the end of their line. -/
def dropIgnored (extended : Bool) : Nat → List Char → Except PatternError (List Char)
  | 0, _ => .error .nestedTooDeep
  | n + 1, cs =>
    match cs with
    | '(' :: '?' :: '#' :: cs =>
      match afterComment? cs with
      | some cs => dropIgnored extended n cs
      | none => .error .endInGroup
    | c :: cs =>
      if extended && isSkippedBlank c then dropIgnored extended n cs
      else if extended && c == '#' then dropIgnored extended n ((cs.dropWhile (· != '\n')).drop 1)
      else .ok (c :: cs)
    | [] => .ok []

def skipIgnored (o : Options) : Read Unit := do
  let cs ← Read.rest
  let cs ← dropIgnored o.extended (cs.length + 1) cs
  Read.setRest cs

/-! ### Names of groups -/

inductive GroupName
  | label
  | number (n : Nat)
  | relative (n : Int)
  deriving DecidableEq, Repr

/-- The part of a faulty name that a message shows: up to the delimiter, unless that ends the
pattern. -/
def faultyTail (close : Char) : List Char → List Char
  | [] => []
  | c :: cs =>
    if c == close || c == ')' then (if cs.isEmpty then [c] else [])
    else c :: faultyTail close cs

/-- The characters of a name after the first, up to the delimiter, and what follows it.  `seen`
are the characters read so far, the last one first, and `digits` counts the digits of a number. -/
def nameTail (close : Char) (numeric : Bool) :
    Nat → List Char → List Char → Except PatternError (List Char × List Char)
  | _, seen, [] => .error (.invalidGroupName (String.ofList seen.reverse))
  | digits, seen, c :: cs =>
    let shown (tail : List Char) := String.ofList (seen.reverse ++ c :: tail)
    if c == close || c == ')' then
      if numeric && digits == 0 then .error (.invalidGroupName (shown (faultyTail close cs)))
      else if c == close then .ok (seen.reverse, cs)
      else .error (.invalidGroupName (shown cs))
    else if numeric && c.isDigit then nameTail close numeric (digits + 1) (c :: seen) cs
    else if !Text.isWord c then .error (.invalidGroupNameChar (shown (faultyTail close cs)))
    else if numeric then .error (.invalidGroupName (shown (faultyTail close cs)))
    else nameTail close numeric digits (c :: seen) cs

/-- A name up to its closing delimiter.  Only a reference may be a number. -/
def readName (close : Char) (reference : Bool) : Read (String × GroupName) := do
  match ← Read.rest with
  | [] => throw .emptyGroupName
  | c :: cs =>
    let shown := String.ofList (c :: faultyTail close cs)
    let numeric := c.isDigit || c == '-' || c == '+'
    if c == close then throw .emptyGroupName
    if numeric && !reference then throw (.invalidGroupName shown)
    if !numeric && !Text.isWord c then throw (.invalidGroupNameChar shown)
    let (name, rest) ← nameTail close numeric (if c.isDigit then 1 else 0) [c] cs
    Read.setRest rest
    let text := String.ofList name
    if !numeric then return (text, .label)
    let n := digitsValue 10 (name.filter Char.isDigit)
    if n > largestNumber then throw .numberTooLarge
    if c.isDigit then return (text, .number n)
    if n == 0 then throw (.invalidGroupName text)
    return (text, .relative (if c == '-' then -n else n))

def absoluteGroup (opened : Nat) (n : Int) : Int :=
  if n > 0 then opened + n else opened + 1 + n

end GrammarScopes.Pattern
