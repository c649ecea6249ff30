import GrammarScopes.Decimal.Shortest
import GrammarScopes.Dictionary
import GrammarScopes.Json.Error
import GrammarScopes.Text.Class
import GrammarScopes.Text.Units

/-!
Reading JSON.  A reader takes its value off the front of the text; lists and objects are read by
folding over their items, so that a value of any type can be read without a tree in between, and
the first fault in the order of the text is the one that is reported.
-/

namespace GrammarScopes.Json

abbrev Read := StateT (List Char) (Except JsonError)

namespace Read

def isBlank (c : Char) : Bool := c == ' ' || c == '\n' || c == '\t' || c == '\r'

/-- The next character that is not blank; it stays. -/
def peek : Read (Option Char) := do
  let cs := (← get).dropWhile isBlank
  set cs
  return cs.head?

def next : Read (Option Char) := do
  match ← get with
  | [] => return none
  | c :: cs => set cs; return some c

def peekOr (e : JsonError) : Read Char := do
  match ← peek with
  | some c => return c
  | none => throw e

def word : List Char → Read Unit
  | [] => return
  | w :: ws => do
    match ← next with
    | none => throw .endInValue
    | some c => if c == w then word ws else throw .expectedWord

/-! ### Strings -/

def hexUnit (cs : List Char) : Except JsonError (Nat × List Char) :=
  if Text.byteCount (cs.take 4) < 4 then .error .endInString
  else match (cs.take 4).mapM Text.hexValue? with
    | some [a, b, c, d] => .ok (((a * 16 + b) * 16 + c) * 16 + d, cs.drop 4)
    | _ => .error .invalidEscape

def secondUnit (first : Nat) (cs : List Char) : Except JsonError (Char × List Char) :=
  match cs with
  | [] => .error .endInString
  | ['\\'] => .error .endInString
  | '\\' :: 'u' :: cs => do
    let (second, cs) ← hexUnit cs
    if 0xdc00 ≤ second && second ≤ 0xdfff then
      return (Char.ofNat ((first - 0xd800) * 0x400 + (second - 0xdc00) + 0x10000), cs)
    else throw .loneSurrogate
  | _ => .error .unfinishedPair

/-- The character after a backslash and a `u`.  Where the string is skipped, `strict` is false and
halves of pairs may stand alone. -/
def unicodeEscape (strict : Bool) (cs : List Char) : Except JsonError (Char × List Char) := do
  let (n, cs) ← hexUnit cs
  if !strict then return ('?', cs)
  if 0xdc00 ≤ n && n ≤ 0xdfff then throw .loneSurrogate
  if 0xd800 ≤ n && n ≤ 0xdbff then secondUnit n cs
  else return (Char.ofNat n, cs)

def letterEscape? : Char → Option Char
  | '"' => some '"'
  | '\\' => some '\\'
  | '/' => some '/'
  | 'b' => some '\x08'
  | 'f' => some '\x0c'
  | 'n' => some '\n'
  | 'r' => some '\r'
  | 't' => some '\t'
  | _ => none

/-- The characters of a string up to its closing quote; `seen` are those read so far, the last one
first. -/
def stringTail (strict : Bool) :
    Nat → List Char → List Char → Except JsonError (List Char × List Char)
  | 0, _, _ => .error .endInString
  | n + 1, seen, cs =>
    match cs with
    | [] => .error .endInString
    | '"' :: cs => .ok (seen.reverse, cs)
    | ['\\'] => .error .endInString
    | '\\' :: 'u' :: cs => do
      let (c, cs) ← unicodeEscape strict cs
      stringTail strict n (c :: seen) cs
    | '\\' :: e :: cs =>
      match letterEscape? e with
      | some c => stringTail strict n (c :: seen) cs
      | none => .error .invalidEscape
    | c :: cs =>
      if c.toNat < 0x20 then .error .controlCharacter else stringTail strict n (c :: seen) cs

def string (strict : Bool) : Read String := do
  let cs ← get
  match stringTail strict (cs.length + 1) [] cs with
  | .ok (s, cs) => set cs; return String.ofList s
  | .error e => throw e

/-! ### Numbers -/

inductive Number
  | integer (n : Int)
  | real (x : Float)

def largestWord : Nat := Nat.pow 2 64 - 1

/-- The number of leading digits that fit in a machine word together with `n`, their value, and the
digits left. -/
def fittingDigits : Nat → List Char → Nat × Nat × List Char
  | n, [] => (0, n, [])
  | n, c :: cs =>
    let m := n * 10 + (c.toNat - 48)
    if m > largestWord then (0, n, c :: cs)
    else
      let (count, value, rest) := fittingDigits m cs
      (count + 1, value, rest)

def powerOfTen (e : Nat) : Float := Float.ofScientific 1 false e

def scale : Nat → Float → Int → Except JsonError Float
  | 0, x, _ => .ok x
  | n + 1, x, e =>
    if e.natAbs ≤ 308 then
      if e ≥ 0 then
        let y := x * powerOfTen e.natAbs
        if y.isInf then .error .numberOutOfRange else .ok y
      else .ok (x / powerOfTen e.natAbs)
    else if x == 0.0 then .ok x
    else if e ≥ 0 then .error .numberOutOfRange
    else scale n (x / powerOfTen 308) (e + 308)

def real (negative : Bool) (significand : Nat) (exponent : Int) : Read Number := do
  match scale (exponent.natAbs / 308 + 2) (UInt64.ofNat significand).toFloat exponent with
  | .ok x => return .real (if negative then -x else x)
  | .error e => throw e

def digits : Read (List Char) := do
  let cs ← get
  let ds := cs.takeWhile Char.isDigit
  set (cs.drop ds.length)
  return ds

def exponentPart (negative : Bool) (significand : Nat) (start : Int) : Read Number := do
  discard next
  let positive ← match (← get).head? with
    | some '+' => do discard next; pure true
    | some '-' => do discard next; pure false
    | _ => pure true
  match (← get).head? with
  | none => throw .endInValue
  | some c =>
    if !c.isDigit then throw .invalidNumber
    let e : Nat := (← digits).foldl (fun n d => n * 10 + (d.toNat - 48)) 0
    -- An exponent of more than 32 bits decides the value by its sign alone.
    if e > 2147483647 then
      if significand != 0 && positive then throw .numberOutOfRange
      return .real (if negative then -0.0 else 0.0)
    real negative significand (if positive then start + (e : Int) else start - (e : Int))

def afterFraction (negative : Bool) (significand : Nat) (exponent : Int) : Read Number := do
  match (← get).head? with
  | some 'e' | some 'E' => exponentPart negative significand exponent
  | _ => real negative significand exponent

def fractionPart (negative : Bool) (significand : Nat) (exponent : Int) : Read Number := do
  discard next
  let ds ← digits
  if ds.isEmpty then
    if (← get).isEmpty then throw .endInValue else throw .invalidNumber
  let (count, n, _) := fittingDigits significand ds
  afterFraction negative n (exponent - (count : Int))

def number (negative : Bool) : Read Number := do
  match (← get).head? with
  | none => throw .endInValue
  | some c =>
    if !c.isDigit then throw .invalidNumber
    let ds ← digits
    if c == '0' && ds.length > 1 then throw .invalidNumber
    let (_, n, rest) := fittingDigits 0 ds
    let exponent := (rest.length : Int)
    match (← get).head? with
    | some '.' => fractionPart negative n exponent
    | some 'e' | some 'E' => exponentPart negative n exponent
    | _ =>
      if !rest.isEmpty then real negative n exponent
      else if !negative then return .integer n
      -- What is below the range of integers is no integer, and neither is a negative zero.
      else if n == 0 || n > Nat.pow 2 63 then return .real (-(UInt64.ofNat n).toFloat)
      else return .integer (-n)

def skipNumber : Read Unit := do
  match (← get).head? with
  | none => throw .invalidNumber
  | some c =>
    if !c.isDigit then throw .invalidNumber
    let ds ← digits
    if c == '0' && ds.length > 1 then throw .invalidNumber
    if (← get).head? == some '.' then
      discard next
      if (← digits).isEmpty then throw .invalidNumber
    if (← get).head? == some 'e' || (← get).head? == some 'E' then
      discard next
      if (← get).head? == some '+' || (← get).head? == some '-' then discard next
      if (← digits).isEmpty then throw .invalidNumber

/-! ### Lists and objects -/

/-- Whether another item follows, when the opening bracket and `isFirst` or more items are read. -/
def hasItem (isFirst : Bool) : Read Bool := do
  match ← peek with
  | none => throw .endInList
  | some ']' => return false
  | some c =>
    if isFirst then return true
    if c != ',' then throw .expectedListEnd
    discard next
    match ← peek with
    | none => throw .endInValue
    | some ']' => throw .trailingComma
    | some _ => return true

/-- Reads items up to the closing bracket, which stays; `step` reads one. -/
def foldItems {α : Type} (step : α → Read α) : Nat → Bool → α → Read α
  | 0, _, a => return a
  | n + 1, isFirst, a => do
    if ← hasItem isFirst then foldItems step n false (← step a) else return a

def endList : Read Unit := do
  match ← peek with
  | none => throw .endInList
  | some ']' => discard next
  | some ',' =>
    discard next
    match ← peek with
    | some ']' => throw .trailingComma
    | _ => throw .trailingCharacters
  | some _ => throw .trailingCharacters

def hasMember (isFirst : Bool) : Read Bool := do
  match ← peek with
  | none => throw .endInObject
  | some '\x7d' => return false
  | some c =>
    if isFirst then
      if c == '"' then return true else throw .keyNotString
    if c != ',' then throw .expectedObjectEnd
    discard next
    match ← peek with
    | none => throw .endInValue
    | some '"' => return true
    | some '\x7d' => throw .trailingComma
    | some _ => throw .keyNotString

def colon : Read Unit := do
  match ← peek with
  | none => throw .endInObject
  | some ':' => discard next
  | some _ => throw .expectedColon

/-- Reads members up to the closing brace, which is taken; `step` is given the key, and reads the
colon and the value. -/
def foldMembers {α : Type} (step : α → String → Read α) : Nat → Bool → α → Read α
  | 0, _, a => return a
  | n + 1, isFirst, a => do
    if ← hasMember isFirst then
      discard next
      let key ← string true
      foldMembers step n false (← step a key)
    else
      discard next
      return a

/-- The bracket that opens a value nested at most `depth` deep, the value itself included. -/
def enter (depth : Nat) : Read Unit :=
  if depth < 2 then throw .nestedTooDeep else discard next

def readList {α : Type} (depth : Nat) (step : α → Read α) (a : α) : Read α := do
  enter depth
  let a ← foldItems step ((← get).length + 1) true a
  endList
  return a

def readObject {α : Type} (depth : Nat) (step : α → String → Read α) (a : α) : Read α := do
  enter depth
  foldMembers step ((← get).length + 1) true a

/-! ### Skipped values -/

inductive Frame
  | list
  | object
  deriving DecidableEq

def skipKey : Read Unit := do
  match ← peek with
  | none => throw .endInObject
  | some '"' => discard next
  | some _ => throw .keyNotString
  discard (string false)
  colon

/-- Whether all is read, after a closing bracket or a value: `open` are the frames not yet closed.
Takes closing brackets and at most one comma. -/
def skipEnds : Nat → Bool → List Frame → Read (List Frame)
  | 0, _, frames => return frames
  | _, _, [] => return []
  | n + 1, afterValue, frame :: outer => do
    match ← peek, frame with
    | none, .list => throw .endInList
    | none, .object => throw .endInObject
    | some ']', .list => discard next; skipEnds n true outer
    | some '\x7d', .object => discard next; skipEnds n true outer
    | some c, _ =>
      if !afterValue then return frame :: outer
      if c == ',' then
        discard next
        return frame :: outer
      if frame == .list then throw .expectedListEnd else throw .expectedObjectEnd

def skipFrom : Nat → List Frame → Read Unit
  | 0, _ => return
  | n + 1, frames => do
    let c ← peekOr .endInValue
    let opened ← match c with
      | 'n' => do discard next; word ['u', 'l', 'l']; pure none
      | 't' => do discard next; word ['r', 'u', 'e']; pure none
      | 'f' => do discard next; word ['a', 'l', 's', 'e']; pure none
      | '-' => do discard next; skipNumber; pure none
      | '"' => do discard next; discard (string false); pure none
      | '[' => do discard next; pure (some Frame.list)
      | '\x7b' => do discard next; pure (some Frame.object)
      | c => do if c.isDigit then skipNumber else throw .expectedValue
                pure none
    let frames ← skipEnds ((← get).length + 1) opened.isNone (opened.toList ++ frames)
    match frames with
    | [] => return
    | frame :: _ =>
      if frame == .object then skipKey
      skipFrom n frames

def skipValue : Read Unit := do skipFrom ((← get).length + 1) []

/-! ### Values of a given kind -/

def Number.shape : Number → JsonShape
  | integer n => .integer n
  | real x => .real (Decimal.renderFloat x)

def refuse {α : Type} (expected : String) : Read α := do
  let wrong (s : JsonShape) : Read α := throw (.wrongKind s expected)
  match (← get).head? with
  | some 'n' => discard next; word ['u', 'l', 'l']; wrong .null
  | some 't' => discard next; word ['r', 'u', 'e']; wrong (.bool true)
  | some 'f' => discard next; word ['a', 'l', 's', 'e']; wrong (.bool false)
  | some '-' => discard next; wrong (← number true).shape
  | some '"' => discard next; wrong (.string (← string true))
  | some '[' => wrong .list
  | some '\x7b' => wrong .object
  | some c => if c.isDigit then wrong (← number false).shape else throw .expectedValue
  | none => throw .expectedValue

def readString : Read String := do
  if (← peekOr .endInValue) == '"' then
    discard next
    string true
  else refuse "a string"

def readOptional {α : Type} (read : Read α) : Read (Option α) := do
  if (← peek) == some 'n' then
    discard next
    word ['u', 'l', 'l']
    return none
  else return some (← read)

inductive Scalar
  | bool (b : Bool)
  | integer (n : Int)
  | otherwise

def Number.scalar : Number → Scalar
  | integer n => .integer n
  | real _ => .otherwise

/-- Reads a value of any kind, nested at most `depth` deep, and tells booleans and integers from
the rest. -/
def readScalar : Nat → Read Scalar
  | 0 => throw .nestedTooDeep
  | depth + 1 => do
    match ← peekOr .endInValue with
    | 'n' => discard next; word ['u', 'l', 'l']; return .otherwise
    | 't' => discard next; word ['r', 'u', 'e']; return .bool true
    | 'f' => discard next; word ['a', 'l', 's', 'e']; return .bool false
    | '-' => discard next; return (← number true).scalar
    | '"' => discard next; discard (string true); return .otherwise
    | '[' =>
      readList (depth + 1) (fun _ => discard (readScalar depth)) ()
      return .otherwise
    | '\x7b' =>
      readObject (depth + 1) (fun _ _ => do colon; discard (readScalar depth)) ()
      return .otherwise
    | c => if c.isDigit then return (← number false).scalar else throw .expectedValue

/-! ### Lists, dictionaries and records -/

def readSequence {α : Type} (depth : Nat) (read : Read α) : Read (List α) := do
  if (← peekOr .endInValue) == '[' then
    return (← readList depth (fun items => return (← read) :: items) []).reverse
  else refuse "a sequence"

/-- An object with any keys; the last of equal keys holds. -/
def readDictionary {α : Type} (depth : Nat) (read : Read α) : Read (List (String × α)) := do
  if (← peekOr .endInValue) == '\x7b' then
    readObject depth (fun entries key => do
      colon
      return Dictionary.insert key (← read) entries) []
  else refuse "a map"

structure Member (σ : Type) where
  key : String
  isRequired : Bool
  read : σ → Read σ

/-- The members in order, from the items of a list; those at the end may be left out unless they are
required. -/
def readPositions {σ : Type} (expected : String) : Nat → List (Member σ) → σ → Read σ
  | _, [], s => return s
  | index, m :: ms, s => do
    if ← hasItem (index == 0) then readPositions expected (index + 1) ms (← m.read s)
    else if m.isRequired then throw (.tooFewElements index expected)
    else readPositions expected (index + 1) ms s

/-- The member with a given key, which must not have been read before; other keys are skipped. -/
def readMember {σ : Type} (members : List (Member σ)) (state : List String × σ) (key : String) :
    Read (List String × σ) := do
  match members.find? (·.key == key) with
  | some m =>
    if state.1.contains key then throw (.duplicateField key)
    colon
    return (key :: state.1, ← m.read state.2)
  | none =>
    colon
    skipValue
    return state

/-- A record, written as an object or as a list of its members in order. -/
def readRecord {σ : Type} (name : String) (depth : Nat) (members : List (Member σ)) (blank : σ) :
    Read σ := do
  match ← peekOr .endInValue with
  | '[' =>
    enter depth
    let expected := name ++ " with " ++ toString members.length ++ " elements"
    let s ← readPositions expected 0 members blank
    endList
    return s
  | '\x7b' =>
    let (seen, s) ← readObject depth (readMember members) ([], blank)
    match members.find? fun m => m.isRequired && !seen.contains m.key with
    | some m => throw (.missingField m.key)
    | none => return s
  | _ => refuse name

def whole {α : Type} (read : Read α) (text : String) : Except JsonError α := do
  let (a, rest) ← read.run text.toList
  if rest.all isBlank then return a else throw .trailingCharacters

end Read

end GrammarScopes.Json
