import GrammarScopes.Pattern.Reader

/-!
Escapes: what stands after a backslash for a character or for a set of characters.
-/

namespace GrammarScopes.Pattern

def limited (ascii : Bool) (s : NamedSet) : CharSet :=
  if ascii then .and (.named s) (.named .ascii) else .named s

def wordSet (o : Options) : CharSet := limited o.asciiWord .word

def classEscape? (o : Options) : Char → Option CharSet
  | 'w' => some (wordSet o)
  | 'W' => some (.not (wordSet o))
  | 'd' => some (limited o.asciiDigit .digit)
  | 'D' => some (.not (limited o.asciiDigit .digit))
  | 's' => some (limited o.asciiSpace .space)
  | 'S' => some (.not (limited o.asciiSpace .space))
  | 'h' => some (.named .xdigit)
  | 'H' => some (.not (.named .xdigit))
  | _ => none

/-- The control character that a letter after a backslash stands for; other characters stand for
themselves. -/
def controlLetter : Char → Nat
  | 'n' => 10
  | 't' => 9
  | 'r' => 13
  | 'f' => 12
  | 'a' => 7
  | 'b' => 8
  | 'e' => 27
  | 'v' => 11
  | c => c.toNat

def readControl (inner : Read Nat) : Read Nat := do
  match ← Read.next? with
  | none => throw .endAtControl
  | some '?' => return 127
  | some '\\' => return (← inner) &&& 0x9f
  | some c => return c.toNat &&& 0x9f

def readMeta (inner : Read Nat) : Read Nat := do
  match ← Read.next? with
  | none => throw .endAtMeta
  | some '\\' => return ((← inner) &&& 0xff) ||| 0x80
  | some c => return (c.toNat &&& 0xff) ||| 0x80

/-- The code of an escape that starts with the next character: a control or meta combination, or a
single letter. -/
def readEscapedCode : Nat → Read Nat
  | 0 => throw .nestedTooDeep
  | n + 1 => do
    match ← Read.next? with
    | none => throw .endAtEscape
    | some 'M' =>
      match ← Read.next? with
      | none => throw .endAtMeta
      | some '-' => readMeta (readEscapedCode n)
      | some _ => throw .metaSyntax
    | some 'C' =>
      match ← Read.next? with
      | none => throw .endAtControl
      | some '-' => readControl (readEscapedCode n)
      | some _ => throw .controlSyntax
    | some 'c' => readControl (readEscapedCode n)
    | some c => return controlLetter c

def readEscape : Read Nat := do readEscapedCode (← Read.rest).length.succ

/-- A number in braces, which begin with the next character; `none` leaves all as it was. -/
def bracedCode? (isDigit : Char → Bool) (base most : Nat) : Read (Option Nat) := do
  let start ← Read.rest
  if !(← Read.take '\x7b') then return none
  let ds ← Read.span isDigit most
  if let some c := (← Read.rest).head? then
    if isDigit c then throw .codeTooLong
  if !ds.isEmpty && (← Read.take '\x7d') then return some (digitsValue base ds)
  Read.setRest start
  return none

inductive Numeric
  | code (n : Nat)
  /-- A single byte of UTF-8, and the base it is written in. -/
  | byte (n base : Nat)
  deriving DecidableEq, Repr

/-- The number after `\x`, `\u` or `\o`, whose letter has been taken.  Without a number the letter
stands for itself. -/
def readNumeric? (letter : Char) : Read (Option Numeric) := do
  if (← Read.rest).isEmpty then return none
  match letter with
  | 'x' =>
    if (← Read.rest).head? == some '\x7b' then
      return (← bracedCode? Text.isHexDigit 16 8).map .code
    return some (.byte (digitsValue 16 (← Read.span Text.isHexDigit 2)) 16)
  | 'u' =>
    let ds ← Read.span Text.isHexDigit 4
    if ds.length < 4 then throw .invalidCode
    return some (.code (digitsValue 16 ds))
  | 'o' => return (← bracedCode? isOctal 8 11).map .code
  | _ => return none

def formLength (lead : Nat) : Nat :=
  if 0xc2 ≤ lead ∧ lead ≤ 0xdf then 2
  else if 0xe0 ≤ lead ∧ lead ≤ 0xef then 3
  else if 0xf0 ≤ lead ∧ lead ≤ 0xf4 then 4
  else 1

def decodeBytes (bytes : List Nat) : Except PatternError Nat :=
  let text := ByteArray.mk (bytes.map UInt8.ofNat).toArray
  match String.fromUTF8? text with
  | some s =>
    match s.toList with
    | [c] => .ok c.toNat
    | _ => .error .invalidCode
  | none => .error .invalidCode

def nextByte? (octal : Nat) : Read (Option (Nat × Nat)) := do
  match ← Read.rest with
  | '\\' :: c :: cs =>
    if c == 'x' && !cs.isEmpty then
      if cs.head? == some '\x7b' then return none
      Read.setRest cs
      return some (digitsValue 16 (← Read.span Text.isHexDigit 2), 16)
    if !isOctal c then return none
    Read.setRest (c :: cs)
    return some (digitsValue 8 (← Read.span isOctal octal), 8)
  | _ => return none

/-- At most `n` more bytes; within a class only such as are written in the same base. -/
def moreBytes (sameBase : Option Nat) : Nat → Read (List Nat)
  | 0 => return []
  | n + 1 => do
    let start ← Read.rest
    match ← nextByte? 3 with
    | none => return []
    | some (b, base) =>
      if sameBase.isSome && sameBase != some base then
        Read.setRest start
        return []
      return b :: (← moreBytes sameBase n)

def completeBytes (lead : Nat) (sameBase : Option Nat) : Read Nat := do
  let more ← moreBytes sameBase (formLength lead - 1)
  if more.length + 1 < formLength lead then throw .tooShortBytes
  match decodeBytes (lead :: more) with
  | .ok n => return n
  | .error e => throw e

def readProperty : Read NamedSet := do
  let cs ← Read.rest
  let isEnd (c : Char) := c == '\x7d' || c == '(' || c == ')' || c == '\x7b' || c == '|'
  let name := cs.takeWhile fun c => !isEnd c
  let invalid := PatternError.invalidPropertyName (String.ofList name)
  match cs.drop name.length with
  | [] => throw .unclosedGroup
  | c :: cs =>
    if c != '\x7d' then throw invalid
    match propertySet? name with
    | some s => Read.setRest cs; return s
    | none => throw invalid

/-- A property, whose letter has been taken; without a brace the letter stands for itself. -/
def readProperty? (letter : Char) : Read (Option CharSet) := do
  if !(← Read.take '\x7b') then return none
  let negated := (← Read.take '^') != (letter == 'P')
  let s := CharSet.named (← readProperty)
  return some (if negated then .not s else s)

end GrammarScopes.Pattern
