import GrammarScopes.Text.Number

/-!
Quoted text in TOML: four ways to quote, and the one in which a text is written.  Reading what is
written gives the text back.
-/

namespace GrammarScopes.Toml

def isBlank (c : Char) : Bool := c == ' ' || c == '\t'

def isPlain (c : Char) : Bool := c == '\t' || (0x20 ≤ c.toNat && c != '\x7f')

/-- One mark on each side of a text, or three of them if the text is long. -/
structure Quote where
  mark : Char
  isLong : Bool
  deriving DecidableEq, Repr

namespace Quote

/-- Only the double mark allows escapes. -/
def hasEscapes (q : Quote) : Bool := q.mark == '"'

def delimiter (q : Quote) : List Char := List.replicate (if q.isLong then 3 else 1) q.mark

/-! ### Reading -/

def codeChar? (count : Nat) (cs : List Char) : Option (Char × List Char) :=
  if (cs.take count).length < count then none
  else
    (Text.inBase? 16 0 (cs.take count)).bind fun n =>
      if n.isValidChar then some (Char.ofNat n, cs.drop count) else none

def escape? : List Char → Option (Char × List Char)
  | 'b' :: cs => some ('\x08', cs)
  | 't' :: cs => some ('\t', cs)
  | 'n' :: cs => some ('\n', cs)
  | 'f' :: cs => some ('\x0c', cs)
  | 'r' :: cs => some ('\r', cs)
  | '"' :: cs => some ('"', cs)
  | '\\' :: cs => some ('\\', cs)
  | 'u' :: cs => codeChar? 4 cs
  | 'U' :: cs => codeChar? 8 cs
  | _ => none

def afterLineEnd? (cs : List Char) : Option (List Char) :=
  match cs.dropWhile isBlank with
  | '\n' :: cs => some (cs.dropWhile fun c => isBlank c || c == '\n')
  | _ => none

/-- Where a text starts with the marks that close it: the marks that still belong to it, and what
follows.  A long text may end in up to two marks of its own. -/
def close? (q : Quote) (cs : List Char) : Option (List Char × List Char) :=
  if q.isLong then
    let run := (cs.takeWhile (· == q.mark)).length
    if run < 3 then none
    else
      let own := min (run - 3) 2
      some (List.replicate own q.mark, cs.drop (own + 3))
  else some ([], cs.drop 1)

/-- The text up to the closing marks, and what follows; `seen` has been read, the last character
first. -/
def readTail (q : Quote) :
    Nat → List Char → List Char → Option (List Char × List Char)
  | 0, _, _ => none
  | _, _, [] => none
  | n + 1, seen, c :: cs =>
    if c == q.mark then
      match q.close? (c :: cs) with
      | some (own, rest) => some ((own ++ seen).reverse, rest)
      | none => readTail q n (c :: seen) cs
    else if c == '\\' && q.hasEscapes then
      match if q.isLong then afterLineEnd? cs else none with
      | some rest => readTail q n seen rest
      | none => (escape? cs).bind fun (c, rest) => readTail q n (c :: seen) rest
    else if isPlain c || (q.isLong && c == '\n') then readTail q n (c :: seen) cs
    else none

def read (q : Quote) (cs : List Char) : Option (List Char × List Char) :=
  -- A line end right after the opening marks does not belong to a long text.
  let cs := match q.isLong, cs with
    | true, '\n' :: rest => rest
    | _, cs => cs
  q.readTail (cs.length + 1) [] cs

def open? : List Char → Option (Quote × List Char)
  | '"' :: '"' :: '"' :: cs => some (⟨'"', true⟩, cs)
  | '\'' :: '\'' :: '\'' :: cs => some (⟨'\'', true⟩, cs)
  | '"' :: cs => some (⟨'"', false⟩, cs)
  | '\'' :: cs => some (⟨'\'', false⟩, cs)
  | _ => none

/-! ### Writing -/

def codeEscape (c : Char) : List Char :=
  let digits := (Nat.toDigits 16 c.toNat).map Char.toUpper
  ['\\', 'u'] ++ List.replicate (4 - digits.length) '0' ++ digits

def escapedChar (isLong : Bool) (c : Char) : List Char :=
  match c with
  | '\x08' => ['\\', 'b']
  | '\t' => ['\\', 't']
  | '\n' => if isLong then [c] else ['\\', 'n']
  | '\x0c' => ['\\', 'f']
  | '\r' => ['\\', 'r']
  | '\\' => ['\\', '\\']
  | c => if isPlain c then [c] else codeEscape c

/-- Text with escapes, after `run` marks that are not escaped. -/
def escaped (isLong : Bool) (run : Nat) : List Char → List Char
  | [] => []
  | c :: cs =>
    if c == '"' then
      if run < (if isLong then 2 else 0) then c :: escaped isLong (run + 1) cs
      else '\\' :: c :: escaped isLong 0 cs
    else escapedChar isLong c ++ escaped isLong 0 cs

def write (q : Quote) (text : List Char) : List Char :=
  -- A text of several lines starts on a line of its own.
  let lineEnd := if q.isLong && text.contains '\n' then ['\n'] else []
  let body := if q.hasEscapes then escaped q.isLong 0 text else text
  q.delimiter ++ lineEnd ++ body ++ q.delimiter

/-- The length of the longest run of a character, when `run` of them stand before the text. -/
def longestRun (mark : Char) (run : Nat) : List Char → Nat
  | [] => run
  | c :: cs =>
    if c == mark then longestRun mark (run + 1) cs
    else max run (longestRun mark 0 cs)

def hasCodes (text : List Char) : Bool := text.any fun c => !isPlain c && c != '\n'

def short? (text : List Char) : Option Quote :=
  if hasCodes text || text.contains '\n' then none
  else if !text.contains '\\' && !text.contains '"' then some ⟨'"', false⟩
  else if !text.contains '\'' then some ⟨'\'', false⟩
  else none

def long? (text : List Char) : Option Quote :=
  if hasCodes text then none
  else if !text.contains '\\' && longestRun '"' 0 text ≤ 2 then some ⟨'"', true⟩
  else if longestRun '\'' 0 text ≤ 2 then some ⟨'\'', true⟩
  else none

def valueText (text : List Char) : List Char :=
  let q := ((short? text).or (long? text)).getD ⟨'"', text.contains '\n'⟩
  q.write text

def isBare (c : Char) : Bool := c.isAlphanum || c == '_' || c == '-'

def keyText (text : List Char) : List Char :=
  if !text.isEmpty && text.all isBare then text
  else ((short? text).getD ⟨'"', false⟩).write text

end Quote

end GrammarScopes.Toml
