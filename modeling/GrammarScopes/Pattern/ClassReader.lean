import GrammarScopes.Pattern.Escape

/-!
Classes in brackets: single characters, ranges, named sets, nested classes and intersections.
-/

namespace GrammarScopes.Pattern

inductive ClassToken
  | close
  | dash
  | code (n : Nat)
  /-- A byte that is no character by itself. -/
  | loneByte (n : Nat)
  | set (s : CharSet)
  | nested
  | and
  deriving DecidableEq, Repr

def closesBracketName : List Char → Bool
  | [] => false
  | '\\' :: _ :: cs => closesBracketName cs
  | ':' :: cs => cs.head? == some ']' || closesBracketName cs
  | c :: cs => c != ']' && closesBracketName cs

def bracketName? (cs : List Char) : Option (String × NamedSet) :=
  -- Close to the end of the pattern no name is looked for, not even a short one.
  if cs.length < 7 then none else bracketSets.find? fun e => e.1.toList.isPrefixOf cs

/-- A named set between colons, after the opening bracket and colon and the caret of a negation;
`none` if it is none. -/
def bracketSet? (o : Options) (negated : Bool) (cs : List Char) :
    Except PatternError (Option (CharSet × List Char)) :=
  match bracketName? cs with
  | some (name, s) =>
    let rest := cs.drop name.length
    if [':', ']'].isPrefixOf rest then
      let s := limited o.asciiBrackets s
      .ok (some (if negated then .not s else s, rest.drop 2))
    else .error .invalidBracketName
  | none =>
    let rest := (cs.dropWhile fun c => c != ':' && c != ']')
    if [':', ']'].isPrefixOf rest && cs.length - rest.length ≤ 20 then .error .invalidBracketName
    else .ok none

def readEscapeToken (o : Options) : Read ClassToken := do
  let start ← Read.rest
  match ← Read.next? with
  | none => throw .endAtEscape
  | some c =>
    if let some s := classEscape? o c then return .set s
    if c == 'p' || c == 'P' then
      match ← readProperty? c with
      | some s => return .set s
      | none => return .code c.toNat
    if isOctal c then
      Read.setRest start
      let n := digitsValue 8 (← Read.span isOctal 3)
      if n < 128 then return .code n
      if n > 255 then throw .numberTooLarge
      if formLength n == 1 then return .loneByte n
      return .code (← completeBytes n (some 8))
    if c == 'x' || c == 'u' || c == 'o' then
      match ← readNumeric? c with
      | some (.code n) => return .code n
      | some (.byte n base) =>
        if n < 128 then return .code n
        if formLength n == 1 then return .loneByte n
        return .code (← completeBytes n (some base))
      | none => return .code c.toNat
    Read.setRest start
    return .code (← readEscape)

def readClassToken (o : Options) : Read ClassToken := do
  match ← Read.next? with
  | none => throw .unclosedClass
  | some ']' => return .close
  | some '-' => return .dash
  | some '\\' => readEscapeToken o
  | some '[' =>
    match ← Read.rest with
    | ':' :: cs =>
      if !closesBracketName cs then return .nested
      let negated := cs.head? == some '^'
      match bracketSet? o negated (if negated then cs.drop 1 else cs) with
      | .error e => throw e
      | .ok (some (s, rest)) => Read.setRest rest; return .set s
      | .ok none => return .code '['.toNat
    | _ => return .nested
  | some '&' => if ← Read.take '&' then return .and else return .code '&'.toNat
  | some c => return .code c.toNat

structure ClassValue where
  code : Nat
  isByte : Bool

inductive Pending
  | start
  | value (v : ClassValue)
  | afterSet
  | range (first : ClassValue)
  | complete

def ClassValue.isSingle (v : ClassValue) : Bool := v.isByte || v.code < 128

/-- The characters from one value to another; bytes above 127 are no characters. -/
def rangeSet (first last : ClassValue) : CharSet :=
  if first.isSingle && last.isSingle then
    if first.code < 128 then .range first.code (min last.code 127) else .empty
  else .range first.code last.code

/-- The items of a class: the set so far, the set before the last intersection sign, and what is
pending. -/
structure ClassState where
  set : CharSet := .empty
  before : Option CharSet := none
  pending : Pending := .start

namespace ClassState

def add (c : ClassState) (s : CharSet) : ClassState :=
  { c with set := match c.set with
      | .empty => s
      | t => .or t s }

def flush (c : ClassState) : ClassState :=
  match c.pending with
  | .value v => c.add (rangeSet v v)
  | _ => c

def addValue (c : ClassState) (v : ClassValue) : Except PatternError ClassState :=
  match c.pending with
  | .range first =>
    if first.code > v.code then .error .emptyRange
    else .ok { c.add (rangeSet first v) with pending := .complete }
  | _ => .ok { c.flush with pending := .value v }

def addSet (c : ClassState) (s : CharSet) : Except PatternError ClassState :=
  match c.pending with
  | .range _ => .error .classAtRangeEnd
  | _ => .ok { c.flush.add s with pending := .afterSet }

def result (c : ClassState) : CharSet :=
  let c := c.flush
  match c.before with
  | some s => .and s c.set
  | none => c.set

def meet (c : ClassState) : ClassState :=
  { set := .empty, before := some c.result, pending := .start }

end ClassState

/-- Code points may exceed those of characters only at the end of a range. -/
def checkCode (c : ClassState) (n : Nat) : Except PatternError Unit :=
  match codeChar n, c.pending with
  | .ok _, _ => .ok ()
  | .error _, .range _ => .ok ()
  | .error e, _ => .error e

def hyphen : ClassValue := ⟨'-'.toNat, false⟩

/-- The class after one more token, which is neither its end nor a nested class; `rest` follows that
token. -/
def ClassState.take (c : ClassState) (rest : List Char) : ClassToken → Except PatternError ClassState
  | .code k => do
    checkCode c k
    c.addValue ⟨k, false⟩
  | .loneByte k => c.addValue ⟨k, true⟩
  | .set s => c.addSet s
  | .dash =>
    let ends := rest.head? == some ']' || ['&', '&'].isPrefixOf rest
    match c.pending with
    | .value v => if ends then c.addValue hyphen else .ok { c with pending := .range v }
    | .afterSet => if ends then c.addValue hyphen else .error .unmatchedRange
    | _ => c.addValue hyphen
  | .and => .ok c.meet
  | .close | .nested => .ok c

def readClassItems (o : Options) (inner : Read CharSet) : Nat → ClassState → Read CharSet
  | 0, _ => throw .unclosedClass
  | n + 1, c => do
    match ← readClassToken o with
    | .close => return c.result
    | .nested =>
      let s ← inner
      readClassItems o inner n { c.flush.add s with pending := .complete }
    | t => readClassItems o inner n (← c.take (← Read.rest) t)

/-- A class after its opening bracket: its set, and whether it stands for the characters that are
not in the set. -/
def readClassBody (o : Options) (inner : Read CharSet) : Read (Bool × CharSet) := do
  let negated ← Read.take '^'
  let rest ← Read.rest
  let mut c : ClassState := {}
  if let ']' :: after := rest then
    if !after.contains ']' then throw .emptyClass
    Read.setRest after
    c ← c.addValue ⟨']'.toNat, false⟩
  let s ← readClassItems o inner (rest.length + 1) c
  return (negated, s)

def readNestedClass (o : Options) : Nat → Read CharSet
  | 0 => throw .nestedTooDeep
  | n + 1 => do
    let (negated, s) ← readClassBody o (readNestedClass o n)
    return if negated then .not s else s

def readClass (o : Options) : Read CharSet := do
  let depth := (← Read.rest).length + 1
  let (negated, s) ← readClassBody o (readNestedClass o depth)
  let s := if o.anyCase then .anyCase s else s
  return if negated then .not s else s

end GrammarScopes.Pattern
