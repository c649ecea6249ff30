import GrammarScopes.Pattern.ClassReader
import GrammarScopes.Pattern.Quantifier

/-!
From the text of a pattern to its tree.  The parser is given the reading of nested alternatives and
ties the knot at the end, on the depth of nesting.
-/

namespace GrammarScopes.Pattern

/-- A tree, and whether a quantifier may follow it: none may follow a bare assertion. -/
structure Parsed where
  node : Node
  repeatable : Bool
  /-- The alternatives that the node is the choice of, if there are several. -/
  branches : List Node := []

/-- A part of a branch.  Literal characters are kept apart, since their neighbours matter when case
is ignored. -/
inductive Piece
  | literal (c : Char)
  | parsed (p : Parsed)

inductive Item
  | piece (p : Piece)
  | options (o : Options)

def literalNode (o : Options) (cs : List Char) : Node :=
  if o.anyCase then caseless cs else .sequence (cs.map .char)

def Piece.parsedWith (o : Options) : Piece → Parsed
  | literal c => { node := literalNode o [c], repeatable := true }
  | parsed p => p

/-- The nodes of a branch; `run` holds literal characters not yet written, the last one first. -/
def branchNodes (o : Options) : List Char → List Piece → List Node
  | run, .literal c :: rest => branchNodes o (c :: run) rest
  | run, .parsed p :: rest =>
    (if run.isEmpty then [] else [literalNode o run.reverse]) ++ p.node :: branchNodes o [] rest
  | run, [] => if run.isEmpty then [] else [literalNode o run.reverse]

def branch (o : Options) : List Piece → Parsed
  | [p] => p.parsedWith o
  | ps => { node := .sequence (branchNodes o [] ps), repeatable := true }

def solid (n : Node) : Item := .piece (.parsed { node := n, repeatable := true })

def bare (n : Node) : Item := .piece (.parsed { node := n, repeatable := false })

def literalCode (n : Nat) : Read Item := do
  match codeChar n with
  | .ok c => return .piece (.literal c)
  | .error e => throw e

def lineBreak : Node :=
  .atomic (.alt (.seq (.char '\r') (.char '\n'))
    (.set (.or (.range 10 13) (.oneOf ['\u0085', '\u2028', '\u2029']))))

def textSegment : Node :=
  .atomic (.alt lineBreak
    (.seq (.set (.named .any)) (.loop 0 none true (.set (.named .extender)))))

/-- A set in which case is ignored is closed under it before it is complemented. -/
def inAnyCase (o : Options) (s : CharSet) : CharSet :=
  if !o.anyCase then s
  else match s with
    | .not s => .not (.anyCase s)
    | s => .anyCase s

def readBackReference (o : Options) : Read Item := do
  match ← Read.rest with
  | c :: cs =>
    if c != '<' && c != '\'' then return .piece (.literal 'k')
    Read.setRest cs
    let (text, name) ← readName (if c == '<' then '>' else '\'') true
    let groups ← match name with
      | .number n => if n == 0 then throw .invalidBackReference else pure [n]
      | .relative d =>
        let n := absoluteGroup (← get).groupCount d
        if n ≤ 0 then throw .invalidBackReference
        pure [n.toNat]
      | .label =>
        let groups ← Read.groupsNamed text
        if groups.isEmpty then throw (.undefinedName text)
        pure groups.reverse
    return solid (.backReference groups o.anyCase)
  | [] => return .piece (.literal 'k')

def readCall : Read Item := do
  match ← Read.rest with
  | c :: cs =>
    if c != '<' && c != '\'' then return .piece (.literal 'g')
    Read.setRest cs
    let (text, name) ← readName (if c == '<' then '>' else '\'') true
    match name with
    | .number n => return solid (.call (.index n) text)
    | .relative d =>
      let n := absoluteGroup (← get).groupCount d
      if n < 0 then throw (.undefinedGroup text)
      return solid (.call (.index n.toNat) text)
    | .label => return solid (.call (.name text) text)
  | [] => return .piece (.literal 'g')

def readOctal (most : Nat) : Read Item := do
  let n := digitsValue 8 (← Read.span isOctal most)
  if n > 255 then throw .numberTooLarge
  if n < 128 then literalCode n
  else literalCode (← completeBytes n none)

/-- A digit after a backslash begins a reference if there are that many groups or if it has one
digit; otherwise it begins an octal number. -/
def readDigitEscape (o : Options) (digits : List Char) : Read Item := do
  let run := digits.takeWhile Char.isDigit
  let n := digitsValue 10 run
  if n ≤ 1000 && (n ≤ (← get).groupCount || n ≤ 9) then
    Read.setRest (digits.drop run.length)
    return solid (.backReference [n] o.anyCase)
  else if (digits.headD '0').toNat ≥ '8'.toNat then
    Read.setRest (digits.drop 1)
    return .piece (.literal (digits.headD '8'))
  else
    Read.setRest digits
    readOctal 3

def readEscapeItem (o : Options) : Read Item := do
  let start ← Read.rest
  match ← Read.next? with
  | none => throw .endAtEscape
  | some c =>
    if let some s := classEscape? o c then return solid (.set s)
    if c == '0' then return ← readOctal 2
    if c.isDigit then return ← readDigitEscape o start
    match c with
    | 'b' => return bare (.assertion true (.wordBoundary (wordSet o)))
    | 'B' => return bare (.assertion false (.wordBoundary (wordSet o)))
    | 'y' => return bare (.assertion true .segmentBoundary)
    | 'Y' => return bare (.assertion false .segmentBoundary)
    | 'A' => return bare (.assertion true .textStart)
    | 'Z' => return bare (.assertion true .textEndOrBreak)
    | 'z' => return bare (.assertion true .textEnd)
    | 'G' => return bare (.assertion true .searchStart)
    | 'K' => return bare .keep
    | 'R' => return solid lineBreak
    | 'N' => return solid (.set (.not (.range 10 10)))
    | 'O' => return solid (.set (.named .any))
    | 'X' => return solid textSegment
    | 'k' => readBackReference o
    | 'g' => readCall
    | 'p' | 'P' =>
      match ← readProperty? c with
      | some s => return solid (.set (inAnyCase o s))
      | none => return .piece (.literal c)
    | 'x' | 'u' | 'o' =>
      match ← readNumeric? c with
      | some (.code n) => literalCode n
      | some (.byte n _) => if n < 128 then literalCode n else literalCode (← completeBytes n none)
      | none => return .piece (.literal c)
    | _ =>
      Read.setRest start
      literalCode (← readEscape)

def optionLetters (o : Options) (on : Bool) :
    List Char → Except PatternError (Options × Bool × List Char)
  | [] => .error .endInGroup
  | ':' :: cs => .ok (o, true, cs)
  | ')' :: cs => .ok (o, false, cs)
  | '-' :: cs => optionLetters o false cs
  | 'i' :: cs => optionLetters { o with anyCase := on } on cs
  | 'x' :: cs => optionLetters { o with extended := on } on cs
  | 'm' :: cs => optionLetters { o with dotAll := on } on cs
  | 'W' :: cs => optionLetters { o with asciiWord := on } on cs
  | 'D' :: cs => optionLetters { o with asciiDigit := on } on cs
  | 'S' :: cs => optionLetters { o with asciiSpace := on } on cs
  | 'P' :: cs =>
    optionLetters { o with asciiWord := on, asciiDigit := on, asciiSpace := on,
                           asciiBrackets := on } on cs
  | _ => .error .undefinedOption

/-- Reads alternatives up to the end, or up to the parenthesis that closes the group if there is
one. -/
abbrev Alternatives := Options → Bool → Read Parsed

section
variable (inner : Alternatives)

def readBody (o : Options) : Read Parsed := do
  let p ← inner o true
  discard Read.next?
  return p

def openGroup : Read Nat := do
  let n := (← get).groupCount + 1
  modify fun s => { s with groupCount := n }
  return n

def readNamedGroup (o : Options) (close : Char) : Read Item := do
  let (name, _) ← readName close false
  let n ← openGroup
  modify fun s => { s with names := s.names ++ [(name, n)] }
  return solid (.group n (← readBody inner o).node)

def isNameSet : String × GroupName → Read Node
  | (_, .number n) => return .isSet [n]
  | (_, .relative d) => return .isSet [(absoluteGroup (← get).groupCount d).toNat]
  | (text, .label) => do
    let groups ← Read.groupsNamed text
    if groups.isEmpty then throw (.undefinedName text)
    return .isSet groups

def readCondition (o : Options) : Read Node := do
  match ← Read.rest with
  | [] => throw .endInGroup
  | c :: cs =>
    if c.isDigit || c == '-' || c == '+' then isNameSet (← readName ')' true)
    else if c == '<' || c == '\'' then
      Read.setRest cs
      let name ← readName (if c == '<' then '>' else '\'') true
      if !(← Read.take ')') then throw .invalidConditional
      isNameSet name
    else return (← readBody inner o).node

def readConditional (o : Options) : Read Item := do
  let test ← readCondition inner o
  let body ← readBody inner o
  match body.branches with
  | [] => return solid (.ifElse test body.node .empty)
  | [yes, no] => return solid (.ifElse test yes no)
  | _ => throw .invalidConditional

def readSpecialGroup (o : Options) : Read Item := do
  let start ← Read.rest
  match ← Read.next? with
  | none => throw .endInGroup
  | some ':' => return .piece (.parsed (← readBody inner o))
  | some '=' => return bare (.ahead true (← readBody inner o).node)
  | some '!' => return bare (.ahead false (← readBody inner o).node)
  | some '>' => return solid (.atomic (← readBody inner o).node)
  | some '\'' => readNamedGroup inner o '\''
  | some '<' =>
    match ← Read.rest with
    | [] => throw .unclosedGroup
    | '=' :: cs =>
      Read.setRest cs
      return bare (.behind true (← readBody inner o).node)
    | '!' :: cs =>
      Read.setRest cs
      return bare (.behind false (← readBody inner o).node)
    | _ => readNamedGroup inner o '>'
  | some '~' =>
    match ← Read.rest with
    | [] => throw .endInGroup
    | '|' :: _ => throw .invalidAbsent
    | _ => return solid (.absent (← readBody inner o).node)
  | some '(' => readConditional inner o
  | some ')' => throw .undefinedOption
  | some _ =>
    match optionLetters o true start with
    | .error e => throw e
    | .ok (o, true, cs) =>
      Read.setRest cs
      return solid (← readBody inner o).node
    | .ok (o, false, cs) =>
      Read.setRest cs
      return .options o

def readCallout : Read Item := do
  let isNameChar (c : Char) := Text.isAscii c && (c.isAlphanum || c == '_')
  let name ← Read.span isNameChar (← Read.rest).length
  if name.isEmpty || (name.headD '0').isDigit then throw .invalidCalloutName
  if !(← Read.take ')') then throw .invalidCalloutName
  if name == "FAIL".toList then return solid .fail
  throw .undefinedCalloutName

def readGroup (o : Options) : Read Item := do
  match ← Read.rest with
  | [] => throw .unclosedGroup
  | '?' :: cs => Read.setRest cs; readSpecialGroup inner o
  | '*' :: cs => Read.setRest cs; readCallout
  | _ =>
    let n ← openGroup
    return solid (.group n (← readBody inner o).node)

def readItem (o : Options) : Read Item := do
  let start ← Read.rest
  match ← Read.next? with
  | none => return solid .empty
  | some '\\' => readEscapeItem o
  | some '.' => return solid (.set (if o.dotAll then .named .any else .not (.range 10 10)))
  | some '^' => return bare (.assertion true .lineStart)
  | some '$' => return bare (.assertion true .lineEnd)
  | some '[' => return solid (.set (← readClass o))
  | some '(' => readGroup inner o
  | some '*' | some '+' | some '?' => throw .nothingToRepeat
  | some '\x7b' =>
    Read.setRest start
    if (← readBraces?).isSome then throw .nothingToRepeat
    Read.setRest (start.drop 1)
    return .piece (.literal '\x7b')
  | some c => return .piece (.literal c)

def readQuantifiers (o : Options) : Nat → Piece → Read Piece
  | 0, _ => throw .nestedTooDeep
  | n + 1, p => do
    skipIgnored o
    match ← readQuantifier? with
    | none => return p
    | some q =>
      let parsed := p.parsedWith o
      if !parsed.repeatable then throw .notRepeatable
      let branches := if q.isOnce then parsed.branches else []
      readQuantifiers o n (.parsed { node := q.onto parsed.node, repeatable := true, branches })

/-- The pieces of a branch from an item on, where `rest` reads those after it. -/
def piecesFrom (o : Options) (closed : Bool) (rest : Read (List Piece)) : Item → Read (List Piece)
  | .options o => return [.parsed { node := (← inner o closed).node, repeatable := true }]
  | .piece p => do
    let p ← readQuantifiers o (← Read.rest).length.succ p
    return p :: (← rest)

def readPieces (o : Options) (closed : Bool) : Nat → Read (List Piece)
  | 0 => throw .nestedTooDeep
  | n + 1 => do
    skipIgnored o
    match (← Read.rest).head? with
    | none | some '|' => return []
    | some ')' => if closed then return [] else throw .unmatchedClose
    | some _ => piecesFrom inner o closed (readPieces o closed n) (← readItem inner o)

def readBranches (o : Options) (closed : Bool) : Nat → Read (List Parsed)
  | 0 => throw .nestedTooDeep
  | n + 1 => do
    let b := branch o (← readPieces inner o closed (← Read.rest).length.succ)
    if ← Read.take '|' then return b :: (← readBranches o closed n)
    return [b]

end

/-- Alternatives nested at most `n` deep. -/
def readAlternatives : Nat → Alternatives
  | 0, _, _ => throw .nestedTooDeep
  | n + 1, o, closed => do
    let branches ← readBranches (readAlternatives n) o closed (← Read.rest).length.succ
    if closed && (← Read.rest).isEmpty then throw .unclosedGroup
    match branches with
    | [b] => return b
    | bs =>
      let nodes := bs.map (·.node)
      return { node := .choice nodes, repeatable := bs.all (·.repeatable), branches := nodes }

def deepestNesting : Nat := 4096

def parse (source : String) : Except PatternError Compiled := do
  let start : ReadState := ⟨source.toList, 0, []⟩
  let (p, s) ← (readAlternatives deepestNesting {} false).run start
  return ⟨p.node, s.groupCount, s.names⟩

end GrammarScopes.Pattern
