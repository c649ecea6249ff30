import GrammarScopes.Text.Number

/-!
Dates and times of TOML.
-/

namespace GrammarScopes.Toml

structure Date where
  year : Nat
  month : Nat
  day : Nat
  deriving DecidableEq, Repr

structure Time where
  hour : Nat
  minute : Nat
  second : Nat
  nanosecond : Nat
  deriving DecidableEq, Repr

inductive TimeOffset
  | universal
  | minutes (isNegative : Bool) (count : Nat)
  deriving DecidableEq, Repr

inductive DateTime
  | date (d : Date)
  | time (t : Time)
  | both (d : Date) (t : Time) (offset : Option TimeOffset)
  deriving DecidableEq, Repr

def field? (count low high : Nat) (cs : List Char) : Option (Nat × List Char) :=
  if (cs.take count).length < count then none
  else
    (Text.decimal? 0 (cs.take count)).bind fun n =>
      if low ≤ n && n ≤ high then some (n, cs.drop count) else none

def expect? (c : Char) : List Char → Option (List Char)
  | d :: cs => if d == c then some cs else none
  | [] => none

def isLeapYear (year : Nat) : Bool :=
  (year % 4 == 0 && year % 100 != 0) || year % 400 == 0

def daysIn (year month : Nat) : Nat :=
  match month with
  | 2 => if isLeapYear year then 29 else 28
  | 4 | 6 | 9 | 11 => 30
  | _ => 31

def Date.read? (cs : List Char) : Option (Date × List Char) := do
  let (year, cs) ← field? 4 0 9999 cs
  let (month, cs) ← field? 2 1 12 (← expect? '-' cs)
  let (day, cs) ← field? 2 1 (daysIn year month) (← expect? '-' cs)
  return (⟨year, month, day⟩, cs)

/-- The fraction of a second in billionths; further digits are left out. -/
def fraction? : List Char → Option (Nat × List Char)
  | '.' :: cs =>
    let digits := cs.takeWhile Char.isDigit
    if digits.isEmpty then none
    else
      (Text.decimal? 0 ((digits ++ List.replicate 9 '0').take 9)).map (·, cs.drop digits.length)
  | cs => some (0, cs)

def Time.read? (cs : List Char) : Option (Time × List Char) := do
  let (hour, cs) ← field? 2 0 23 cs
  let (minute, cs) ← field? 2 0 59 (← expect? ':' cs)
  let (second, cs) ← field? 2 0 60 (← expect? ':' cs)
  let (nanosecond, cs) ← fraction? cs
  return (⟨hour, minute, second, nanosecond⟩, cs)

def TimeOffset.read? (cs : List Char) : Option (Option TimeOffset) :=
  let distance (isNegative : Bool) (cs : List Char) : Option TimeOffset := do
    let (hour, cs) ← field? 2 0 23 cs
    let (minute, cs) ← field? 2 0 59 (← expect? ':' cs)
    if cs.isEmpty then return .minutes (isNegative && hour * 60 + minute != 0) (hour * 60 + minute)
    else none
  match cs with
  | [] => some none
  | ['Z'] | ['z'] => some (some .universal)
  | '+' :: cs => (distance false cs).map some
  | '-' :: cs => (distance true cs).map some
  | _ => none

def DateTime.read? (cs : List Char) : Option DateTime :=
  match Date.read? cs with
  | some (d, []) => some (.date d)
  | some (d, mark :: cs) =>
    if mark == 'T' || mark == 't' || mark == ' ' then do
      let (t, cs) ← Time.read? cs
      return .both d t (← TimeOffset.read? cs)
    else none
  | none =>
    match Time.read? cs with
    | some (t, []) => some (.time t)
    | _ => none

def padded (count n : Nat) : List Char :=
  let digits := Nat.toDigits 10 n
  List.replicate (count - digits.length) '0' ++ digits

def Date.text (d : Date) : List Char :=
  padded 4 d.year ++ '-' :: padded 2 d.month ++ '-' :: padded 2 d.day

def Time.text (t : Time) : List Char :=
  let fraction := ((padded 9 t.nanosecond).reverse.dropWhile (· == '0')).reverse
  padded 2 t.hour ++ ':' :: padded 2 t.minute ++ ':' :: padded 2 t.second ++
    (if fraction.isEmpty then [] else '.' :: fraction)

def TimeOffset.text : TimeOffset → List Char
  | universal => ['Z']
  | minutes isNegative n =>
    (if isNegative then '-' else '+') :: padded 2 (n / 60) ++ ':' :: padded 2 (n % 60)

/-- The date and the time stand with a `T` between them. -/
def DateTime.text : DateTime → List Char
  | date d => d.text
  | time t => t.text
  | both d t offset => d.text ++ 'T' :: t.text ++ (offset.map TimeOffset.text).getD []

end GrammarScopes.Toml
