import GrammarScopes.Text.Number
import GrammarScopes.Text.Split

/-!
Numbers of TOML.  Digits may be grouped by single underscores.
-/

namespace GrammarScopes.Toml

def digits? (base : Nat) (cs : List Char) : Option Nat :=
  let groups := Text.splitAll '_' cs
  if groups.any List.isEmpty then none else Text.inBase? base 0 groups.flatten

/-- The number after a sign, and whether the sign is a minus. -/
def unsigned : List Char → Bool × List Char
  | '+' :: cs => (false, cs)
  | '-' :: cs => (true, cs)
  | cs => (false, cs)

/-- The value of a whole number in decimal, which has no leading zeros. -/
def whole? : List Char → Option Nat
  | '0' :: _ :: _ => none
  | cs => digits? 10 cs

/-- The range of integers is that of 64 bits with a sign. -/
def integer? (n : Int) : Option Int :=
  if -Nat.pow 2 63 ≤ n && n < Nat.pow 2 63 then some n else none

/-- An integer; only a decimal one may have a sign. -/
def readInteger? : List Char → Option Int
  | '0' :: 'x' :: cs => (digits? 16 cs).bind (integer? ·)
  | '0' :: 'o' :: cs => (digits? 8 cs).bind (integer? ·)
  | '0' :: 'b' :: cs => (digits? 2 cs).bind (integer? ·)
  | cs =>
    let (isNegative, body) := unsigned cs
    (whole? body).bind fun n => integer? (if isNegative then -n else n)

structure Scaled where
  digits : Nat
  exponent : Int
  deriving DecidableEq, Repr

/-- Whether a number is nearer to a number of double precision than to infinity: it is below the
point half way from the largest of them to `2 ^ 1024`. -/
def Scaled.isFinite (x : Scaled) : Bool :=
  let size := x.exponent + (Nat.toDigits 10 x.digits).length
  x.digits == 0 || size ≤ 300 ||
    (size ≤ 310 &&
      x.digits * Nat.pow 10 x.exponent.toNat <
        (Nat.pow 2 1024 - Nat.pow 2 970) * Nat.pow 10 (-x.exponent).toNat)

def exponent? : List Char → Option Int
  | [] => some 0
  | _ :: cs =>
    let (isNegative, body) := unsigned cs
    (digits? 10 body).map fun n => if isNegative then -n else n

def scaled? (cs : List Char) : Option Scaled :=
  let isExponent (c : Char) := c == 'e' || c == 'E'
  let whole := cs.takeWhile fun c => c != '.' && !isExponent c
  match cs.drop whole.length with
  | '.' :: rest => do
    let fraction := rest.takeWhile fun c => !isExponent c
    let n ← whole? whole
    let m ← digits? 10 fraction
    let e ← exponent? (rest.drop fraction.length)
    let places := fraction.countP Char.isDigit
    return ⟨n * Nat.pow 10 places + m, e - places⟩
  | [] => none
  | rest => do
    let n ← whole? whole
    let e ← exponent? rest
    return ⟨n, e⟩

/-- Whether a text is a number with a fraction or an exponent.  Only a negative one may be too large
for double precision. -/
def isFloat (cs : List Char) : Bool :=
  let (isNegative, body) := unsigned cs
  body == ['i', 'n', 'f'] || body == ['n', 'a', 'n'] ||
    (scaled? body).any fun x => isNegative || x.isFinite

end GrammarScopes.Toml
