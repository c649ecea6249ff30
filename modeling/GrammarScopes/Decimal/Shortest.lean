/-!
The shortest decimal that a binary floating-point number is the nearest one to.
-/

namespace GrammarScopes.Decimal

/-- The number `digits` times ten to the power of `exponent`. -/
structure Scaled where
  digits : Nat
  exponent : Int
  deriving DecidableEq, Repr

structure Ratio where
  numerator : Nat
  denominator : Nat

namespace Ratio

def le (a b : Ratio) : Bool := a.numerator * b.denominator ≤ b.numerator * a.denominator

def lt (a b : Ratio) : Bool := a.numerator * b.denominator < b.numerator * a.denominator

def scaled (n base : Nat) (exponent : Int) : Ratio :=
  if exponent < 0 then ⟨n, Nat.pow base exponent.natAbs⟩
  else ⟨n * Nat.pow base exponent.natAbs, 1⟩

def distance (a b : Ratio) : Ratio :=
  let x := a.numerator * b.denominator
  let y := b.numerator * a.denominator
  ⟨max x y - min x y, a.denominator * b.denominator⟩

end Ratio

/-- The numbers that round to `mantissa * 2 ^ exponent`: `mantissa` has at most 53 bits, and below a
power of two the numbers are twice as dense. -/
structure Rounding where
  mantissa : Nat
  exponent : Int

namespace Rounding

def value (r : Rounding) : Ratio := .scaled r.mantissa 2 r.exponent

def lower (r : Rounding) : Ratio :=
  if r.mantissa == Nat.pow 2 52 && r.exponent > -1074 then
    .scaled (4 * r.mantissa - 1) 2 (r.exponent - 2)
  else .scaled (2 * r.mantissa - 1) 2 (r.exponent - 1)

def upper (r : Rounding) : Ratio := .scaled (2 * r.mantissa + 1) 2 (r.exponent - 1)

def contains (r : Rounding) (x : Ratio) : Bool :=
  -- The ends of the interval round to an even mantissa.
  if r.mantissa % 2 == 0 then r.lower.le x && x.le r.upper else r.lower.lt x && x.lt r.upper

/-- The decimals next to the value with a last digit of weight `10 ^ exponent`. -/
def neighbours (r : Rounding) (exponent : Int) : List Scaled :=
  let v := r.value
  let k := if exponent < 0 then v.numerator * Nat.pow 10 exponent.natAbs / v.denominator
    else v.numerator / (v.denominator * Nat.pow 10 exponent.natAbs)
  [⟨k, exponent⟩, ⟨k + 1, exponent⟩]

def ratio (d : Scaled) : Ratio := .scaled d.digits 10 d.exponent

def best (r : Rounding) (exponent : Int) : Option Scaled :=
  match (r.neighbours exponent).filter fun d => d.digits != 0 && r.contains (ratio d) with
  | [] => none
  | [d] => some d
  | a :: b :: _ =>
    let da := (ratio a).distance r.value
    let db := (ratio b).distance r.value
    if da.lt db || (da.le db && a.digits % 2 == 0) then some a else some b

/-- Tries finer and finer decimals, `n` of them from the weight `exponent` on. -/
def refine (r : Rounding) : Nat → Int → Option Scaled
  | 0, _ => none
  | n + 1, exponent =>
    match r.best exponent with
    | some d => some d
    | none => refine r n (exponent - 1)

end Rounding

def trim : Nat → Scaled → Scaled
  | 0, d => d
  | n + 1, d => if d.digits != 0 && d.digits % 10 == 0 then trim n ⟨d.digits / 10, d.exponent + 1⟩ else d

def Rounding.ofBits (bits : UInt64) : Rounding :=
  let n := bits.toNat
  let e : Nat := n / Nat.pow 2 52 % 2048
  let f : Nat := n % Nat.pow 2 52
  if e == 0 then ⟨f, -1074⟩ else ⟨f + Nat.pow 2 52, (e : Int) - 1075⟩

def shortest (bits : UInt64) : Option Scaled :=
  let r := Rounding.ofBits bits
  if r.mantissa == 0 then none else (r.refine 650 309).map (trim 20)

/-- Decimal digits, with at least one before and after the point while the exponent is small, and
with an exponent otherwise. -/
def render (d : Scaled) : String :=
  let ds := Nat.toDigits 10 d.digits
  let point := (ds.length : Int) + d.exponent
  let text :=
    if d.exponent ≥ 0 && point ≤ 16 then ds ++ List.replicate d.exponent.toNat '0' ++ ['.', '0']
    else if 0 < point && point ≤ 16 then ds.take point.toNat ++ '.' :: ds.drop point.toNat
    else if -5 < point && point ≤ 0 then ['0', '.'] ++ List.replicate point.natAbs '0' ++ ds
    else
      let e := (toString (point - 1)).toList
      match ds with
      | [a] => a :: 'e' :: e
      | a :: rest => a :: '.' :: rest ++ 'e' :: e
      | [] => []
  String.ofList text

def renderFloat (x : Float) : String :=
  let bits := x.toBits
  let sign := if bits.toNat ≥ Nat.pow 2 63 then "-" else ""
  match shortest (UInt64.ofNat (bits.toNat % Nat.pow 2 63)) with
  | some d => sign ++ render d
  | none => sign ++ "0.0"

end GrammarScopes.Decimal
