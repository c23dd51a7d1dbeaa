import TrafficRules.Text.Digits
/-!
# Decimal — numbers with a fraction as text

A number is `significand · 10 ^ exponent` with a sign.  Reading takes a sign, digits with at most one point among them
and an exponent, which is zero where nothing is written.  Its magnitude is the number of its digits before the point,
none or fewer of zero and of fractions; with it alone most numbers are known to be finite or not (`Decimal.isFinite`).

Writing gives the fewest digits that read back as the same double, always in positional notation.  The numbers that
round to a double are an interval around it, and the digits are looked for on grids of powers of ten
(`Interval.onGrid`), from the coarsest one down, with the place of the last of them.
-/
namespace TrafficRules

structure Decimal where
  negative : Bool
  significand : Nat
  exponent : Int
  deriving DecidableEq, Repr

namespace Decimal

def sign : List Char → Bool × List Char
  | '-' :: cs => (true, cs)
  | '+' :: cs => (false, cs)
  | cs => (false, cs)

def exponent? : List Char → Option Int
  | [] => some 0
  | c :: cs =>
    if c = 'e' ∨ c = 'E' then
      let (negative, digits) := sign cs
      (Digits.toNat? 10 digits).map fun n => if negative then -(n : Int) else n
    else none

def parse? (cs : List Char) : Option Decimal := do
  let (negative, cs) := sign cs
  let (whole, cs) := Digits.span 10 cs
  let (fraction, cs) := match cs with
    | '.' :: more => Digits.span 10 more
    | _ => ([], cs)
  let significand ← Digits.toNat? 10 (whole ++ fraction)
  let exponent ← exponent? cs
  some ⟨negative, significand, exponent - fraction.length⟩

def magnitude (d : Decimal) : Int := (Nat.toDigits 10 d.significand).length + d.exponent

/-- The greatest number that rounds to a finite double lies just below this. -/
def finiteBound : Nat := twoTo 1024 - twoTo 970

def isFinite (d : Decimal) : Bool :=
  d.significand = 0 || d.magnitude < 309
    || (d.magnitude = 309 &&
        d.significand * tenTo d.exponent.toNat < finiteBound * tenTo (-d.exponent).toNat)

def toFloat (d : Decimal) : Float :=
  let size :=
    if d.significand = 0 ∨ d.magnitude < -330 then 0.0
    else if d.isFinite then Float.ofScientific d.significand (d.exponent < 0) d.exponent.natAbs
    else 1.0 / 0.0
  if d.negative then -size else size

/-! ## The fewest digits -/

/-- The numbers that round to a positive double, as multiples of `1 / scale`, and the double among them. -/
structure Interval where
  low : Nat
  middle : Nat
  high : Nat
  scale : Nat
  closed : Bool

def interval (x : Float) : Interval :=
  let bits := x.toBits.toNat
  let e := bits / twoTo 52 % twoTo 11
  let f := bits % twoTo 52
  let m := if e = 0 then f else f + twoTo 52
  -- the double is `4 * m` quarters of a unit in the last place
  let shift := max e 1
  let up := twoTo (shift - 1077)
  let below := if f = 0 ∧ 1 < e then 1 else 2
  ⟨(4 * m - below) * up, 4 * m * up, (4 * m + 2) * up, twoTo (1077 - shift), m % 2 = 0⟩

def wholeDigits (n scale : Nat) : Int :=
  if scale ≤ n then (Nat.toDigits 10 (n / scale)).length
  else -((List.range 400).takeWhile fun zeros => n * tenTo (zeros + 1) < scale).length

/-- The multiple of `10 ^ place` nearest to the middle of an interval, if it lies inside. -/
def onGrid (i : Interval) (place : Int) : Option Nat :=
  let unit := i.scale * tenTo place.toNat
  let factor := tenTo (-place).toNat
  let middle := i.middle * factor
  let inside (k : Nat) : Bool :=
    let v := k * unit
    if i.closed then i.low * factor ≤ v && v ≤ i.high * factor else i.low * factor < v && v < i.high * factor
  let k := middle / unit
  let near := if 2 * (middle - k * unit) < unit then [k, k + 1] else [k + 1, k]
  near.find? inside

/-- The shortest decimal digits of a positive double, and the place of the last of them. -/
def shortest (x : Float) : Nat × Int :=
  let i := interval x
  let top := wholeDigits i.middle i.scale
  let found := (List.range 17).findSome? fun more =>
    let place := top - (more + 1 : Nat)
    (onGrid i place).map fun k => if k % 10 = 0 then (k / 10, place + 1) else (k, place)
  found.getD (0, 0)

def positional (n : Nat) (place : Int) : String :=
  let digits := Nat.toDigits 10 n
  if 0 ≤ place then String.ofList (digits ++ List.replicate place.toNat '0')
  else
    let behind := (-place).toNat
    let digits := List.replicate (behind + 1 - digits.length) '0' ++ digits
    String.ofList (digits.take (digits.length - behind) ++ '.' :: digits.drop (digits.length - behind))

def render (x : Float) : String :=
  if x.isNaN then "NaN"
  else
    let size :=
      if x.isInf then "inf"
      else if x == 0.0 then "0"
      else
        let (n, place) := shortest x.abs
        positional n place
    if twoTo 63 ≤ x.toBits.toNat then "-" ++ size else size

end Decimal
end TrafficRules
