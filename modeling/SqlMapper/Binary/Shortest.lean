import SqlMapper.Binary.Basic

/-!
# SqlMapper.Binary.Shortest

The shortest decimal that reads back as a given binary number.

The reals that round to `m * 2 ^ q` form an interval around it, whose ends belong to it when `m`
is even. `shortest` looks at the decimal grids with 1, 2, 3, … significant digits: on the first
grid that has a point in the interval, one of the two grid neighbours of the number is such a
point, and of two the nearer one is taken. How a tie between them goes is the caller's choice.
-/

namespace SqlMapper
namespace Binary

/-- Which of two equally near decimals is taken. -/
inductive Tie
  | up
  | even
  deriving DecidableEq

/-- The positive decimal `digits * 10 ^ exponent`. -/
structure Decimal where
  digits : Nat
  exponent : Int
  deriving DecidableEq

namespace Decimal

/-- One zero less at the end of the digits, if there is one. -/
def dropZero (d : Decimal) : Decimal :=
  if d.digits % 10 = 0 then ⟨d.digits / 10, d.exponent + 1⟩ else d

end Decimal

/-- A positive binary number and the ends of the interval of reals that round to it, all counted
in quarters of its last place. -/
structure Rounding where
  low : Nat
  value : Nat
  high : Nat
  closed : Bool
  exponent : Int

namespace Rounding

/-- Below a power of two the neighbours are half as far away. -/
def of (f : Format) (significand : Nat) (exponent : Int) : Rounding :=
  let powerOfTwo := significand = Nat.pow 2 f.fractionBits && f.leastExponent < exponent
  { low := 4 * significand - (if powerOfTwo then 1 else 2)
    value := 4 * significand
    high := 4 * significand + 2
    closed := significand % 2 = 0
    exponent := exponent - 2 }

/-- Exponent of the leading decimal digit of the value. -/
def leadingExponent (r : Rounding) : Int :=
  let v := Ratio.scaled 2 r.value r.exponent
  let guess := v.log2 * 30103 / 100000
  let reaches (e : Int) : Bool :=
    let p := Ratio.scaled 10 1 e
    p.numerator * v.denominator ≤ v.numerator * p.denominator
  if reaches (guess + 1) then guess + 1
  else if reaches guess then guess
  else guess - 1

/-- The decimal with last place `10 ^ place` that lies in the interval and is nearest to the
value, if there is one. -/
def onGrid (r : Rounding) (tie : Tie) (place : Int) : Option Decimal :=
  let unit := Ratio.scale 10 (-place) (.scaled 2 1 r.exponent)
  let value := r.value * unit.numerator
  let lower := value / unit.denominator
  let contains (n : Nat) : Bool :=
    let n := n * unit.denominator
    let low := r.low * unit.numerator
    let high := r.high * unit.numerator
    if r.closed then low ≤ n && n ≤ high else low < n && n < high
  let below := value - lower * unit.denominator
  let above := (lower + 1) * unit.denominator - value
  let upperNearer := above < below ||
    (above == below && (tie == .up || lower % 2 == 1))
  match contains lower, contains (lower + 1) with
  | true, true => some ⟨if upperNearer then lower + 1 else lower, place⟩
  | true, false => some ⟨lower, place⟩
  | false, true => some ⟨lower + 1, place⟩
  | false, false => none

end Rounding

/-- Seventeen digits tell any two numbers of either format apart. -/
def mostDigits : Nat := 17

/-- The shortest decimal that reads back as `significand * 2 ^ exponent`, a positive number of
the format. Its last digit is zero only where one digit rounds up to ten, and is dropped there. -/
def shortest (f : Format) (tie : Tie) (significand : Nat) (exponent : Int) : Decimal :=
  let r := Rounding.of f significand exponent
  let leading := r.leadingExponent
  let found := (List.range mostDigits).findSome? fun n => r.onGrid tie (leading - (n : Nat))
  (found.getD ⟨0, 0⟩).dropZero

end Binary
end SqlMapper
