import SqlMapper.Json.Basic

/-!
# SqlMapper.Json.Number

Reading the numbers of a document.

A whole number that fits 64 bits is read exactly. Any other number becomes a double in at most a
few roundings: its leading digits, as many as fit 64 bits, are converted and then multiplied or
divided by a power of ten that is itself a double. `Significand` collects those digits, and
`Significand.toDouble?` does the scaling; a number that is too large for a double is refused.
-/

namespace SqlMapper
namespace Json

/-- The number `digits * 10 ^ exponent`, with `digits` below `2 ^ 64`. -/
structure Significand where
  digits : Nat
  exponent : Int
  deriving DecidableEq

namespace Significand

def limit : Nat := 18446744073709551616

/-- Digits before the point. From the first that does not fit on, they only count as places. -/
def takeWhole : Significand → List Char → Significand × Bool
  | s, [] => (s, true)
  | s, c :: cs =>
    let next := 10 * s.digits + (c.toNat - '0'.toNat)
    if next < limit then takeWhole ⟨next, s.exponent⟩ cs
    else (⟨s.digits, s.exponent + (cs.length + 1)⟩, false)

/-- Digits after the point. From the first that does not fit on, they are dropped. -/
def takeFraction : Significand → List Char → Significand
  | s, [] => s
  | s, c :: cs =>
    let next := 10 * s.digits + (c.toNat - '0'.toNat)
    if next < limit then takeFraction ⟨next, s.exponent - 1⟩ cs else s

/-- The greatest power of ten that is below the largest double. -/
def greatestPower : Nat := 308

def powerOfTen (n : Nat) : Binary64 :=
  .ofRatio false ⟨Nat.pow 10 n, 1⟩

/-- Division by `10 ^ n`, in steps of the greatest power of ten that there is. -/
def scaleDown (x : Binary64) (n : Nat) : Binary64 :=
  if n ≤ greatestPower then x.div (powerOfTen n)
  else if x.isZero then x
  else scaleDown (x.div (powerOfTen greatestPower)) (n - greatestPower)
termination_by n
decreasing_by
  have : 0 < greatestPower := by decide
  omega

def toDouble? (s : Significand) : Option Binary64 :=
  let x := Binary64.ofInt s.digits
  if s.exponent < 0 then some (scaleDown x s.exponent.natAbs)
  else if s.exponent.toNat ≤ greatestPower then
    let y := x.mul (powerOfTen s.exponent.toNat)
    if y.isInfinite then none else some y
  else if x.isZero then some x
  else none

end Significand

namespace Number

/-- A whole number of at most 64 bits. A minus sign before zero is kept, by a double. -/
def ofWhole (negative : Bool) (n : Nat) : Number :=
  if !negative then natural (.ofNat n)
  else if 0 < n && n ≤ 9223372036854775808 then .negative (.ofInt (-n))
  else double (Binary64.ofInt n).neg

/-- The digits and the rest of a number without its sign: no zero may lead a longer whole part,
and a point and an exponent mark are followed by digits. -/
def unsigned? (negative : Bool) (cs : List Char) : Option Number := do
  let whole := cs.takeWhile Char.isDigit
  let rest := cs.dropWhile Char.isDigit
  if whole.isEmpty || (whole.head? == some '0' && whole.length ≠ 1) then none
  let (s, exact) := Significand.takeWhole ⟨0, 0⟩ whole
  if exact && rest.isEmpty then return ofWhole negative s.digits
  let (s, rest) ← match rest with
    | '.' :: more =>
      let fraction := more.takeWhile Char.isDigit
      if fraction.isEmpty then none
      else some (s.takeFraction fraction, more.dropWhile Char.isDigit)
    | _ => some (s, rest)
  let e ← Binary.exponentPart? rest
  let x ← ({ s with exponent := s.exponent + e } : Significand).toDouble?
  return double (if negative then x.neg else x)

def ofText? : List Char → Option Number
  | '-' :: cs => unsigned? true cs
  | cs => unsigned? false cs

end Number

end Json
end SqlMapper
