/-!
# SqlMapper.Binary.Format

Binary interchange formats, by their bits.

* `Format`: a format is fixed by the widths of its fraction and exponent fields.
* `Format.read`: what a bit pattern stands for, exactly.
* `Format.round`: the bit pattern nearest to a quotient of natural numbers, ties to the even one.
  Every conversion and every arithmetic step of `SqlMapper.Binary` goes through it.
-/

namespace SqlMapper
namespace Binary

structure Format where
  fractionBits : Nat
  exponentBits : Nat
  deriving DecidableEq

def single : Format := ⟨23, 8⟩

def double : Format := ⟨52, 11⟩

/-- A finite number is `significand * 2 ^ exponent` with its sign. -/
inductive Number
  | nan
  | infinite (negative : Bool)
  | finite (negative : Bool) (significand : Nat) (exponent : Int)
  deriving DecidableEq

/-- A positive quotient `numerator / denominator`, not necessarily in lowest terms. -/
structure Ratio where
  numerator : Nat
  denominator : Nat
  deriving DecidableEq

namespace Ratio

/-- The ratio `m * b ^ e`. -/
def scaled (b m : Nat) (e : Int) : Ratio :=
  ⟨m * Nat.pow b e.toNat, Nat.pow b (-e).toNat⟩

/-- Multiplication by `b ^ e`. -/
def scale (b : Nat) (e : Int) (r : Ratio) : Ratio :=
  ⟨r.numerator * Nat.pow b e.toNat, r.denominator * Nat.pow b (-e).toNat⟩

/-- The exponent of the greatest power of two that is at most the ratio, for a positive one. -/
def log2 (r : Ratio) : Int :=
  let k := (r.numerator.log2 : Int) - r.denominator.log2
  let p := scaled 2 1 k
  if p.numerator * r.denominator ≤ r.numerator * p.denominator then k else k - 1

/-- The nearest natural number, a half going to the even one. -/
def nearest (r : Ratio) : Nat :=
  let q := r.numerator / r.denominator
  let twice := 2 * (r.numerator % r.denominator)
  if twice < r.denominator then q
  else if r.denominator < twice then q + 1
  else if q % 2 = 0 then q else q + 1

end Ratio

namespace Format

/-- The exponent of the unit in the last place of the smallest numbers. -/
def leastExponent (f : Format) : Int :=
  2 - Int.ofNat (Nat.pow 2 (f.exponentBits - 1)) - f.fractionBits

/-- Magnitude bits of an infinity; the patterns above it are not numbers. -/
def infinityBits (f : Format) : Nat :=
  (Nat.pow 2 f.exponentBits - 1) * Nat.pow 2 f.fractionBits

def signBit (f : Format) : Nat :=
  Nat.pow 2 (f.exponentBits + f.fractionBits)

def withSign (f : Format) (negative : Bool) (magnitude : Nat) : Nat :=
  if negative then f.signBit + magnitude else magnitude

def read (f : Format) (bits : Nat) : Number :=
  let negative := f.signBit ≤ bits
  let magnitude := bits % f.signBit
  let biased := magnitude / Nat.pow 2 f.fractionBits
  let fraction := magnitude % Nat.pow 2 f.fractionBits
  if f.infinityBits < magnitude then .nan
  else if magnitude = f.infinityBits then .infinite negative
  else if biased = 0 then .finite negative fraction f.leastExponent
  else .finite negative (fraction + Nat.pow 2 f.fractionBits) (f.leastExponent + biased - 1)

/-- A quiet not-a-number. -/
def nanBits (f : Format) : Nat :=
  f.infinityBits + Nat.pow 2 (f.fractionBits - 1)

/-- The magnitude bits nearest to a ratio. A significand that rounds up to the next power of two
carries into the exponent field by itself. -/
def roundMagnitude (f : Format) (r : Ratio) : Nat :=
  if r.numerator = 0 then 0
  else
    let exponent := max (r.log2 - f.fractionBits) f.leastExponent
    let significand := (r.scale 2 (-exponent)).nearest
    min ((exponent - f.leastExponent).toNat * Nat.pow 2 f.fractionBits + significand) f.infinityBits

def round (f : Format) (negative : Bool) (r : Ratio) : Nat :=
  f.withSign negative (f.roundMagnitude r)

/-- The bits of an exactly known number, rounded into the format. -/
def write (f : Format) : Number → Nat
  | .nan => f.nanBits
  | .infinite negative => f.withSign negative f.infinityBits
  | .finite negative significand exponent => f.round negative (.scaled 2 significand exponent)

end Format

end Binary
end SqlMapper
