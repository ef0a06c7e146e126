import SqlMapper.Binary.Format

/-!
# SqlMapper.Binary.Basic

The two floating-point types of a database, as bit patterns: `Binary32` and `Binary64`.

Two patterns are equal as data when their bits are; `sameNumber` is the comparison of numbers, in
which a NaN differs from itself and the two zeros agree. Arithmetic is exact and rounds once.
-/

namespace SqlMapper

structure Binary32 where
  bits : UInt32
  deriving DecidableEq

structure Binary64 where
  bits : UInt64
  deriving DecidableEq

namespace Binary

/-- Equality of numbers: exponents are brought to a common value before significands are
compared. -/
def Number.same : Number → Number → Bool
  | .infinite s, .infinite t => s == t
  | .finite s m p, .finite t n q =>
    let least := min p q
    let a := m * Nat.pow 2 (p - least).toNat
    let b := n * Nat.pow 2 (q - least).toNat
    a == b && (a == 0 || s == t)
  | _, _ => false

end Binary

namespace Binary32

open Binary

def number (x : Binary32) : Number :=
  single.read x.bits.toNat

def ofNumber (n : Number) : Binary32 :=
  ⟨.ofNat (single.write n)⟩

def isNaN (x : Binary32) : Bool :=
  x.number == .nan

def sameNumber (x y : Binary32) : Bool :=
  x.number.same y.number

end Binary32

namespace Binary64

open Binary

def number (x : Binary64) : Number :=
  double.read x.bits.toNat

def ofNumber (n : Number) : Binary64 :=
  ⟨.ofNat (double.write n)⟩

def ofRatio (negative : Bool) (r : Ratio) : Binary64 :=
  ⟨.ofNat (double.round negative r)⟩

def isNaN (x : Binary64) : Bool :=
  x.number == .nan

def isInfinite (x : Binary64) : Bool :=
  match x.number with
  | .infinite _ => true
  | _ => false

def isFinite (x : Binary64) : Bool :=
  !x.isNaN && !x.isInfinite

def isZero (x : Binary64) : Bool :=
  match x.number with
  | .finite _ 0 _ => true
  | _ => false

def sameNumber (x y : Binary64) : Bool :=
  x.number.same y.number

def ofInt (i : Int) : Binary64 :=
  ofRatio (i < 0) ⟨i.natAbs, 1⟩

/-- Exact: every number of the narrow format is one of the wide format. -/
def ofBinary32 (x : Binary32) : Binary64 :=
  ofNumber x.number

def toBinary32 (x : Binary64) : Binary32 :=
  .ofNumber x.number

def neg (x : Binary64) : Binary64 :=
  match x.number with
  | .nan => x
  | .infinite s => ofNumber (.infinite (!s))
  | .finite s m e => ofNumber (.finite (!s) m e)

/-- The product of two finite numbers, rounded once. -/
def mul (x y : Binary64) : Binary64 :=
  match x.number, y.number with
  | .finite s m p, .finite t n q => ofNumber (.finite (s != t) (m * n) (p + q))
  | .nan, _ | _, .nan => ofNumber .nan
  | .infinite s, .finite t n _ | .finite t n _, .infinite s =>
    ofNumber (if n = 0 then .nan else .infinite (s != t))
  | .infinite s, .infinite t => ofNumber (.infinite (s != t))

/-- The quotient of two numbers, rounded once. -/
def div (x y : Binary64) : Binary64 :=
  match x.number, y.number with
  | .finite s m p, .finite t n q =>
    if n = 0 then ofNumber (if m = 0 then .nan else .infinite (s != t))
    else
      let r := Ratio.scaled 2 m (p - q)
      ofRatio (s != t) ⟨r.numerator, r.denominator * n⟩
  | .nan, _ | _, .nan | .infinite _, .infinite _ => ofNumber .nan
  | .infinite s, .finite t _ _ => ofNumber (.infinite (s != t))
  | .finite s _ _, .infinite t => ofNumber (.finite (s != t) 0 0)

end Binary64

end SqlMapper
