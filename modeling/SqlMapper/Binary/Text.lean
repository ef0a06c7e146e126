import SqlMapper.Binary.Shortest

/-!
# SqlMapper.Binary.Text

Binary numbers as decimal text.

* `Layout`: when the digits are laid out around a decimal point and when with an exponent, whether
  a whole number keeps its `.0`, and how a tie between two shortest decimals goes.
* `Layout.plain`: the text shown to people and stored in decimal columns.
* `Layout.json64`, `Layout.json32`: the numbers of a JSON document.
* `Binary64.ofText?`: the number nearest to a decimal text.
-/

namespace SqlMapper
namespace Binary

structure Layout where
  tie : Tie
  /-- The exponents of the leading digit that are written without an exponent part; `none` if
  all are. -/
  positional : Option (Int × Int)
  /-- Whether a whole number without an exponent part ends in `.0`. -/
  pointZero : Bool
  deriving DecidableEq

namespace Layout

def plain : Layout := ⟨.up, none, false⟩

def json64 : Layout := ⟨.even, some (-5, 15), true⟩

def json32 : Layout := ⟨.even, some (-6, 12), true⟩

def isPositional (l : Layout) (leading : Int) : Bool :=
  match l.positional with
  | none => true
  | some (least, greatest) => least ≤ leading && leading ≤ greatest

private def zeros (n : Nat) : String :=
  .ofList (List.replicate n '0')

/-- Digits around a decimal point. -/
def aroundPoint (l : Layout) (digits : List Char) (exponent : Int) : String :=
  if 0 ≤ exponent then
    .ofList digits ++ zeros exponent.toNat ++ (if l.pointZero then ".0" else "")
  else
    let places := exponent.natAbs
    if digits.length ≤ places then
      "0." ++ zeros (places - digits.length) ++ .ofList digits
    else
      let whole := digits.length - places
      .ofList (digits.take whole) ++ "." ++ .ofList (digits.drop whole)

/-- One digit before the point and an exponent part after the last. -/
def withExponent (digits : List Char) (leading : Int) : String :=
  let fraction := if digits.length ≤ 1 then "" else "." ++ .ofList (digits.drop 1)
  let sign := if leading < 0 then "-" else "+"
  .ofList (digits.take 1) ++ fraction ++ "e" ++ sign ++
    toString leading.natAbs

def magnitude (l : Layout) (d : Decimal) : String :=
  let digits := (Nat.toDigits 10 d.digits)
  let leading := d.exponent + digits.length - 1
  if l.isPositional leading then l.aroundPoint digits d.exponent
  else withExponent digits leading

/-- Only numbers have a layout; not-a-number and the infinities have names. -/
def write (l : Layout) (f : Format) : Number → String
  | .nan => "NaN"
  | .infinite negative => if negative then "-inf" else "inf"
  | .finite negative significand exponent =>
    let sign := if negative then "-" else ""
    if significand = 0 then sign ++ (if l.pointZero then "0.0" else "0")
    else sign ++ l.magnitude (shortest f l.tie significand exponent)

end Layout

/-! ## Reading -/

/-- The value of a run of decimal digits. -/
def ofDigits (cs : List Char) : Nat :=
  cs.foldl (fun n c => 10 * n + (c.toNat - '0'.toNat)) 0

def allDigits (cs : List Char) : Bool :=
  !cs.isEmpty && cs.all Char.isDigit

/-- The exponent part of a decimal text, if `cs` is one or is empty. -/
def exponentPart? : List Char → Option Int
  | [] => some 0
  | c :: cs =>
    if c = 'e' || c = 'E' then
      match cs with
      | '+' :: ds => if allDigits ds then some (ofDigits ds) else none
      | '-' :: ds => if allDigits ds then some (-(ofDigits ds : Int)) else none
      | ds => if allDigits ds then some (ofDigits ds) else none
    else none

/-- An unsigned decimal text: digits with at most one point among them, at least one digit, and
an optional exponent part. -/
def decimal? (cs : List Char) : Option Decimal :=
  let whole := cs.takeWhile Char.isDigit
  let rest := cs.dropWhile Char.isDigit
  let (fraction, rest) := match rest with
    | '.' :: more => (more.takeWhile Char.isDigit, more.dropWhile Char.isDigit)
    | _ => ([], rest)
  if whole.isEmpty && fraction.isEmpty then none
  else
    (exponentPart? rest).map fun e => ⟨ofDigits (whole ++ fraction), e - fraction.length⟩

/-- No number of the format is at or above `10 ^ 310`, none but zero is below `10 ^ -330`. -/
def Decimal.round (f : Format) (negative : Bool) (d : Decimal) : Nat :=
  let leading := d.exponent + (Nat.toDigits 10 d.digits).length
  if d.digits = 0 || leading < -330 then f.withSign negative 0
  else if 310 < leading then f.withSign negative f.infinityBits
  else f.round negative (.scaled 10 d.digits d.exponent)

/-- An unsigned number in any notation that `Layout` writes, or the name of what is no number,
in letters of either case. -/
def unsigned? (f : Format) (negative : Bool) (cs : List Char) : Option Nat :=
  let name := cs.map Char.toLower
  if name = "inf".toList || name = "infinity".toList then some (f.withSign negative f.infinityBits)
  else if name = "nan".toList then some (f.withSign negative f.nanBits)
  else (decimal? cs).map (·.round f negative)

end Binary

namespace Binary32

def plainText (x : Binary32) : String :=
  Binary.Layout.plain.write Binary.single x.number

def jsonText (x : Binary32) : String :=
  Binary.Layout.json32.write Binary.single x.number

end Binary32

namespace Binary64

open Binary

def plainText (x : Binary64) : String :=
  Layout.plain.write double x.number

def jsonText (x : Binary64) : String :=
  Layout.json64.write double x.number

/-- The number nearest to a decimal text; no other character may stand in it. -/
def ofText? (s : String) : Option Binary64 :=
  let bits := match s.toList with
    | '+' :: cs => unsigned? double false cs
    | '-' :: cs => unsigned? double true cs
    | cs => unsigned? double false cs
  bits.map fun b => ⟨.ofNat b⟩

end Binary64

end SqlMapper
