/-!
# SqlMapper.Text.Hex

Hexadecimal text: two lower-case digits for a byte on writing, digits of either case on reading.
-/

namespace SqlMapper
namespace Hex

/-- The lower-case digit of a number below sixteen. -/
def digit (n : Nat) : Char :=
  if n < 10 then .ofNat ('0'.toNat + n) else .ofNat ('a'.toNat + (n - 10))

def digit? (c : Char) : Option Nat :=
  if '0' ≤ c && c ≤ '9' then some (c.toNat - '0'.toNat)
  else if 'a' ≤ c && c ≤ 'f' then some (c.toNat - 'a'.toNat + 10)
  else if 'A' ≤ c && c ≤ 'F' then some (c.toNat - 'A'.toNat + 10)
  else none

def ofByte (b : UInt8) : List Char :=
  [digit (b.toNat / 16), digit (b.toNat % 16)]

def ofBytes (bs : List UInt8) : List Char :=
  bs.flatMap ofByte

/-- The value of a pair of characters: two digits, or one digit after a plus sign. -/
def pair? (a b : Char) : Option Nat :=
  if a = '+' then digit? b
  else do
    let high ← digit? a
    let low ← digit? b
    pure (16 * high + low)

/-- Reads pairs of characters as bytes; an odd character at the end is refused. -/
def toBytes? : List Char → Option (List UInt8)
  | [] => some []
  | a :: b :: rest => do
    let n ← pair? a b
    let more ← toBytes? rest
    pure (.ofNat n :: more)
  | [_] => none

/-- The number that a non-empty run of digits spells. -/
def toNat? (cs : List Char) : Option Nat :=
  if cs.isEmpty then none
  else cs.foldlM (fun n c => (digit? c).map (16 * n + ·)) 0

end Hex
end SqlMapper
