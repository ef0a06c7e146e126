import SqlMapper.Text.LowerCase.Table

/-!
# SqlMapper.Text.LowerCase

Lower case of text in any script. One character becomes one, with two exceptions: the dotted
capital I becomes an i and a dot above it, and a capital sigma becomes the final form at the end
of a word.
-/

namespace SqlMapper
namespace LowerCase

def inRanges (ranges : List (Nat × Nat)) (c : Char) : Bool :=
  ranges.any fun (first, last) => first ≤ c.toNat && c.toNat ≤ last

def isCased (c : Char) : Bool := inRanges casedRanges c

def isIgnorable (c : Char) : Bool := inRanges ignorableRanges c

/-- The lower-case form of one character by itself. -/
def ofChar (c : Char) : Char :=
  if c.toNat < 128 then c.toLower
  else
    let n := c.toNat
    match mappings.find? fun m => m.first ≤ n && n ≤ m.last && (n - m.first) % m.step == 0 with
    | some m => .ofNat ((n : Int) + m.offset).toNat
    | none => c

/-- Whether the nearest character that is not passed over is a cased letter. -/
def nextIsCased (cs : List Char) : Bool :=
  ((cs.dropWhile isIgnorable).head?).any isCased

/-- The lower-case form of `cs`, where `before` are the characters in front of it, last first. -/
def go (before : List Char) : List Char → List Char
  | [] => []
  | c :: cs =>
    let lower :=
      if c = 'Σ' then
        if nextIsCased before && !nextIsCased cs then ['ς'] else ['σ']
      else if c = 'İ' then ['i', '\u0307']
      else [ofChar c]
    lower ++ go (c :: before) cs

end LowerCase

def lowerCase (s : String) : String :=
  .ofList (LowerCase.go [] s.toList)

end SqlMapper
