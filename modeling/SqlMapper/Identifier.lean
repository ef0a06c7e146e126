import SqlMapper.Error
import SqlMapper.Text.LowerCase

/-!
# SqlMapper.Identifier

Names in SQL text.

* `Identifier.quote`: a name between quote characters, part by part when it is dotted; a quote
  character inside a part is doubled.
* `Identifier.isValid`, `Identifier.validate`: names that stand in SQL without quotes.
* `Identifier.tableName`: the table that goes with the name of a model, `TweetLike` with
  `tweet_like`.
-/

namespace SqlMapper
namespace Identifier

/-! ## Quoting -/

/-- The parts of a dotted name; a name without a dot is one part. -/
def parts : List Char → List (List Char)
  | [] => [[]]
  | c :: cs =>
    if c = '.' then [] :: parts cs
    else
      match parts cs with
      | [] => [[c]]
      | p :: ps => (c :: p) :: ps

def doubled (quote : Char) (part : List Char) : List Char :=
  part.flatMap fun c => if c = quote then [quote, c] else [c]

def quotePart (quote : Char) (part : List Char) : List Char :=
  quote :: doubled quote part ++ [quote]

def quoteChars (quote : Char) (name : List Char) : List Char :=
  ['.'].intercalate ((parts name).map (quotePart quote))

def quote (name : String) (quote : Char) : String :=
  .ofList (quoteChars quote name.toList)

/-! ## Plain identifiers -/

def isFirst (c : Char) : Bool := c.isAlpha || c == '_'

def isNext (c : Char) : Bool := c.isAlphanum || c == '_'

/-- ASCII letters, digits and underscores, not starting with a digit. -/
def isValid (name : String) : Bool :=
  match name.toList with
  | [] => false
  | c :: cs => isFirst c && cs.all isNext

/-- `role` says in the error what the name was to be. -/
def validate (name role : String) : Except Error Unit :=
  if isValid name then .ok () else .error (.query (.invalidIdentifier role name))

/-! ## Table names -/

def isWordEnd (c : Char) : Bool := c.isLower || c.isDigit

/-- Separates words from left to right: an underscore goes between a lower-case letter or digit and
a capital, and between a capital and the capital that starts a capitalised word. The characters
of a boundary are not looked at again, so a boundary that overlaps one is passed over. -/
def separateWords : List Char → List Char
  | a :: b :: rest =>
    if isWordEnd a && b.isUpper then a :: '_' :: b :: separateWords rest
    else
      match rest with
      | c :: rest' =>
        if a.isUpper && b.isUpper && c.isLower then a :: '_' :: b :: c :: separateWords rest'
        else a :: separateWords (b :: c :: rest')
      | [] => a :: separateWords [b]
  | [a] => [a]
  | [] => []

/-- The second pass finds the boundaries that the first has passed over. -/
def tableName (model : String) : String :=
  lowerCase (.ofList (separateWords (separateWords model.toList)))

end Identifier
end SqlMapper
