import SqlMapper.Proofs.Text.Lexeme

/-!
# SqlMapper.Proofs.Text.Reserved

The words that SQL text is structured by, in capitals or not.

A word that does not start with a letter is none of them (`Reserved.of?_eq_none`), and neither is
any lexeme but a word. `Lexeme.isClause` tells the words that part a query into operands of set
operators and the clauses behind the last of them.
-/

namespace SqlMapper

inductive Reserved
  | and
  | or
  | not
  | is
  | null
  | member
  | like
  | ilike
  | between
  | escape
  | nonEmpty
  | cast
  | type
  | window
  | distinct
  | select
  | ctes
  | source
  | excluded
  | values
  | union
  | all
  | intersect
  | except
  | order
  | limit
  | offset
  deriving DecidableEq

namespace Reserved

def spelling : Reserved → String
  | and => "AND"
  | or => "OR"
  | not => "NOT"
  | is => "IS"
  | null => "NULL"
  | member => "IN"
  | like => "LIKE"
  | ilike => "ILIKE"
  | between => "BETWEEN"
  | escape => "ESCAPE"
  | nonEmpty => "EXISTS"
  | cast => "CAST"
  | type => "AS"
  | window => "OVER"
  | distinct => "DISTINCT"
  | select => "SELECT"
  | ctes => "WITH"
  | source => "FROM"
  | excluded => "EXCLUDED"
  | values => "VALUES"
  | union => "UNION"
  | all => "ALL"
  | intersect => "INTERSECT"
  | except => "EXCEPT"
  | order => "ORDER"
  | limit => "LIMIT"
  | offset => "OFFSET"

def list : List Reserved :=
  [and, or, not, is, null, member, like, ilike, between, escape, nonEmpty, cast, type, window,
    distinct, select, ctes, source, excluded, values, union, all, intersect, except, order, limit,
    offset]

/-- The word that is meant, in capitals or not. -/
def of? (w : List Char) : Option Reserved :=
  list.find? fun k => k.spelling.toList == w.map Char.toUpper

/-- Whether a query goes on with another operand after the word, or with what counts for all. -/
def isClause : Reserved → Bool
  | union | intersect | except | order | limit | offset => true
  | _ => false

def lexeme (k : Reserved) : Lexeme := .word k.spelling.toList

/-- A clause that the word starts, if it is there. -/
def clause (k : Reserved) (ls : Option (List Lexeme)) : List Lexeme := ls.elim [] (k.lexeme :: ·)

@[simp] theorem clause_none (k : Reserved) : k.clause none = [] := rfl

@[simp] theorem clause_some (k : Reserved) (ls : List Lexeme) :
    k.clause (some ls) = k.lexeme :: ls := rfl

@[simp] theorem of?_spelling (k : Reserved) : of? k.spelling.toList = some k := by
  cases k <;> decide

theorem of?_eq_none {w : List Char} (h : w.head?.any Char.isAlpha = false) : of? w = none := by
  refine List.find?_eq_none.2 fun k _ => ?_
  have hk : k.spelling.toList.head?.any Char.isUpper = true := by cases k <;> decide
  rw [beq_iff_eq]
  intro hspelling
  rw [hspelling] at hk
  cases w with
  | nil => cases hk
  | cons c cs =>
    have hc : (c.isUpper || c.isLower) = false := h
    rw [Bool.or_eq_false_iff] at hc
    have hlower : (decide (c.val ≥ 97) && decide (c.val ≤ 122)) = false := hc.2
    have hupper : c.toUpper.isUpper = true := hk
    have hsame : c.toUpper = c := by
      unfold Char.toUpper
      rw [dif_neg]
      rintro ⟨hfrom, hto⟩
      rw [Bool.and_eq_false_iff, decide_eq_false_iff_not, decide_eq_false_iff_not] at hlower
      exact hlower.elim (· hfrom) (· hto)
    rw [hsame, hc.1] at hupper
    cases hupper

end Reserved

namespace Lexeme

def reserved? : Lexeme → Option Reserved
  | word w => Reserved.of? w
  | _ => none

@[simp] theorem reserved?_lexeme (k : Reserved) : k.lexeme.reserved? = some k :=
  Reserved.of?_spelling k

def isClause (l : Lexeme) : Bool := l.reserved?.any Reserved.isClause

/-- Words that only a query holds outside of parentheses. -/
def isQueryWord (l : Lexeme) : Bool := l.reserved? = some .select || l.isClause

end Lexeme

end SqlMapper
