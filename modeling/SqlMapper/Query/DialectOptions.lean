import SqlMapper.Query.Dialect
import SqlMapper.Json.Basic

/-!
# SqlMapper.Query.DialectOptions

Dialects from documents: the name of a preset, or an object with the preset to start from and the
fields that differ from it. A field that is missing or of another kind stays as it is.
-/

namespace SqlMapper
namespace Dialect

/-- The preset named by a document; the first preset if there is none of that name. -/
def ofName (j : Option Json) : Dialect :=
  ((j.bind Json.string?).bind named?).getD default

def flag (options : Json) (name : String) (old : Bool) : Bool :=
  ((options.member? name).bind Json.bool?).getD old

def text? (options : Json) (name : String) : Option String :=
  (options.member? name).bind Json.string?

/-- One of several choices, by its name. -/
def choice {α : Type} (options : Json) (name : String) (choices : List (String × α)) (old : α) : α :=
  ((text? options name).bind fun s => choices.lookup s).getD old

/-- A text that can be taken away by `null`. -/
def optionalText (options : Json) (name : String) (old : Option String) : Option String :=
  match options.member? name with
  | none => old
  | some j => j.string?

def withOptions (d : Dialect) (o : Json) : Dialect where
  name := (text? o "name").getD d.name
  quoteChar := ((text? o "quote").bind fun s => s.toList.head?).getD d.quoteChar
  placeholders := choice o "placeholder"
    [("question", .question), ("dollar", .dollar), ("numbered", .numbered)] d.placeholders
  returning := flag o "returning" d.returning
  nullsOrdering := flag o "nulls_ordering" d.nullsOrdering
  compoundParentheses := choice o "compound_parentheses" [("never", .never), ("always", .always)]
    d.compoundParentheses
  ilike := flag o "ilike" d.ilike
  updateFrom := flag o "update_from" d.updateFrom
  deleteUsing := flag o "delete_using" d.deleteUsing
  distinctOn := flag o "distinct_on" d.distinctOn
  forUpdate := flag o "for_update" d.forUpdate
  conflict := choice o "conflict"
    [("sqlite", .sqlite), ("postgres", .postgres), ("mysql", .mysql)] d.conflict
  bitwiseXor := optionalText o "bitwise_xor" d.bitwiseXor
  concat := choice o "concat" [("operator", .operator), ("function", .function)] d.concat
  limitForOffset := optionalText o "limit_for_offset" d.limitForOffset
  likeEscape := (text? o "like_escape").getD d.likeEscape

def ofJson : Json → Dialect
  | .object members =>
    let o := Json.object members
    (ofName (o.member? "base")).withOptions o
  | j => ofName (some j)

end Dialect
end SqlMapper
