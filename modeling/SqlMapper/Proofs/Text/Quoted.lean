import SqlMapper.Identifier

/-!
# SqlMapper.Proofs.Text.Quoted

Quoted names, read from the left.

* `Identifier.readFrom`: the rule. A doubled quote character stands for one, a single one closes a
  part, and a dot behind that leads to the next part.
* `Identifier.readFrom_intercalate`: quoted parts are read for what they are, up to any text that
  goes on with neither a quote character nor a dot.
* `Identifier.quote_reads_back`: so no name gets out of its quotes, and no two names have one form.
-/

namespace SqlMapper
namespace Identifier

/-! ## Reading -/

inductive Place
  | opening
  | inside
  /-- Behind a quote character that closes the part unless it is doubled. -/
  | closing

/-- The parts of a quoted name at the start of a text, and what comes after the name. `part` is what
has been read of the part so far. -/
def readFrom (quote : Char) : Place → List Char → List Char →
    Option (List (List Char) × List Char)
  | .opening, _, [] => none
  | .opening, _, c :: cs => if c = quote then readFrom quote .inside [] cs else none
  | .inside, _, [] => none
  | .inside, part, c :: cs =>
    if c = quote then readFrom quote .closing part cs else readFrom quote .inside (part ++ [c]) cs
  | .closing, part, [] => some ([part], [])
  | .closing, part, c :: cs =>
    if c = quote then readFrom quote .inside (part ++ [c]) cs
    else if c = '.' then
      (readFrom quote .opening [] cs).map fun (parts, rest) => (part :: parts, rest)
    else some ([part], c :: cs)

def readName? (quote : Char) (text : List Char) : Option (List (List Char) × List Char) :=
  readFrom quote .opening [] text

/-- The text does not go on with a name that stands before it. -/
def Ends (quote : Char) (rest : List Char) : Prop := ∀ c ∈ rest.head?, c ≠ quote ∧ c ≠ '.'

variable {quote : Char} {part rest : List Char}

theorem readFrom_doubled (more : List Char) :
    readFrom quote .inside part (doubled quote more ++ rest) =
      readFrom quote .inside (part ++ more) rest := by
  induction more generalizing part with
  | nil => simp [doubled]
  | cons c more ih =>
    have hcons : doubled quote (c :: more) =
        (if c = quote then [quote, c] else [c]) ++ doubled quote more := rfl
    rw [hcons]
    by_cases hc : c = quote
    · simp [hc, readFrom, ih]
    · simp [hc, readFrom, ih]

theorem readFrom_quotePart (p : List Char) :
    readFrom quote .opening part (quotePart quote p ++ rest) =
      readFrom quote .closing p rest := by
  simp [quotePart, readFrom, readFrom_doubled]

theorem readFrom_closing (h : Ends quote rest) :
    readFrom quote .closing part rest = some ([part], rest) := by
  cases rest with
  | nil => rfl
  | cons c rest =>
    obtain ⟨hquote, hdot⟩ := h c rfl
    simp [readFrom, hquote, hdot]

theorem readFrom_intercalate (hquote : quote ≠ '.') {ps : List (List Char)} (hps : ps ≠ [])
    (h : Ends quote rest) :
    readFrom quote .opening part (['.'].intercalate (ps.map (quotePart quote)) ++ rest) =
      some (ps, rest) := by
  induction ps generalizing part with
  | nil => exact absurd rfl hps
  | cons p ps ih =>
    cases ps with
    | nil => simp [readFrom_quotePart, readFrom_closing h]
    | cons p' ps =>
      have hrest : readFrom quote .opening []
          (['.'].intercalate (quotePart quote p' :: ps.map (quotePart quote)) ++ rest) =
            some (p' :: ps, rest) := ih (List.cons_ne_nil p' ps)
      rw [List.map_cons, List.map_cons, List.intercalate_cons_cons, List.append_assoc,
        List.append_assoc, readFrom_quotePart, List.singleton_append, readFrom,
        if_neg hquote.symm, if_pos rfl, hrest]
      rfl

/-! ## Names -/

theorem parts_eq_splitOn (name : List Char) : parts name = name.splitOn '.' := by
  induction name with
  | nil => rfl
  | cons c name ih =>
    rw [parts, ih, List.splitOn_cons_eq_if_modifyHead]
    by_cases hc : c = '.'
    · simp [hc]
    · obtain ⟨p, ps, hsplit⟩ := List.exists_cons_of_ne_nil (List.splitOn_ne_nil '.' name)
      simp [hc, hsplit]

/-- Whatever comes after it, a quoted name is read for the parts of the name. -/
theorem readName?_quote (name : String) (hquote : quote ≠ '.') (h : Ends quote rest) :
    readName? quote ((Identifier.quote name quote).toList ++ rest) =
      some (name.toList.splitOn '.', rest) := by
  rw [readName?, Identifier.quote, String.toList_ofList, quoteChars, parts_eq_splitOn]
  exact readFrom_intercalate hquote (List.splitOn_ne_nil '.' name.toList) h

theorem readName?_quote_all (name : String) (hquote : quote ≠ '.') :
    readName? quote (Identifier.quote name quote).toList = some (name.toList.splitOn '.', []) := by
  have hends : Ends quote [] := by rintro c ⟨⟩
  have h := readName?_quote name hquote hends
  rwa [List.append_nil] at h

/-- A quoted name is read to its end, and no further, for the parts of the name. So no two names are
quoted alike. -/
theorem quote_reads_back (name : String) {quote : Char} (hquote : quote ≠ '.') :
    readName? quote (Identifier.quote name quote).toList = some (name.toList.splitOn '.', []) ∧
    (∀ rest, Ends quote rest →
      readName? quote ((Identifier.quote name quote).toList ++ rest) =
        some (name.toList.splitOn '.', rest)) ∧
    ∀ other, Identifier.quote other quote = Identifier.quote name quote → other = name := by
  refine ⟨readName?_quote_all name hquote, fun rest h => readName?_quote name hquote h, ?_⟩
  intro other hsame
  have hother := readName?_quote_all other hquote
  rw [hsame, readName?_quote_all name hquote] at hother
  have hparts : name.toList.splitOn '.' = other.toList.splitOn '.' :=
    congrArg Prod.fst (Option.some.inj hother)
  apply String.toList_injective
  calc other.toList = ['.'].intercalate (other.toList.splitOn '.') :=
        (List.intercalate_splitOn '.').symm
    _ = ['.'].intercalate (name.toList.splitOn '.') := by rw [hparts]
    _ = name.toList := List.intercalate_splitOn '.'

end Identifier

namespace Sample

/-- Quote characters at both ends of a part and in a row, and an empty part. -/
def awkwardName : String := "\"a\"..b\"\"c\""

/-- Text that would go on if the name left its quotes does not become part of it. -/
theorem awkwardName_reads_back :
    '"' ≠ '.' ∧
    Identifier.quote awkwardName '"' = "\"\"\"a\"\"\".\"\".\"b\"\"\"\"c\"\"\"" ∧
    Identifier.readName? '"' (Identifier.quote awkwardName '"').toList =
      some ([['"', 'a', '"'], [], ['b', '"', '"', 'c', '"']], []) ∧
    Identifier.readName? '"' ((Identifier.quote awkwardName '"').toList ++ [';']) =
      some ([['"', 'a', '"'], [], ['b', '"', '"', 'c', '"']], [';']) := by
  have hquote : '"' ≠ '.' := by decide
  obtain ⟨hall, hrest, -⟩ := Identifier.quote_reads_back awkwardName hquote
  refine ⟨hquote, by rfl, hall, hrest [';'] ?_⟩
  rintro c ⟨⟩
  decide

end Sample
end SqlMapper
