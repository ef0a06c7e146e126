import SqlMapper.Proofs.Statement.Parameters

/-!
# SqlMapper.Proofs.Statement.Dialects

What a statement binds in different dialects.

The atoms of a statement are listed without a dialect, and a run puts them out in their order in
every dialect. So they alone say what is bound (`Statement.bindAll_of_compile`), whatever the
dialect has for concatenation, compound queries, offsets or conflicts.
-/

namespace SqlMapper

namespace Atom

/-- What atoms bind, in their order, with defaults drawn from the supply. -/
def bindAll : List Atom → Supply → Except Error (List Value × Supply)
  | [], s => .ok ([], s)
  | a :: as, s =>
    match a.bound? s with
    | none => bindAll as s
    | some (.error e, _) => .error e
    | some (.ok v, s) => (bindAll as s).map fun (vs, s) => (v :: vs, s)

theorem bindAll_cons_of_unbound {a : Atom} {s : Supply} (h : a.bound? s = none) (as : List Atom) :
    bindAll (a :: as) s = bindAll as s := by
  rw [bindAll, h]

theorem bindAll_cons_of_bound {a : Atom} {as : List Atom} {s s₁ s' : Supply} {v : Value}
    {vs : List Value} (h : a.bound? s = some (.ok v, s₁)) (hrest : bindAll as s₁ = .ok (vs, s')) :
    bindAll (a :: as) s = .ok (v :: vs, s') := by
  rw [bindAll, h]
  dsimp only
  rw [hrest]
  rfl

theorem bound?_of_isSilent {a : Atom} (h : a.isSilent = true) (s : Supply) : a.bound? s = none := by
  cases a with
  | source | reference | target => rfl
  | word | literal | null | default => cases h

/-- The parameters among the pieces are what the atoms bind. -/
theorem Written.bindAll {as : List Atom} {s s' : Supply} {ps : List Piece}
    (h : Written as s ps s') : Atom.bindAll as s = .ok (ps.filterMap Piece.param?, s') := by
  induction h with
  | nil => rfl
  | sql _ _ ih => exact ih
  | name _ _ ih => exact ih
  | word _ _ ih => exact (bindAll_cons_of_unbound rfl _).trans ih
  | identifier _ _ ih => exact (bindAll_cons_of_unbound rfl _).trans ih
  | bound hv _ ih => exact bindAll_cons_of_bound hv ih
  | silent ha _ ih => exact (bindAll_cons_of_unbound (bound?_of_isSilent ha _) _).trans ih

end Atom

namespace Statement

theorem bindAll_of_compile {st : Statement} {d : Dialect} {s s' : Supply} {r : Rendered}
    (h : st.compile d s = (.ok r, s')) : Atom.bindAll st.atoms s = .ok (r.params, s') := by
  obtain ⟨ps, m, hps, rfl, rfl⟩ := pieces_of_compile h
  exact ((Statement.laid d st).written hps).bindAll

/-- A statement that compiles in two dialects has the same parameters in both, and draws as many
defaults. -/
theorem params_eq_of_compile (st : Statement) (d d' : Dialect) (s t t' : Supply)
    (r r' : Rendered) (hr : st.compile d s = (.ok r, t)) (hr' : st.compile d' s = (.ok r', t')) :
    r.params = r'.params ∧ t = t' := by
  have hbound := (bindAll_of_compile hr).symm.trans (bindAll_of_compile hr')
  exact Prod.mk.inj (Except.ok.inj hbound)

end Statement

namespace Sample

/-- A note that is put together by the database, unless there is one. -/
def merged : Statement :=
  .insert (((Insert.of ⟨note, none⟩).row
    [⟨"body", .binary (.literal (.text "a")) .concat (.literal (.text "b"))⟩]).onConflictDo .ignore)

def mergedOnPostgres : List Piece :=
  [.text "INSERT INTO", .text " ", .name "notes", .text " (", .name "body", .text ", ",
    .name "stamp", .text ") VALUES ", .text "(", .text "(", .param (.text "a"), .text " ",
    .text "||", .text " ", .param (.text "b"), .text ")", .text ", ", .param (.bigInt 7),
    .text ")", .text " ON CONFLICT", .text " DO NOTHING"]

def mergedOnMysql : List Piece :=
  [.text "INSERT IGNORE INTO", .text " ", .name "notes", .text " (", .name "body", .text ", ",
    .name "stamp", .text ") VALUES ", .text "(", .text "CONCAT(", .param (.text "a"), .text ", ",
    .param (.text "b"), .text ")", .text ", ", .param (.bigInt 7), .text ")"]

theorem merged_params :
    ∃ r r', merged.compile .postgres ⟨7⟩ = (.ok r, ⟨8⟩) ∧
      merged.compile .mysql ⟨7⟩ = (.ok r', ⟨8⟩) ∧ r.sql ≠ r'.sql ∧ r.params = r'.params := by
  have hr : merged.compile .postgres ⟨7⟩ = (.ok (.ofPieces .postgres mergedOnPostgres), ⟨8⟩) := by
    with_unfolding_all rfl
  have hr' : merged.compile .mysql ⟨7⟩ = (.ok (.ofPieces .mysql mergedOnMysql), ⟨8⟩) := by
    with_unfolding_all rfl
  have hparams := (Statement.params_eq_of_compile merged .postgres .mysql ⟨7⟩ _ _ _ _ hr hr').1
  exact ⟨_, _, hr, hr', by decide +kernel, hparams⟩

end Sample

end SqlMapper
