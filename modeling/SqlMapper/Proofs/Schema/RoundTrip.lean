import SqlMapper.Proofs.Schema.Integrity
import SqlMapper.Record

/-!
# SqlMapper.Proofs.Schema.RoundTrip

Records made of rows: which values the fields have in the end, whatever the order of the columns
and whatever else is in the row.

* `Row.Carries`: the fields of a model that a row has, and their values.
* `Row.Carries.decodeRow`: these fields are decoded, and no others.
* `Record.fill`: values that are assigned by name reach their own positions.
* `Record.ofRow_carries`: the record has the values that were encoded, and its defaults where the
  row has nothing.
-/

namespace SqlMapper

/-! ## Rows -/

namespace Row

theorem find?_eq_lookup (row : Row) (column : String) :
    row.find? column = row.pairs.lookup column := by
  obtain ⟨columns, values⟩ := row
  unfold find? pairs get?
  dsimp only
  induction columns generalizing values with
  | nil => rfl
  | cons c columns ih =>
    rw [List.idxOf?_cons]
    cases values with
    | nil => simp
    | cons v values =>
      by_cases hc : column = c
      · subst hc
        simp
      · have hc' : (c == column) = false := beq_false_of_ne (Ne.symm hc)
        rw [List.zip_cons_cons, List.lookup_cons, beq_false_of_ne hc, hc', ← ih]
        simp only [Bool.false_eq_true, if_false, Option.bind_map]
        rfl

/-- Where all entries of a column agree it does not matter that the first one counts. -/
theorem find?_of_mem {row : Row} {column : String} {v : Value} (hmem : (column, v) ∈ row.pairs)
    (hsame : ∀ w, (column, w) ∈ row.pairs → w = v) : row.find? column = some v := by
  rw [find?_eq_lookup]
  cases hfind : row.pairs.lookup column with
  | none => exact absurd (List.lookup_eq_none_iff.1 hfind _ hmem) (by simp)
  | some w =>
    obtain ⟨before, after, hpairs, -⟩ := List.lookup_eq_some_iff.1 hfind
    refine congrArg some (hsame w ?_)
    rw [hpairs]
    exact List.mem_append_right _ (List.mem_cons_self ..)

theorem find?_eq_none {row : Row} {column : String} (h : ∀ p ∈ row.pairs, p.1 ≠ column) :
    row.find? column = none := by
  rw [find?_eq_lookup, List.lookup_eq_none_iff]
  intro p hp
  simpa using (h p hp).symm

end Row

/-- Under the columns of the fields that are carried the row has the encoded values of these, in
any order, and every other column of it is not one of the model's. -/
structure Row.Carries (row : Row) (m : Model) (carried : Field → Bool)
    (value stored : Field → Value) (others : List (String × Value)) : Prop where
  encode : ∀ f ∈ m.fields, carried f → f.encode (value f) = .ok (stored f)
  decode : ∀ f ∈ m.fields, carried f → f.decode (stored f) = .ok (value f)
  foreign : ∀ p ∈ others, p.1 ∉ m.columns
  pairs : row.pairs.Perm
    ((m.fields.filter carried).map (fun f => (f.column, stored f)) ++ others)

/-! ## Fields by position and by name -/

theorem Fields.Sound.getElem?_ordinal {fs : List Field} (h : Fields.Sound fs) {f : Field}
    (hf : f ∈ fs) : fs[f.ordinal]? = some f := by
  obtain ⟨i, hi⟩ := List.mem_iff_getElem?.1 hf
  have hlt : i < fs.length := (List.getElem?_eq_some_iff.1 hi).1
  have hord : (fs.map Field.ordinal)[i]? = some f.ordinal := by rw [List.getElem?_map, hi]; rfl
  rw [h.ordinals, List.getElem?_range hlt] at hord
  cases hord
  exact hi

theorem Fields.Sound.eq_of_ordinal {fs : List Field} (h : Fields.Sound fs) {f g : Field}
    (hf : f ∈ fs) (hg : g ∈ fs) (hfg : f.ordinal = g.ordinal) : f = g := by
  have hf' := h.getElem?_ordinal hf
  rw [hfg, h.getElem?_ordinal hg] at hf'
  exact (Option.some.inj hf').symm

theorem Model.Sound.field_name {m : Model} (h : m.Sound) {f : Field} (hf : f ∈ m.fields) :
    m.field f.name = .ok f := by
  unfold field
  cases hfind : m.field? f.name with
  | none => exact absurd (List.find?_eq_none.1 hfind f hf) (by simp)
  | some g =>
    have hname : g.name = f.name := by simpa using List.find?_some hfind
    have hg : g ∈ m.fields := List.mem_of_find?_eq_some hfind
    exact congrArg Except.ok (List.inj_on_of_nodup_map h.fields.names hg hf hname)

/-! ## Decoding -/

namespace Row.Carries

variable {row : Row} {m : Model} {carried : Field → Bool} {value stored : Field → Value}
  {others : List (String × Value)}

theorem mem_pairs (h : row.Carries m carried value stored others) {p : String × Value} :
    p ∈ row.pairs ↔
      (∃ f ∈ m.fields, carried f ∧ (f.column, stored f) = p) ∨ p ∈ others := by
  rw [h.pairs.mem_iff, List.mem_append, List.mem_map]
  simp only [List.mem_filter, and_assoc]

/-- No two fields have one column, so an entry under the column of a field is that field's. -/
theorem eq_of_mem_pairs (h : row.Carries m carried value stored others) (hm : m.Sound) {f : Field}
    (hf : f ∈ m.fields) {v : Value} (hmem : (f.column, v) ∈ row.pairs) :
    carried f ∧ v = stored f := by
  rcases h.mem_pairs.1 hmem with ⟨g, hg, hcarried, hpair⟩ | hother
  · obtain ⟨hcolumn, rfl⟩ := Prod.mk.inj hpair
    obtain rfl : g = f := List.inj_on_of_nodup_map hm.fields.columns hg hf hcolumn
    exact ⟨hcarried, rfl⟩
  · exact absurd (List.mem_map_of_mem hf) (h.foreign _ hother)

theorem find?_column (h : row.Carries m carried value stored others) (hm : m.Sound) {f : Field}
    (hf : f ∈ m.fields) : row.find? f.column = if carried f then some (stored f) else none := by
  by_cases hcarried : carried f
  · rw [if_pos hcarried]
    refine find?_of_mem (h.mem_pairs.2 (.inl ⟨f, hf, hcarried, rfl⟩)) fun w hw => ?_
    exact (h.eq_of_mem_pairs hm hf hw).2
  · rw [if_neg hcarried]
    refine find?_eq_none fun p hp hcolumn => hcarried ?_
    obtain ⟨c, v⟩ := p
    cases hcolumn
    exact (h.eq_of_mem_pairs hm hf hp).1

theorem decodeRow (h : row.Carries m carried value stored others) (hm : m.Sound) :
    m.decodeRow row = .ok ((m.fields.filter carried).map fun f => (f.name, value f)) := by
  unfold Model.decodeRow
  refine foldlM_filter carried (fun f => (f.name, value f)) fun done f hf => ?_
  rw [h.find?_column hm hf]
  by_cases hcarried : carried f
  · rw [if_pos hcarried, if_pos hcarried]
    show (f.decode (stored f)).map _ = _
    rw [h.decode f hf hcarried]
    rfl
  · rw [if_neg hcarried, if_neg hcarried]

end Row.Carries

/-! ## Records -/

/-- What a new record has for a field with that default, and the supply after it. Only a computed
default is known before the database is asked. -/
def FieldDefault.start (s : Supply) : Option FieldDefault → Value × Supply
  | some (computed draw) => draw s
  | some (server _) => (.null, s)
  | none => (.null, s)

/-- The supply after the defaults of these fields were drawn. -/
def Supply.afterDefaults (fs : List Field) (s : Supply) : Supply :=
  fs.foldl (fun s f => (FieldDefault.start s f.decl.default).2) s

/-- The value of a field of a new record: its default, drawn after those of the fields before it,
else NULL. -/
def Model.startValue (m : Model) (s : Supply) (f : Field) : Value :=
  (FieldDefault.start (s.afterDefaults (m.fields.take f.ordinal)) f.decl.default).1

/-- What a new record has for a field, if the supply is `s` when it comes to the field. -/
def Slot.start (f : Field) (s : Supply) : Slot :=
  ⟨(FieldDefault.start s f.decl.default).1, false⟩

theorem Field.drawDefault_start (f : Field) (s : Supply) :
    ((f.drawDefault s).1.getD .null, (f.drawDefault s).2) =
      FieldDefault.start s f.decl.default := by
  unfold drawDefault
  cases f.decl.default with
  | none => rfl
  | some d => cases d <;> rfl

namespace Record

variable {r : Record} {m : Model} {f : Field}

/-- One field of a new record. -/
def createSlot (p : List Slot × Supply) (f : Field) : List Slot × Supply :=
  (p.1 ++ [Slot.start f p.2], (FieldDefault.start p.2 f.decl.default).2)

theorem create_eq (m : Model) (s : Supply) :
    create m s = (⟨m, (m.fields.foldl createSlot ([], s)).1, []⟩,
      (m.fields.foldl createSlot ([], s)).2) := by
  have hstep : createSlot = fun p f =>
      (p.1 ++ [⟨(f.drawDefault p.2).1.getD .null, false⟩], (f.drawDefault p.2).2) := by
    funext p f
    rw [createSlot, Slot.start, ← f.drawDefault_start p.2]
  rw [hstep]
  rfl

theorem foldl_createSlot (fs : List Field) (slots : List Slot) (s : Supply) :
    ∃ drawn : List Slot,
      fs.foldl createSlot (slots, s) = (slots ++ drawn, s.afterDefaults fs) ∧
      drawn.length = fs.length ∧
      ∀ i f, fs[i]? = some f → drawn[i]? = some (Slot.start f (s.afterDefaults (fs.take i))) := by
  induction fs generalizing slots s with
  | nil =>
    refine ⟨[], ?_, rfl, fun i f h => nomatch h⟩
    rw [List.append_nil]
    rfl
  | cons g fs ih =>
    obtain ⟨drawn, hrun, hlength, hdrawn⟩ :=
      ih (slots ++ [Slot.start g s]) (FieldDefault.start s g.decl.default).2
    refine ⟨Slot.start g s :: drawn, ?_, ?_, ?_⟩
    · rw [List.append_assoc] at hrun
      exact hrun
    · rw [List.length_cons, List.length_cons, hlength]
    · intro i f hf
      cases i with
      | zero =>
        cases hf
        rfl
      | succ i => exact hdrawn i f hf

theorem create_spec (hm : m.Sound) (s : Supply) :
    (create m s).2 = s.afterDefaults m.fields ∧ (create m s).1.model = m ∧
      (create m s).1.slots.length = m.fields.length ∧
      ∀ f ∈ m.fields, (create m s).1.value f = m.startValue s f := by
  obtain ⟨drawn, hrun, hlength, hdrawn⟩ := foldl_createSlot m.fields [] s
  rw [create_eq, hrun]
  refine ⟨rfl, rfl, hlength, fun f hf => ?_⟩
  show (drawn[f.ordinal]?).elim .null Slot.value = _
  rw [hdrawn f.ordinal f (hm.fields.getElem?_ordinal hf)]
  rfl

/-- The record that `set` gives for a field of its model. -/
def assign (r : Record) (f : Field) (v : Value) : Record :=
  { r with slots := r.slots.set f.ordinal ⟨v, true⟩ }.forget f.name

theorem set_ok (hm : r.model.Sound) (hf : f ∈ r.model.fields) (v : Value) :
    r.set f.name v = .ok (r.assign f v) := by
  unfold set
  rw [hm.field_name hf]
  rfl

theorem length_assign (r : Record) (f : Field) (v : Value) :
    (r.assign f v).slots.length = r.slots.length :=
  List.length_set

theorem value_assign_self (hf : f.ordinal < r.slots.length) (v : Value) :
    (r.assign f v).value f = v := by
  show ((r.slots.set f.ordinal ⟨v, true⟩)[f.ordinal]?).elim .null Slot.value = v
  rw [List.getElem?_set_self hf]
  rfl

theorem value_assign_ne {g : Field} (h : f.ordinal ≠ g.ordinal) (v : Value) :
    (r.assign f v).value g = r.value g := by
  show ((r.slots.set f.ordinal ⟨v, true⟩)[g.ordinal]?).elim .null Slot.value = r.value g
  rw [List.getElem?_set_ne h]
  rfl

/-- Values that are assigned to fields by name are read from these fields, and every other field
keeps its own. -/
theorem fill (hm : r.model.Sound) (hslots : r.slots.length = r.model.fields.length)
    (fs : List Field) (hfs : ∀ f ∈ fs, f ∈ r.model.fields) (v : Field → Value) :
    ∃ r' : Record,
      (fs.map fun f => (f.name, v f)).foldlM (fun r p => r.set p.1 p.2) r = .ok r' ∧
      r'.model = r.model ∧ (∀ f ∈ fs, r'.value f = v f) ∧
      ∀ f ∈ r.model.fields, f ∉ fs → r'.value f = r.value f := by
  induction fs generalizing r with
  | nil => exact ⟨r, rfl, rfl, fun _ hf => (nomatch hf), fun _ _ _ => rfl⟩
  | cons f fs ih =>
    have hf : f ∈ r.model.fields := hfs f (List.mem_cons_self ..)
    rw [List.map_cons, List.foldlM_cons, set_ok hm hf]
    obtain ⟨r', hrun, hmodel, hset, hkept⟩ :=
      ih (r := r.assign f (v f)) hm ((length_assign ..).trans hslots) fun g hg =>
        hfs g (List.mem_cons_of_mem _ hg)
    refine ⟨r', hrun, hmodel, fun g hg => ?_, fun g hg hnot => ?_⟩
    · by_cases hlater : g ∈ fs
      · exact hset g hlater
      · obtain rfl : g = f := (List.mem_cons.1 hg).resolve_right hlater
        rw [hkept g hf hlater]
        exact value_assign_self (hslots ▸ hm.fields.ordinal_lt hf) (v g)
    · have hne : f.ordinal ≠ g.ordinal := by
        intro hord
        exact hnot (List.mem_cons.2 (.inl (hm.fields.eq_of_ordinal hf hg hord).symm))
      rw [hkept g hg fun hlater => hnot (List.mem_cons_of_mem _ hlater)]
      exact value_assign_ne hne (v f)

theorem value_clearAssigned (r : Record) (f : Field) : r.clearAssigned.value f = r.value f := by
  unfold clearAssigned value
  dsimp only
  rw [List.getElem?_map]
  cases r.slots[f.ordinal]? <;> rfl

theorem assignedFields_clearAssigned (r : Record) : r.clearAssigned.assignedFields = [] := by
  unfold clearAssigned assignedFields
  dsimp only
  rw [List.map_eq_nil_iff, List.filter_eq_nil_iff]
  intro f _
  rw [List.getElem?_map]
  cases r.slots[f.ordinal]? <;> simp

/-- A record that is made of a row has the values that were encoded into it, its defaults in the
fields that the row does not carry, and nothing that counts as assigned. -/
theorem ofRow_carries {calls : List Registration} (hm : m ∈ (Registry.after calls).models)
    {row : Row} {carried : Field → Bool} {value stored : Field → Value}
    {others : List (String × Value)} (hrow : row.Carries m carried value stored others)
    (s : Supply) :
    m.decodeRow row = .ok ((m.fields.filter carried).map fun f => (f.name, value f)) ∧
    ∃ r, ofRow m row s = (.ok r, s.afterDefaults m.fields) ∧ r.model = m ∧
      r.assignedFields = [] ∧
      ∀ f ∈ m.fields,
        r.get f.name = .ok (if carried f then value f else m.startValue s f) := by
  have hsound : m.Sound := (Registry.sound_after calls).models m hm
  have hdecode := hrow.decodeRow hsound
  obtain ⟨hsupply, hmodel, hlength, hstart⟩ := create_spec hsound s
  obtain ⟨r, hrun, hmodel', hset, hkept⟩ := fill (r := (create m s).1)
    (by rw [hmodel]; exact hsound) (by rw [hmodel]; exact hlength)
    (m.fields.filter carried) (fun f hf => by rw [hmodel]; exact List.mem_of_mem_filter hf) value
  refine ⟨hdecode, r.clearAssigned, ?_, hmodel'.trans hmodel, assignedFields_clearAssigned r, ?_⟩
  · unfold ofRow
    rw [hdecode, ← hsupply]
    exact congrArg (fun x : Except Error Record => (x.bind fun r => .ok r.clearAssigned, _)) hrun
  · intro f hf
    have hfield : r.clearAssigned.model.field f.name = .ok f := by
      show r.model.field f.name = .ok f
      rw [hmodel', hmodel]
      exact hsound.field_name hf
    unfold get
    rw [hfield]
    refine congrArg Except.ok ((value_clearAssigned r f).trans ?_)
    by_cases hcarried : carried f
    · rw [if_pos hcarried]
      exact hset f (List.mem_filter.2 ⟨hf, hcarried⟩)
    · rw [if_neg hcarried, ← hstart f hf]
      refine hkept f (by rw [hmodel]; exact hf) fun hmem => hcarried (List.mem_filter.1 hmem).2

end Record

namespace Sample

/-- Stored as a word. -/
def sealedDecl : FieldDecl where
  name := "sealed"
  type := .boolean
  encode := some fun v => .ok (.text (if v.bool? = some true then "yes" else "no"))
  decode := some fun v => .ok (.bool (v.text? = some "yes"))

def serialDecl : FieldDecl where
  name := "serial"
  type := .bigInt
  default := some (.computed fun s => (.bigInt (.ofNat s.drawn), ⟨s.drawn + 1⟩))

def ownerDecl : FieldDecl := .referring "Person" none { name := "owner", type := .bigInt }

def parcelDecl : ModelDecl where
  name := "Parcel"
  table := some "parcels"
  fields := [ownerDecl, sealedDecl, serialDecl]

def parcel : Model where
  name := "Parcel"
  table := "parcels"
  fields := [⟨0, "id", "Parcel", .autoId⟩, ⟨1, "owner_id", "Parcel", ownerDecl⟩,
    ⟨2, "sealed", "Parcel", sealedDecl⟩, ⟨3, "serial", "Parcel", serialDecl⟩]
  primaryKey := .single 0
  foreignKeys := [⟨"owner", "owner_id", "Person", "people", "id", "id", some "parcels_set"⟩]
  indexes := []
  reverse := []

/-- Another column that happens to have the name of a field, and no serial. -/
def parcelRow : Row :=
  .ofPairs [("sealed", .text "yes"), ("owner", .text "Ada"), ("id", .bigInt 7),
    ("owner_id", .bigInt 3)]

def parcelValue (f : Field) : Value :=
  [Value.bigInt 7, .bigInt 3, .bool true].getD f.ordinal .null

def parcelStored (f : Field) : Value :=
  [Value.bigInt 7, .bigInt 3, .text "yes"].getD f.ordinal .null

theorem parcelRow_carries : parcelRow.Carries parcel (fun f => f.ordinal != 3) parcelValue
    parcelStored [("owner", .text "Ada")] where
  encode := by simp [parcel]; exact ⟨rfl, rfl, rfl⟩
  decode := by simp [parcel]; exact ⟨rfl, rfl, rfl⟩
  foreign := by decide
  pairs := (List.perm_append_comm :
    ([("sealed", .text "yes"), ("owner", .text "Ada")] ++
      [("id", .bigInt 7), ("owner_id", .bigInt 3)] : List (String × Value)).Perm _)

theorem parcel_read :
    parcel ∈ (Registry.after [.declaration personDecl, .declaration parcelDecl]).models ∧
      ∃ r, Record.ofRow parcel parcelRow ⟨5⟩ = (.ok r, ⟨6⟩) ∧ r.assignedFields = [] ∧
        r.get "owner" = .ok (.bigInt 3) ∧ r.get "sealed" = .ok (.bool true) ∧
        r.get "serial" = .ok (.bigInt 5) := by
  have hregistered :
      parcel ∈ (Registry.after [.declaration personDecl, .declaration parcelDecl]).models :=
    List.mem_of_getElem? (i := 1) (by with_unfolding_all rfl)
  obtain ⟨-, r, hrun, -, hclean, hget⟩ :=
    Record.ofRow_carries hregistered parcelRow_carries ⟨5⟩
  refine ⟨hregistered, r, hrun, hclean, ?_, ?_, ?_⟩
  · exact hget ⟨1, "owner_id", "Parcel", ownerDecl⟩ (by simp [parcel])
  · exact hget ⟨2, "sealed", "Parcel", sealedDecl⟩ (by simp [parcel])
  · exact hget ⟨3, "serial", "Parcel", serialDecl⟩ (by simp [parcel])

end Sample

end SqlMapper
