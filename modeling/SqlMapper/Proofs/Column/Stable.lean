import SqlMapper.ColumnType

/-!
# SqlMapper.Proofs.Column.Stable

What the codecs of column types do when they are applied again.

* `ColumnType.Holds`: an integer as a value of an integer type, if the type has room for it.
* `ColumnType.Own`, `ColumnType.decode_cases`: decoding leaves a value as it is or makes it one of
  the type's own.
* `ColumnType.encode_of_decode_eq`: encoding leaves a decoded value as it is, unless it is a
  document.
* `ColumnType.codecs_stable`: decoded values stay what they are when they are decoded again and
  when they are stored and read back, and so do encoded values when they are encoded again.
-/

namespace SqlMapper
namespace ColumnType

variable {t : ColumnType} {v w s : Value} {n : Int64} {e : Error}

/-! ## Integers -/

/-- The integer as a value of the integer type. -/
inductive Holds : ColumnType → Int → Value → Prop
  | smallInt {i : Int} (k : Int16) : k.toInt = i → Holds .smallInt i (.smallInt k)
  | integer {i : Int} (k : Int32) : k.toInt = i → Holds .integer i (.int k)
  | bigInt {i : Int} (k : Int64) : k.toInt = i → Holds .bigInt i (.bigInt k)

theorem narrow_ok_iff {least greatest : Int} {make : Int64 → Value} :
    narrow v n least greatest make = .ok w ↔
      (least ≤ n.toInt ∧ n.toInt ≤ greatest) ∧ w = make n := by
  unfold narrow
  by_cases hrange : least ≤ n.toInt ∧ n.toInt ≤ greatest
  · simp [hrange, eq_comm]
  · simp [hrange]

theorem narrow_error {least greatest : Int} {make : Int64 → Value}
    (h : narrow v n least greatest make = .error e) :
    e = .conversion (.integerOutOfRange v.typeName) := by
  unfold narrow at h
  split at h
  · cases h
  · cases h
    rfl

theorem holds_smallInt_iff :
    Holds .smallInt n.toInt w ↔
      (-32768 ≤ n.toInt ∧ n.toInt ≤ 32767) ∧ w = .smallInt n.toInt16 := by
  constructor
  · intro h
    cases h with
    | smallInt k hk =>
      have hlow := k.le_toInt
      have hhigh := k.toInt_lt
      refine ⟨⟨by omega, by omega⟩, ?_⟩
      have hn : n = k.toInt64 := Int64.toInt_inj.1 (by rw [Int16.toInt_toInt64, hk])
      rw [hn, Int16.toInt16_toInt64]
  · rintro ⟨⟨hlow, hhigh⟩, rfl⟩
    refine .smallInt _ ?_
    rw [Int64.toInt_toInt16]
    exact Int.bmod_eq_of_le (by omega) (by omega)

theorem holds_integer_iff :
    Holds .integer n.toInt w ↔
      (-2147483648 ≤ n.toInt ∧ n.toInt ≤ 2147483647) ∧ w = .int n.toInt32 := by
  constructor
  · intro h
    cases h with
    | integer k hk =>
      have hlow := k.le_toInt
      have hhigh := k.toInt_lt
      refine ⟨⟨by omega, by omega⟩, ?_⟩
      have hn : n = k.toInt64 := Int64.toInt_inj.1 (by rw [Int32.toInt_toInt64, hk])
      rw [hn, Int32.toInt32_toInt64]
  · rintro ⟨⟨hlow, hhigh⟩, rfl⟩
    refine .integer _ ?_
    rw [Int64.toInt_toInt32]
    exact Int.bmod_eq_of_le (by omega) (by omega)

theorem holds_bigInt_iff : Holds .bigInt n.toInt w ↔ w = .bigInt n := by
  constructor
  · intro h
    cases h with
    | bigInt k hk => rw [Int64.toInt_inj.1 hk]
  · rintro rfl
    exact .bigInt n rfl

theorem decode_of_int64? (h : v.int64? = some n) : t.decode v = t.decodeInteger v n := by
  unfold decode
  rw [h]

/-- An integer type takes exactly the integers that it has room for. -/
theorem decode_integer_iff (ht : t.isInteger = true) (h : v.int64? = some n) :
    t.decode v = .ok w ↔ Holds t n.toInt w := by
  rw [decode_of_int64? h]
  cases t with
  | smallInt => rw [decodeInteger, narrow_ok_iff, holds_smallInt_iff]
  | integer => rw [decodeInteger, narrow_ok_iff, holds_integer_iff]
  | bigInt => simp [decodeInteger, holds_bigInt_iff, eq_comm]
  | _ => cases ht

theorem decode_integer_error (ht : t.isInteger = true) (h : v.int64? = some n)
    (he : t.decode v = .error e) : e = .conversion (.integerOutOfRange v.typeName) := by
  rw [decode_of_int64? h] at he
  cases t with
  | smallInt =>
    rw [decodeInteger] at he
    exact narrow_error he
  | integer =>
    rw [decodeInteger] at he
    exact narrow_error he
  | bigInt => cases he
  | _ => cases ht

/-! ## Decoding -/

/-- A value that is stored in the way of the type. -/
inductive Own : ColumnType → Value → Prop
  | boolean (b : Bool) : Own .boolean (.bool b)
  | smallInt (n : Int16) : Own .smallInt (.smallInt n)
  | integer (n : Int32) : Own .integer (.int n)
  | bigInt (n : Int64) : Own .bigInt (.bigInt n)
  | real (x : Binary32) : Own .real (.float x)
  | double (x : Binary64) : Own .double (.double x)
  | decimal (precision scale : UInt8) (text : String) :
      Own (.decimal precision scale) (.decimal text)
  | json (j : Json) : Own .json (.json j)
  | uuid (u : Uuid) : Own .uuid (.uuid u)

theorem decodeInteger_cases (h : t.decodeInteger v n = .ok w) : w = v ∨ Own t w := by
  cases t with
  | boolean =>
    simp only [decodeInteger] at h
    split at h
    · cases h
      exact .inl rfl
    · cases h
      exact .inr (.boolean _)
  | smallInt =>
    rw [decodeInteger, narrow_ok_iff] at h
    exact .inr (h.2 ▸ .smallInt _)
  | integer =>
    rw [decodeInteger, narrow_ok_iff] at h
    exact .inr (h.2 ▸ .integer _)
  | bigInt =>
    cases h
    exact .inr (.bigInt n)
  | double =>
    cases h
    exact .inr (.double _)
  | _ =>
    cases h
    exact .inl rfl

theorem map_uuid_ok {x : Except Error Uuid} (h : x.map .uuid = .ok w) : ∃ u, w = .uuid u := by
  cases x with
  | ok u =>
    cases h
    exact ⟨u, rfl⟩
  | error e => cases h

theorem decode_cases (h : t.decode v = .ok w) : w = v ∨ Own t w := by
  unfold decode at h
  split at h
  · exact decodeInteger_cases h
  · split at h
    · cases h
      exact .inr (.real _)
    · cases h
      exact .inr (.double _)
    · cases h
      exact .inr (.decimal ..)
    · split at h
      · cases h
        exact .inr (.json _)
      · cases h
    · split at h
      · cases h
        exact .inr (.uuid _)
      · cases h
    · obtain ⟨u, rfl⟩ := map_uuid_ok h
      exact .inr (.uuid u)
    · cases h
      exact .inl rfl

theorem Own.decode (h : Own t v) : t.decode v = .ok v := by
  cases h with
  | smallInt n => exact (decode_integer_iff rfl rfl).2 (.smallInt n (Int16.toInt_toInt64 n).symm)
  | integer n => exact (decode_integer_iff rfl rfl).2 (.integer n (Int32.toInt_toInt64 n).symm)
  | _ => rfl

/-- Decoding what has been decoded changes nothing. -/
theorem decode_decode (h : t.decode v = .ok w) : t.decode w = .ok w := by
  rcases decode_cases h with rfl | hown
  · exact h
  · exact hown.decode

/-! ## Encoding -/

/-- A decoded document is stored as its text, and any other decoded value as it is. -/
theorem encode_of_decode_eq (h : t.decode w = .ok w) :
    (∃ j, t = .json ∧ w = .json j ∧ t.encode w = .ok (.text j.print)) ∨ t.encode w = .ok w := by
  unfold encode
  split
  · exact .inl ⟨_, rfl, rfl, rfl⟩
  · cases h
  · obtain ⟨u, hu⟩ := map_uuid_ok h
    cases hu
  · exact .inr rfl

/-- Encoding what has been encoded changes nothing. -/
theorem encode_encode (h : t.encode v = .ok s) : t.encode s = .ok s := by
  have hencode := h
  unfold encode at h
  split at h
  · cases h
    rfl
  · cases h
    rfl
  · obtain ⟨u, rfl⟩ := map_uuid_ok h
    rfl
  · cases h
    exact hencode

/-! ## Both -/

/-- A decoded value can be stored, and what is stored is decoded to it, unless it is a document
whose text is read as another one. -/
theorem exists_encode_of_decode (h : t.decode v = .ok w) :
    ∃ s, t.encode w = .ok s ∧
      ((∀ j, t = .json → w = .json j → Json.parse? j.print = some j) → t.decode s = .ok w) := by
  rcases encode_of_decode_eq (decode_decode h) with ⟨j, rfl, rfl, hencode⟩ | hencode
  · refine ⟨_, hencode, fun hdocument => ?_⟩
    have hread := hdocument j rfl rfl
    simp [decode, Value.int64?, hread]
  · exact ⟨w, hencode, fun _ => decode_decode h⟩

/-- Each type keeps what it has decoded, when that is decoded again and when it is stored, and what
it has encoded, when that is encoded again. An integer type takes the integers that it has room
for and refuses the others. -/
theorem codecs_stable (t : ColumnType) :
    (∀ v w, t.decode v = .ok w →
      t.decode w = .ok w ∧ ∃ s, t.encode w = .ok s ∧
        ((∀ j, t = .json → w = .json j → Json.parse? j.print = some j) → t.decode s = .ok w)) ∧
    (∀ v s, t.encode v = .ok s → t.encode s = .ok s) ∧
    ∀ v n, t.isInteger = true → v.int64? = some n →
      (∀ w, t.decode v = .ok w ↔ Holds t n.toInt w) ∧
      ((∀ w, ¬Holds t n.toInt w) →
        t.decode v = .error (.conversion (.integerOutOfRange v.typeName))) := by
  refine ⟨fun v w h => ⟨decode_decode h, exists_encode_of_decode h⟩,
    fun v s h => encode_encode h, fun v n ht hn => ⟨fun w => decode_integer_iff ht hn, ?_⟩⟩
  intro hnone
  cases hdecode : t.decode v with
  | ok w => exact absurd ((decode_integer_iff ht hn).1 hdecode) (hnone w)
  | error e => rw [decode_integer_error ht hn hdecode]

end ColumnType

namespace Sample

open ColumnType

/-- A document whose members stand in order. -/
def inventory : Json :=
  .object [("items", .array [.bool true, .string "a"]), ("none", .null)]

theorem print_inventory :
    inventory.print = "\x7b\"items\":[true,\"a\"],\"none\":null\x7d" := by rfl

theorem parse_inventory : Json.parse? inventory.print = some inventory := by
  have hscan : Json.Token.scan? inventory.print.toList =
      some [.openObject, .string "items", .colon, .openArray, .scalar (.bool true), .comma,
        .string "a", .closeArray, .comma, .string "none", .colon, .scalar .null, .closeObject] := by
    rw [print_inventory]
    rfl
  have hread : Json.read? inventory.print = some inventory := by
    rw [Json.read?, hscan]
    rfl
  have hcanonical : inventory.canonical = inventory := by rfl
  rw [Json.parse?, hread, Option.map_some, hcanonical]

def dashedText : String := "00112233-4455-6677-8899-aabbccddeeff"

def dashed : Uuid :=
  ⟨[0x00, 0x11, 0x22, 0x33, 0x44, 0x55, 0x66, 0x77, 0x88, 0x99, 0xaa, 0xbb, 0xcc, 0xdd, 0xee, 0xff],
    rfl⟩

/-- A document that is read from its text and stored again, an identifier that is encoded twice,
and a small integer with room for one number and not for another. -/
theorem inventory_stable :
    json.decode (.text inventory.print) = .ok (.json inventory) ∧
    (json.decode (.json inventory) = .ok (.json inventory) ∧
      ∃ s, json.encode (.json inventory) = .ok s ∧ json.decode s = .ok (.json inventory)) ∧
    (uuid.encode (.text dashedText) = .ok (.uuid dashed) ∧
      uuid.encode (.uuid dashed) = .ok (.uuid dashed)) ∧
    smallInt.decode (.bigInt 300) = .ok (.smallInt 300) ∧
    smallInt.decode (.int 40000) = .error (.conversion (.integerOutOfRange "int")) := by
  have hread : json.decode (.text inventory.print) = .ok (.json inventory) := by
    simp [decode, Value.int64?, parse_inventory]
  have hencode : uuid.encode (.text dashedText) = .ok (.uuid dashed) := by rfl
  obtain ⟨hagain, s, hs, hback⟩ := (codecs_stable .json).1 _ _ hread
  refine ⟨hread, ⟨hagain, s, hs, hback ?_⟩, ⟨hencode, (codecs_stable .uuid).2.1 _ _ hencode⟩,
    ((codecs_stable .smallInt).2.2 (.bigInt 300) 300 rfl rfl).1 _ |>.2 (.smallInt 300 rfl),
    ((codecs_stable .smallInt).2.2 (.int 40000) 40000 rfl rfl).2 ?_⟩
  · rintro _ - ⟨⟩
    exact parse_inventory
  · intro w h
    cases h with
    | smallInt k hk =>
      have hhigh := k.toInt_lt
      rw [hk] at hhigh
      exact absurd hhigh (by decide)

end Sample
end SqlMapper
