import Mathlib.Tactic.IntervalCases
import SqlMapper.ColumnType

/-!
# SqlMapper.Proofs.Column.Uuid

Which texts are read as identifiers of sixteen bytes.

* `Hex.Digit`, `Hex.Spells`: the digits with their values, and texts of two digits for each byte.
* `Hex.toBytes?_iff`: a reader of pairs takes a plus sign at the start of a pair for a zero.
* `Uuid.parse_ok_iff`, `Uuid.parse_error_iff`: what is read, and what is refused.
* `ColumnType.uuid_text_iff`: a text is read for what its digits spell unless a plus sign stands for
  one of them, and what is shown for an identifier is read as that identifier.
-/

namespace SqlMapper

/-! ## Digits -/

namespace Hex

def smallDigits : List Char :=
  ['0', '1', '2', '3', '4', '5', '6', '7', '8', '9', 'a', 'b', 'c', 'd', 'e', 'f']

def capitalDigits : List Char :=
  ['0', '1', '2', '3', '4', '5', '6', '7', '8', '9', 'A', 'B', 'C', 'D', 'E', 'F']

/-- The character is the digit of that value, with a small or with a capital letter. -/
def Digit (c : Char) (n : Nat) : Prop :=
  smallDigits[n]? = some c ∨ capitalDigits[n]? = some c

theorem Digit.lt {c : Char} {n : Nat} (h : Digit c n) : n < 16 := by
  rcases h with h | h
  · exact (List.getElem?_eq_some_iff.1 h).1
  · exact (List.getElem?_eq_some_iff.1 h).1

theorem Digit.mem {c : Char} {n : Nat} (h : Digit c n) : c ∈ smallDigits ++ capitalDigits := by
  rcases h with h | h
  · exact List.mem_append_left _ (List.mem_of_getElem? h)
  · exact List.mem_append_right _ (List.mem_of_getElem? h)

theorem not_digit_plus (n : Nat) : ¬Digit '+' n := by
  intro h
  exact absurd h.mem (by decide)

theorem between_iff (first last c : Char) :
    (first ≤ c && c ≤ last) = true ↔ first.toNat ≤ c.toNat ∧ c.toNat ≤ last.toNat := by
  simp only [Bool.and_eq_true, decide_eq_true_eq, Char.le_def, UInt32.le_iff_toNat_le]
  exact Iff.rfl

/-- Three ranges of codes have values. -/
theorem code_of_digit? {c : Char} {n : Nat} (h : digit? c = some n) :
    (48 ≤ c.toNat ∧ c.toNat ≤ 57 ∧ n = c.toNat - 48) ∨
      (97 ≤ c.toNat ∧ c.toNat ≤ 102 ∧ n = c.toNat - 97 + 10) ∨
      (65 ≤ c.toNat ∧ c.toNat ≤ 70 ∧ n = c.toNat - 65 + 10) := by
  simp only [digit?, between_iff] at h
  split at h
  · rename_i hrange
    exact .inl ⟨hrange.1, hrange.2, (Option.some.inj h).symm⟩
  · split at h
    · rename_i hrange
      exact .inr (.inl ⟨hrange.1, hrange.2, (Option.some.inj h).symm⟩)
    · split at h
      · rename_i hrange
        exact .inr (.inr ⟨hrange.1, hrange.2, (Option.some.inj h).symm⟩)
      · cases h

theorem digit?_eq_some_iff {c : Char} {n : Nat} : digit? c = some n ↔ Digit c n := by
  constructor
  · intro h
    have hcode := code_of_digit? h
    have hc : c = Char.ofNat c.toNat := (Char.ofNat_toNat c).symm
    generalize c.toNat = k at hcode hc
    rcases hcode with ⟨hlow, hhigh, rfl⟩ | ⟨hlow, hhigh, rfl⟩ | ⟨hlow, hhigh, rfl⟩
    · interval_cases k <;> subst hc <;> exact .inl rfl
    · interval_cases k <;> subst hc <;> exact .inl rfl
    · interval_cases k <;> subst hc <;> exact .inr rfl
  · intro h
    have hn := h.lt
    interval_cases n <;> rcases h with h | h <;> cases h <;> rfl

theorem Digit.unique {c : Char} {m n : Nat} (hm : Digit c m) (hn : Digit c n) : m = n := by
  have h := digit?_eq_some_iff.2 hm
  rw [digit?_eq_some_iff.2 hn] at h
  exact (Option.some.inj h).symm

theorem digit_digit {n : Nat} (h : n < 16) : Digit (digit n) n := by
  interval_cases n <;> exact .inl rfl

/-! ## Bytes -/

/-- Two digits for each byte, the one that counts sixteenfold first. -/
inductive Spells : List Char → List UInt8 → Prop
  | nil : Spells [] []
  | cons {a b : Char} {cs : List Char} {byte : UInt8} {bytes : List UInt8} :
      Digit a (byte.toNat / 16) → Digit b (byte.toNat % 16) → Spells cs bytes →
        Spells (a :: b :: cs) (byte :: bytes)

/-- The text with a zero for each plus sign that is the first of a pair of characters. -/
def unsigned : List Char → List Char
  | a :: b :: cs => (if a = '+' then '0' else a) :: b :: unsigned cs
  | cs => cs

theorem pair?_eq_some_iff {a b : Char} {n : Nat} :
    pair? a b = some n ↔
      ∃ high low, Digit (if a = '+' then '0' else a) high ∧ Digit b low ∧ n = 16 * high + low := by
  unfold pair?
  split
  · rw [digit?_eq_some_iff]
    constructor
    · intro h
      exact ⟨0, n, .inl rfl, h, (Nat.zero_add n).symm⟩
    · rintro ⟨high, low, hhigh, hlow, rfl⟩
      obtain rfl : high = 0 := hhigh.unique (.inl rfl)
      simpa using hlow
  · simp only [Option.bind_eq_bind, Option.bind_eq_some_iff, digit?_eq_some_iff, Option.pure_def,
      Option.some.injEq]
    constructor
    · rintro ⟨high, hhigh, low, hlow, rfl⟩
      exact ⟨high, low, hhigh, hlow, rfl⟩
    · rintro ⟨high, low, hhigh, hlow, rfl⟩
      exact ⟨high, hhigh, low, hlow, rfl⟩

theorem pair?_byte {a b : Char} {byte : UInt8} :
    pair? a b = some byte.toNat ↔
      Digit (if a = '+' then '0' else a) (byte.toNat / 16) ∧ Digit b (byte.toNat % 16) := by
  rw [pair?_eq_some_iff]
  constructor
  · rintro ⟨high, low, hhigh, hlow, hbyte⟩
    have hlt := hlow.lt
    rw [show byte.toNat / 16 = high by omega, show byte.toNat % 16 = low by omega]
    exact ⟨hhigh, hlow⟩
  · rintro ⟨hhigh, hlow⟩
    exact ⟨_, _, hhigh, hlow, by omega⟩

theorem lt_of_pair? {a b : Char} {n : Nat} (h : pair? a b = some n) : n < 256 := by
  obtain ⟨high, low, hhigh, hlow, rfl⟩ := pair?_eq_some_iff.1 h
  have := hhigh.lt
  have := hlow.lt
  omega

theorem toBytes?_iff {cs : List Char} {bytes : List UInt8} :
    toBytes? cs = some bytes ↔ Spells (unsigned cs) bytes := by
  induction cs using toBytes?.induct generalizing bytes with
  | case1 =>
    constructor
    · rintro ⟨⟩
      exact .nil
    · rintro ⟨⟩
      rfl
  | case2 a b cs ih =>
    simp only [toBytes?, unsigned, Option.bind_eq_bind, Option.bind_eq_some_iff, Option.pure_def,
      Option.some.injEq]
    constructor
    · rintro ⟨n, hpair, more, hmore, rfl⟩
      have hn : (UInt8.ofNat n).toNat = n := UInt8.toNat_ofNat_of_lt' (lt_of_pair? hpair)
      rw [← hn, pair?_byte] at hpair
      exact .cons hpair.1 hpair.2 (ih.1 hmore)
    · rintro ⟨⟩
      rename_i byte more ha hb hmore
      exact ⟨byte.toNat, pair?_byte.2 ⟨ha, hb⟩, more, ih.2 hmore, by simp⟩
  | case3 a =>
    constructor
    · rintro ⟨⟩
    · rintro ⟨⟩

theorem Spells.digits {cs : List Char} {bytes : List UInt8} (h : Spells cs bytes) :
    ∀ c ∈ cs, ∃ n, Digit c n := by
  induction h with
  | nil =>
    intro c hc
    cases hc
  | @cons a b cs byte bytes ha hb _ ih =>
    intro c hc
    rcases List.mem_cons.1 hc with rfl | hc
    · exact ⟨_, ha⟩
    · rcases List.mem_cons.1 hc with rfl | hc
      · exact ⟨_, hb⟩
      · exact ih c hc

theorem Spells.ne_plus {cs : List Char} {bytes : List UInt8} (h : Spells cs bytes) :
    '+' ∉ cs := by
  intro hplus
  obtain ⟨n, hn⟩ := h.digits '+' hplus
  exact not_digit_plus n hn

/-- Any digits spell bytes, one for every two of them. -/
theorem exists_spells_iff {cs : List Char} {k : Nat} :
    (∃ bytes, bytes.length = k ∧ Spells cs bytes) ↔
      cs.length = 2 * k ∧ ∀ c ∈ cs, ∃ n, Digit c n := by
  constructor
  · rintro ⟨bytes, rfl, h⟩
    refine ⟨?_, h.digits⟩
    induction h with
    | nil => rfl
    | cons _ _ _ ih => simp [ih]; omega
  · rintro ⟨hlength, hdigits⟩
    induction k generalizing cs with
    | zero =>
      obtain rfl : cs = [] := List.length_eq_zero_iff.1 hlength
      exact ⟨[], rfl, .nil⟩
    | succ k ih =>
      match cs, hlength with
      | a :: b :: cs, hlength =>
        have hrest : cs.length = 2 * k := by simp at hlength; omega
        obtain ⟨bytes, rfl, h⟩ := ih hrest fun c hc =>
          hdigits c (List.mem_cons_of_mem _ (List.mem_cons_of_mem _ hc))
        obtain ⟨high, hhigh⟩ := hdigits a (by simp)
        obtain ⟨low, hlow⟩ := hdigits b (by simp)
        have hhigh' := hhigh.lt
        have hlow' := hlow.lt
        have hbyte : (UInt8.ofNat (16 * high + low)).toNat = 16 * high + low :=
          UInt8.toNat_ofNat_of_lt' (by change _ < 256; omega)
        refine ⟨.ofNat (16 * high + low) :: bytes, rfl, .cons ?_ ?_ h⟩
        · rw [hbyte, show (16 * high + low) / 16 = high by omega]
          exact hhigh
        · rw [hbyte, show (16 * high + low) % 16 = low by omega]
          exact hlow

theorem spells_ofBytes (bytes : List UInt8) : Spells (ofBytes bytes) bytes := by
  induction bytes with
  | nil => exact .nil
  | cons byte bytes ih =>
    have hbyte := byte.toNat_lt
    exact .cons (digit_digit (by omega)) (digit_digit (by omega)) ih

theorem unsigned_eq_self {cs : List Char} (h : '+' ∉ cs) : unsigned cs = cs := by
  induction cs using unsigned.induct with
  | case1 a b cs ih =>
    simp only [List.mem_cons, not_or] at h
    rw [unsigned, if_neg (Ne.symm h.1), ih h.2.2]
  | case2 cs hcs =>
    rw [unsigned]
    exact hcs

end Hex

/-! ## Identifiers -/

namespace Uuid

open Hex

/-- The text without its dashes. -/
def undashed (text : String) : List Char := text.toList.filter (· ≠ '-')

theorem parse_ok_iff {text : String} {u : Uuid} :
    parse text = .ok u ↔ Spells (unsigned (undashed text)) u.bytes := by
  have hread : (toBytes? (undashed text)).bind ofBytes? = some u ↔
      Spells (unsigned (undashed text)) u.bytes := by
    rw [← toBytes?_iff, Option.bind_eq_some_iff]
    constructor
    · rintro ⟨bytes, hbytes, hu⟩
      unfold ofBytes? at hu
      split at hu
      · cases hu
        exact hbytes
      · cases hu
    · intro hbytes
      exact ⟨u.bytes, hbytes, ofBytes?_bytes u⟩
  rw [← hread]
  unfold parse undashed
  dsimp only
  split
  · rename_i v hv
    rw [hv]
    simp
  · rename_i hnone
    rw [hnone]
    simp

theorem parse_error_iff {text : String} {e : Error} :
    parse text = .error e ↔
      e = .conversion (.invalidUuid text) ∧
        ∀ u : Uuid, ¬Spells (unsigned (undashed text)) u.bytes := by
  simp only [← parse_ok_iff]
  unfold parse
  dsimp only
  split
  · simp
  · simp [eq_comm]

theorem exists_spells_iff {cs : List Char} :
    (∃ u : Uuid, Spells cs u.bytes) ↔ cs.length = 32 ∧ ∀ c ∈ cs, ∃ n, Digit c n := by
  rw [show 32 = 2 * 16 from rfl, ← Hex.exists_spells_iff]
  constructor
  · rintro ⟨u, hu⟩
    exact ⟨u.bytes, u.length_eq, hu⟩
  · rintro ⟨bytes, hlength, hbytes⟩
    exact ⟨⟨bytes, hlength⟩, hbytes⟩

theorem undashed_text (u : Uuid) : undashed u.text = ofBytes u.bytes := by
  rw [undashed, text, String.toList_ofList, List.filter_eq_self]
  intro c hc
  obtain ⟨n, hn⟩ := (spells_ofBytes u.bytes).digits c hc
  have hdash : c ≠ '-' := by
    rintro rfl
    exact absurd hn.mem (by decide)
  simpa using hdash

theorem parse_text (u : Uuid) : parse u.text = .ok u := by
  have h := spells_ofBytes u.bytes
  rw [parse_ok_iff, undashed_text, unsigned_eq_self h.ne_plus]
  exact h

/-- The text has a plus sign in the place of a digit, and is read all the same. -/
def Signed (text : String) : Prop :=
  '+' ∈ undashed text ∧ ∃ u : Uuid, Spells (unsigned (undashed text)) u.bytes

/-- The text is read exactly if it is thirty-two digits apart from dashes, and for the bytes that
these spell. -/
structure ReadByDigits (codec : Value → Except Error Value) (text : String) : Prop where
  read : (∃ v, codec (.text text) = .ok v) ↔
    (undashed text).length = 32 ∧ ∀ c ∈ undashed text, ∃ n, Digit c n
  value : ∀ v, codec (.text text) = .ok v ↔ ∃ u : Uuid, v = .uuid u ∧ Spells (undashed text) u.bytes

end Uuid

namespace ColumnType

open Hex Uuid

theorem encode_uuid_text (s : String) : uuid.encode (.text s) = (Uuid.parse s).map .uuid := rfl

theorem decode_uuid_text (s : String) : uuid.decode (.text s) = uuid.encode (.text s) := rfl

theorem encode_uuid_ok_iff {s : String} {v : Value} :
    uuid.encode (.text s) = .ok v ↔
      ∃ u : Uuid, v = .uuid u ∧ Spells (unsigned (undashed s)) u.bytes := by
  simp only [← parse_ok_iff]
  rw [encode_uuid_text]
  cases parse s with
  | ok u => simp [Except.map, eq_comm]
  | error e => simp [Except.map]

theorem encode_uuid_error_iff {s : String} {e : Error} :
    uuid.encode (.text s) = .error e ↔
      e = .conversion (.invalidUuid s) ∧ ∀ u : Uuid, ¬Spells (unsigned (undashed s)) u.bytes := by
  rw [← parse_error_iff, encode_uuid_text]
  cases parse s with
  | ok u => simp [Except.map]
  | error e => simp [Except.map]

theorem readByDigits_iff (s : String) : ReadByDigits uuid.encode s ↔ ¬Signed s := by
  constructor
  · rintro h ⟨hplus, u, hu⟩
    obtain ⟨_, -, hspells⟩ := (h.value (.uuid u)).1 (encode_uuid_ok_iff.2 ⟨u, rfl, hu⟩)
    exact hspells.ne_plus hplus
  · intro hsigned
    have hvalue (v : Value) : uuid.encode (.text s) = .ok v ↔
        ∃ u : Uuid, v = .uuid u ∧ Spells (undashed s) u.bytes := by
      rw [encode_uuid_ok_iff]
      by_cases hplus : '+' ∈ undashed s
      · constructor
        · rintro ⟨u, -, hu⟩
          exact absurd ⟨hplus, u, hu⟩ hsigned
        · rintro ⟨u, -, hu⟩
          exact absurd hplus hu.ne_plus
      · rw [unsigned_eq_self hplus]
    refine ⟨?_, hvalue⟩
    simp only [← Uuid.exists_spells_iff, hvalue]
    constructor
    · rintro ⟨_, u, -, hu⟩
      exact ⟨u, hu⟩
    · rintro ⟨u, hu⟩
      exact ⟨_, u, rfl, hu⟩

/-- What is stored for a text and what a stored text means agree: the bytes that the digits spell,
where a plus sign that is the first of a pair counts as a zero. So a text is read by its digits
unless a plus sign stands for one of them, and what is shown for an identifier is read as that
identifier. -/
theorem uuid_text_iff (s : String) (u : Uuid) :
    uuid.decode (.text s) = uuid.encode (.text s) ∧
    (∀ v, uuid.encode (.text s) = .ok v ↔
      ∃ u' : Uuid, v = .uuid u' ∧ Spells (unsigned (undashed s)) u'.bytes) ∧
    (∀ e, uuid.encode (.text s) = .error e ↔
      e = .conversion (.invalidUuid s) ∧ ∀ u' : Uuid, ¬Spells (unsigned (undashed s)) u'.bytes) ∧
    (ReadByDigits uuid.encode s ↔ ¬Signed s) ∧ (ReadByDigits uuid.decode s ↔ ¬Signed s) ∧
    uuid.encode (.text (Value.uuid u).display) = .ok (.uuid u) ∧
    uuid.decode (.text (Value.uuid u).display) = .ok (.uuid u) := by
  have hshown : uuid.encode (.text (Value.uuid u).display) = .ok (.uuid u) := by
    rw [Value.display, encode_uuid_text, parse_text]
    rfl
  have hdecode : ReadByDigits uuid.decode s ↔ ReadByDigits uuid.encode s :=
    ⟨fun h => ⟨h.read, h.value⟩, fun h => ⟨h.read, h.value⟩⟩
  exact ⟨decode_uuid_text s, fun v => encode_uuid_ok_iff, fun e => encode_uuid_error_iff,
    readByDigits_iff s, hdecode.trans (readByDigits_iff s), hshown,
    (decode_uuid_text _).trans hshown⟩

end ColumnType

namespace Sample

/-- Thirty-one digits, and a plus sign before the second digit of a byte. -/
def signedText : String := "+f112233445566778899aabbccddeeff"

def signedBytes : Uuid :=
  ⟨[0x0f, 0x11, 0x22, 0x33, 0x44, 0x55, 0x66, 0x77, 0x88, 0x99, 0xaa, 0xbb, 0xcc, 0xdd, 0xee, 0xff],
    rfl⟩

/-- The text with the plus sign is read, as if the sign were a zero. -/
theorem signedText_read :
    ColumnType.uuid.encode (.text signedText) = .ok (.uuid signedBytes) ∧
    ¬Uuid.ReadByDigits ColumnType.uuid.encode signedText := by
  have hread : ColumnType.uuid.encode (.text signedText) = .ok (.uuid signedBytes) := by rfl
  refine ⟨hread, fun h => ?_⟩
  obtain ⟨n, hn⟩ := (h.read.1 ⟨_, hread⟩).2 '+' (by decide)
  exact Hex.not_digit_plus n hn

end Sample

end SqlMapper
