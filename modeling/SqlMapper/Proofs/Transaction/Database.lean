import SqlMapper.Rehearsal.Scripted

/-!
# SqlMapper.Proofs.Transaction.Database

A database with transactions, as one connection sees it.

* `Control.ofSql?`: reads a control statement back from its text.
* `Database`: the data, the levels that are open with what the data were before each, and a record
  of all statements that came in.
* `Behaviour`: what statements do to the data, and how the calls are answered. Nothing is assumed of
  the answers, so a theorem about all behaviours holds for every way in which calls can fail.
* `Behaviour.Exact`: a statement takes effect exactly if it reports success.
-/

namespace SqlMapper

/-! ## Control statements and their texts -/

namespace Control

theorem sql_savepoint (n : Nat) : (savepoint n).sql = "SAVEPOINT " ++ savepointName n := rfl
theorem sql_release (n : Nat) : (release n).sql = "RELEASE SAVEPOINT " ++ savepointName n := rfl
theorem sql_rollbackTo (n : Nat) :
    (rollbackTo n).sql = "ROLLBACK TO SAVEPOINT " ++ savepointName n := rfl

/-- The letters by which the kinds of control statements differ. -/
def mark (sql : List Char) : Option Char × Option Char × Option Char :=
  (sql[0]?, sql[1]?, sql[8]?)

def shape : Control → Option Char × Option Char × Option Char
  | begin => (some 'B', some 'E', none)
  | commit => (some 'C', some 'O', none)
  | rollback => (some 'R', some 'O', none)
  | savepoint _ => (some 'S', some 'A', some 'T')
  | release _ => (some 'R', some 'E', some 'S')
  | rollbackTo _ => (some 'R', some 'O', some ' ')

theorem mark_append {front : List Char} (h : 8 < front.length) (back : List Char) :
    mark (front ++ back) = mark front := by
  have h0 : 0 < front.length := by omega
  have h1 : 1 < front.length := by omega
  rw [mark, mark, List.getElem?_append_left h0, List.getElem?_append_left h1,
    List.getElem?_append_left h]

theorem mark_sql (c : Control) : mark c.sql.toList = c.shape := by
  cases c with
  | begin | commit | rollback => decide
  | savepoint n =>
    rw [sql_savepoint, String.toList_append, mark_append (by decide), shape]
    decide
  | release n =>
    rw [sql_release, String.toList_append, mark_append (by decide), shape]
    decide
  | rollbackTo n =>
    rw [sql_rollbackTo, String.toList_append, mark_append (by decide), shape]
    decide

theorem toList_savepointName (n : Nat) :
    (savepointName n).toList = "sp_".toList ++ Nat.toDigits 10 n := by
  rw [savepointName, String.toList_append, Nat.toString_eq_repr, Nat.toList_repr]

theorem savepointName_injective {m n : Nat} (h : savepointName m = savepointName n) : m = n := by
  have hlist := congrArg String.toList h
  rw [toList_savepointName, toList_savepointName] at hlist
  rw [← Nat.ofDigitChars_ten_toDigits (n := m), List.append_cancel_left hlist,
    Nat.ofDigitChars_ten_toDigits]

theorem eq_of_append {front a b : String} (h : front ++ a = front ++ b) : a = b := by
  have hlist := congrArg String.toList h
  rw [String.toList_append, String.toList_append] at hlist
  exact String.toList_inj.1 (List.append_cancel_left hlist)

/-- A text is at most one control statement. -/
theorem sql_injective {c c' : Control} (h : c.sql = c'.sql) : c = c' := by
  have hshape : c.shape = c'.shape := by rw [← mark_sql, ← mark_sql, h]
  cases c <;> cases c' <;> first | rfl | (simp [shape] at hshape; done) | skip
  all_goals exact congrArg _ (savepointName_injective (eq_of_append h))

/-- The number that comes after some words. -/
def numberAfter (words sql : String) : Nat :=
  Nat.ofDigitChars 10 (sql.toList.drop words.toList.length) 0

theorem numberAfter_append (words : String) (n : Nat) :
    numberAfter words (words ++ toString n) = n := by
  rw [numberAfter, String.toList_append, List.drop_left, Nat.toString_eq_repr, Nat.toList_repr,
    Nat.ofDigitChars_ten_toDigits]

/-- The control statements that a text can be, each with its own text. Those that name a savepoint
are taken with the number that the text has in this place. -/
def readings (sql : String) : List (String × Control) :=
  let opened := numberAfter "SAVEPOINT sp_" sql
  let released := numberAfter "RELEASE SAVEPOINT sp_" sql
  let undone := numberAfter "ROLLBACK TO SAVEPOINT sp_" sql
  [("BEGIN", begin), ("COMMIT", commit), ("ROLLBACK", rollback),
    ("SAVEPOINT sp_" ++ toString opened, savepoint opened),
    ("RELEASE SAVEPOINT sp_" ++ toString released, release released),
    ("ROLLBACK TO SAVEPOINT sp_" ++ toString undone, rollbackTo undone)]

/-- The control statement that a text is, if it is one. -/
def ofSql? (sql : String) : Option Control :=
  ((readings sql).find? (·.1 == sql)).map Prod.snd

theorem savepoint_text (n : Nat) : (savepoint n).sql = "SAVEPOINT sp_" ++ toString n :=
  String.append_assoc.symm

theorem release_text (n : Nat) : (release n).sql = "RELEASE SAVEPOINT sp_" ++ toString n :=
  String.append_assoc.symm

theorem rollbackTo_text (n : Nat) : (rollbackTo n).sql = "ROLLBACK TO SAVEPOINT sp_" ++ toString n :=
  String.append_assoc.symm

theorem sql_of_mem_readings {sql : String} {p : String × Control} (h : p ∈ readings sql) :
    p.2.sql = p.1 := by
  simp only [readings, List.mem_cons, List.not_mem_nil, or_false] at h
  obtain rfl | rfl | rfl | rfl | rfl | rfl := h
  · rfl
  · rfl
  · rfl
  · exact savepoint_text _
  · exact release_text _
  · exact rollbackTo_text _

theorem mem_readings_sql (c : Control) : (c.sql, c) ∈ readings c.sql := by
  unfold readings
  cases c with
  | begin => exact .head _
  | commit => exact .tail _ (.head _)
  | rollback => exact .tail _ (.tail _ (.head _))
  | savepoint n => simp only [savepoint_text, numberAfter_append, List.mem_cons, true_or, or_true]
  | release n => simp only [release_text, numberAfter_append, List.mem_cons, true_or, or_true]
  | rollbackTo n => simp only [rollbackTo_text, numberAfter_append, List.mem_cons, true_or, or_true]

theorem sql_of_ofSql? {sql : String} {c : Control} (h : ofSql? sql = some c) : c.sql = sql := by
  obtain ⟨p, hp, rfl⟩ := Option.map_eq_some_iff.1 h
  rw [sql_of_mem_readings (List.mem_of_find?_eq_some hp)]
  simpa using List.find?_some hp

theorem ofSql?_sql (c : Control) : ofSql? c.sql = some c := by
  have hsome : ((readings c.sql).find? (·.1 == c.sql)).isSome = true :=
    List.find?_isSome.2 ⟨_, mem_readings_sql c, beq_self_eq_true c.sql⟩
  obtain ⟨p, hp⟩ := Option.isSome_iff_exists.1 hsome
  have hc : ofSql? c.sql = some p.2 := congrArg (Option.map Prod.snd) hp
  rw [hc, sql_injective (sql_of_ofSql? hc)]

end Control

/-! ## Databases -/

/-- A level of a transaction that is open. -/
structure OpenLevel (δ : Type) where
  /-- The number of the savepoint that opened it. The transaction itself has none. -/
  savepoint : Option Nat
  /-- The data when it was opened. -/
  before : δ

/-- A statement that came in, and the levels that were open at that time, the innermost first. -/
structure Receipt where
  sql : String
  levels : List (Option Nat)

structure Database (δ : Type) where
  /-- The data as they are seen on the connection. -/
  data : δ
  /-- The innermost first. -/
  levels : List (OpenLevel δ)
  received : List Receipt

namespace Database

variable {δ : Type}

/-- No transaction is open. -/
def holding (data : δ) : Database δ := ⟨data, [], []⟩

def savepoints (db : Database δ) : List (Option Nat) := db.levels.map OpenLevel.savepoint

/-- The data that are left when all open levels are taken back. -/
def committed (db : Database δ) : δ := (db.levels.getLast?.map OpenLevel.before).getD db.data

/-- The levels from the innermost savepoint of a number outwards. -/
def levelsFrom (db : Database δ) (n : Nat) : List (OpenLevel δ) :=
  db.levels.dropWhile (·.savepoint != some n)

/-- The effect of a control statement. One that does not fit what is open has none. -/
def control (db : Database δ) : Control → Database δ
  | .begin => if db.levels.isEmpty then { db with levels := [⟨none, db.data⟩] } else db
  | .commit => { db with levels := [] }
  | .rollback => { db with data := db.committed, levels := [] }
  | .savepoint n =>
    if db.levels.isEmpty then db else { db with levels := ⟨some n, db.data⟩ :: db.levels }
  | .release n =>
    match db.levelsFrom n with
    | [] => db
    | _ :: outer => { db with levels := outer }
  | .rollbackTo n =>
    match db.levelsFrom n with
    | [] => db
    | level :: outer => { db with data := level.before, levels := level :: outer }

def note (db : Database δ) (sql : String) : Database δ :=
  { db with received := db.received ++ [⟨sql, db.savepoints⟩] }

end Database

/-! ## Behaviours -/

/-- What statements do, and how the calls on a connection end. Calls are counted from 0 on. -/
structure Behaviour (δ : Type) where
  effect : String → List Value → δ → δ
  answer : Nat → Outcome Reply
  /-- Whether a call takes effect although it is cancelled or ends in a panic. -/
  slips : Nat → Bool

namespace Behaviour

variable {δ : Type}

/-- A call that reports an error has no effect. -/
def takesEffect (b : Behaviour δ) (n : Nat) : Bool :=
  match b.answer n with
  | .ok _ => true
  | .error (.error _) => false
  | .error _ => b.slips n

/-- A statement takes effect exactly if it reports success. -/
def Exact (b : Behaviour δ) : Prop := ∀ n, b.takesEffect n = (b.answer n).isOk

theorem exact_of_no_slips {b : Behaviour δ} (h : ∀ n, b.slips n = false) : b.Exact := by
  intro n
  unfold takesEffect
  rcases b.answer n with (cause | _ | text) | reply
  · rfl
  · exact h n
  · exact h n
  · rfl

def carryOut (b : Behaviour δ) (sql : String) (params : List Value) (db : Database δ) :
    Database δ :=
  match Control.ofSql? sql with
  | some c => db.control c
  | none => { db with data := b.effect sql params db.data }

def perform (b : Behaviour δ) (sql : String) (params : List Value) (db : Database δ) :
    Outcome Reply × Database δ :=
  let n := db.received.length
  let db := db.note sql
  (b.answer n, if b.takesEffect n then b.carryOut sql params db else db)

def reading {α : Type} (b : Behaviour δ) (part : Reply → α) (sql : String) (params : List Value)
    (db : Database δ) : Outcome α × Database δ :=
  let (reply, db) := b.perform sql params db
  (reply.map part, db)

/-- A ping comes in as an empty statement and has no effect. -/
def driver (b : Behaviour δ) : Driver (Database δ) where
  query := b.reading Reply.rows?
  queryOne := b.reading fun r => r.rows?.head?
  execute := b.reading Reply.count?
  insert := b.reading Reply.count?
  ping db := ((b.answer db.received.length).map fun _ => (), db.note "")
  close db := (.ok (), db)

end Behaviour

end SqlMapper
