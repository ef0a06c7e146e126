import SqlMapper.Outcome
import SqlMapper.Row

/-!
# SqlMapper.Driver

What the library asks of a database driver. `σ` is a connection: a call takes it as it is and
gives it back as the call left it, along with the outcome.
-/

namespace SqlMapper

structure Driver (σ : Type) where
  /-- All rows of a statement. -/
  query : String → List Value → σ → Outcome (List Row) × σ
  /-- The first row of a statement, if it has one. -/
  queryOne : String → List Value → σ → Outcome (Option Row) × σ
  /-- The number of rows that a statement changed. -/
  execute : String → List Value → σ → Outcome Int × σ
  /-- The number of the row that an insert made. -/
  insert : String → List Value → σ → Outcome Int × σ
  ping : σ → Outcome Unit × σ
  close : σ → Except Error Unit × σ

end SqlMapper
