/-!
# SqlMapper.Transaction.Control

The statements that open and close levels of a transaction. The outermost level is the transaction
itself; every level inside is a savepoint, named for the number of levels that were open before it.
-/

namespace SqlMapper

inductive Control
  | begin
  | commit
  | rollback
  /-- Opens a level inside `levels` others. -/
  | savepoint (levels : Nat)
  | release (levels : Nat)
  | rollbackTo (levels : Nat)
  deriving DecidableEq

namespace Control

def savepointName (levels : Nat) : String := "sp_" ++ toString levels

def sql : Control → String
  | begin => "BEGIN"
  | commit => "COMMIT"
  | rollback => "ROLLBACK"
  | savepoint n => "SAVEPOINT " ++ savepointName n
  | release n => "RELEASE SAVEPOINT " ++ savepointName n
  | rollbackTo n => "ROLLBACK TO SAVEPOINT " ++ savepointName n

/-- Opens a level inside `depth` others. -/
def opening (depth : Nat) : Control :=
  if depth = 0 then begin else savepoint depth

/-- Keeps what was written since the innermost of `depth` levels was opened. -/
def keeping (depth : Nat) : Control :=
  if depth = 1 then commit else release (depth - 1)

/-- Takes back what was written since the innermost of `depth` levels was opened, and closes it. A
savepoint outlives a rollback to it, so it is released as well. -/
def undoing (depth : Nat) : List Control :=
  if depth = 1 then [rollback] else [rollbackTo (depth - 1), release (depth - 1)]

end Control

end SqlMapper
