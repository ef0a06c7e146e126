import SqlMapper.Driver
import SqlMapper.Transaction.Control

/-!
# SqlMapper.Transaction.Session

Nested transactions on one connection.

A `Session` counts the levels that are open. `begin`, `commit` and `rollback` work on the innermost
level and change the count only when the driver reports success. A session that is broken opens and
commits nothing any more; its connection is to be closed, which ends whatever is open on it.

* `Session.atomic`: runs a body in a level of its own, commits if the body succeeds and rolls back
  otherwise.
* `TransactionScope`: a level in the hands of the caller, who has to close it; a scope that is let
  go while it is open breaks its session.
-/

namespace SqlMapper

structure Session (σ : Type) where
  connection : σ
  /-- Number of open levels. -/
  depth : Nat
  broken : Bool
  deriving DecidableEq

namespace Session

variable {σ α : Type}

/-- A connection with no transaction open. -/
def fresh (connection : σ) : Session σ := ⟨connection, 0, false⟩

def inTransaction (s : Session σ) : Bool := 0 < s.depth

def markBroken (s : Session σ) : Session σ := { s with broken := true }

/-- Whether the connection must not be used by anyone else. -/
def mustDiscard (s : Session σ) : Bool := s.broken || s.inTransaction

def refuse (cause : TransactionError) : Outcome α := Outcome.failed (.transaction cause)

def send (D : Driver σ) (c : Control) (s : Session σ) : Outcome Unit × Session σ :=
  let (r, connection) := D.execute c.sql [] s.connection
  (r.map fun _ => (), { s with connection })

/-- Stops at the first statement that does not succeed. -/
def sendAll (D : Driver σ) : List Control → Session σ → Outcome Unit × Session σ
  | [], s => (.ok (), s)
  | c :: cs, s =>
    match s.send D c with
    | (.ok (), s) => sendAll D cs s
    | (.error f, s) => (.error f, s)

/-! ## Levels -/

def begin (D : Driver σ) (s : Session σ) : Outcome Unit × Session σ :=
  if s.broken then (refuse (.broken "begin"), s)
  else
    match s.send D (.opening s.depth) with
    | (.ok (), t) => (.ok (), { t with depth := s.depth + 1 })
    | (.error f, t) => (.error f, t)

def commit (D : Driver σ) (s : Session σ) : Outcome Unit × Session σ :=
  if s.depth = 0 then (refuse .nothingToCommit, s)
  else if s.broken then (refuse (.broken "commit"), s)
  else
    match s.send D (.keeping s.depth) with
    | (.ok (), t) => (.ok (), { t with depth := s.depth - 1 })
    | (.error f, t) => (.error f, t)

/-- Also open to a broken session. -/
def rollback (D : Driver σ) (s : Session σ) : Outcome Unit × Session σ :=
  if s.depth = 0 then (refuse .nothingToRollBack, s)
  else
    match s.sendAll D (Control.undoing s.depth) with
    | (.ok (), t) => (.ok (), { t with depth := s.depth - 1 })
    | (.error f, t) => (.error f, t)

/-- Rolls back the innermost level, or breaks the session if that does not succeed. A broken
session is left alone: closing its connection takes everything back. -/
def rollbackOrBreak (D : Driver σ) (s : Session σ) : Session σ :=
  if s.broken then s
  else
    match s.rollback D with
    | (.ok (), t) => t
    | (.error _, t) => t.markBroken

/-- Runs `body` in a level of its own. A failure of the body is the outcome as it is. A body that
succeeds must leave as many levels open as it found. -/
def atomic (D : Driver σ) (body : Session σ → Outcome α × Session σ) (s : Session σ) :
    Outcome α × Session σ :=
  match s.begin D with
  | (.error f, t) => (.error f, t)
  | (.ok (), t) =>
    match body t with
    | (.error f, t) => (.error f, t.rollbackOrBreak D)
    | (.ok a, t) =>
      match t.commit D with
      | (.ok (), t) =>
        if t.depth = s.depth then (.ok a, t)
        else (refuse (.closedAtDepth t.depth s.depth), t.markBroken)
      | (.error (.panicked text), t) => (.error (.panicked text), t.markBroken)
      | (.error f, t) => (.error f, t.rollbackOrBreak D)

end Session

/-! ## Scopes -/

/-- An open level, by its nesting from 1 on. -/
structure TransactionScope where
  depth : Nat
  deriving DecidableEq

/-- How a scope is closed. -/
inductive Finish
  | commit
  | rollback
  deriving DecidableEq

namespace Finish

def run {σ : Type} (D : Driver σ) : Finish → Session σ → Outcome Unit × Session σ
  | commit => Session.commit D
  | rollback => Session.rollback D

end Finish

namespace TransactionScope

variable {σ : Type}

def start (D : Driver σ) (s : Session σ) : Outcome TransactionScope × Session σ :=
  match s.begin D with
  | (.ok (), t) => (.ok ⟨t.depth⟩, t)
  | (.error f, t) => (.error f, t)

/-- The scope is used up also when closing it fails, and an open scope that nobody holds breaks the
session. Only the innermost scope can be closed. -/
def finish (D : Driver σ) (how : Finish) (scope : TransactionScope) (s : Session σ) :
    Outcome Unit × Session σ :=
  if s.depth = scope.depth then
    match how.run D s with
    | (.ok (), t) => (.ok (), t)
    | (.error f, t) => (.error f, t.markBroken)
  else (Session.refuse (.scopeOutOfOrder scope.depth s.depth), s.markBroken)

/-- Lets a scope go that is still open. -/
def drop (s : Session σ) : Session σ := s.markBroken

end TransactionScope

end SqlMapper
