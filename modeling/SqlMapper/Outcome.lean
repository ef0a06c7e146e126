import SqlMapper.Error

/-!
# SqlMapper.Outcome

How a call on a database ends: with a value, with an error, cancelled before it was done, or in a
panic. Cancellation and panics are passed on as they are and never folded into errors, except by
`Outcome.toExcept`, for callers that know only errors.
-/

namespace SqlMapper

inductive Failure
  | error (cause : Error)
  | cancelled
  | panicked (text : String)
  deriving DecidableEq

/-- What is left of a failure for a caller that knows only errors. -/
def Failure.toError : Failure → Error
  | error cause => cause
  | cancelled => .interrupted .cancelled
  | panicked _ => .interrupted .panicked

abbrev Outcome (α : Type) := Except Failure α

namespace Outcome

variable {α : Type}

def failed (cause : Error) : Outcome α := .error (.error cause)

def ofExcept (r : Except Error α) : Outcome α := r.mapError Failure.error

def toExcept (r : Outcome α) : Except Error α := r.mapError Failure.toError

theorem toExcept_ofExcept (r : Except Error α) : toExcept (ofExcept r) = r := by
  cases r <;> rfl

end Outcome

end SqlMapper
