import SqlMapper.Transaction.Session

/-!
# SqlMapper.Transaction.Program

Programs that run on a session: statements, levels opened and closed by hand, atomic parts and
scopes, nested in each other.

A step that does not succeed ends its program with its own failure, unless the program only tries
it. A program that comes to its end has the outcome that it declares. `observe` is told of what a
program sees on its way.
-/

namespace SqlMapper

mutual

inductive Step
  | execute (sql : String)
  | begin
  | commit
  | rollback
  | atomic (body : Program)
  /-- Opens a scope and closes it, or lets it go open. -/
  | scope (how : Option Finish)
  | markBroken
  /-- Looks at the session. -/
  | note
  /-- Goes on whatever the step comes to. -/
  | attempt (step : Step)

inductive Program
  | mk (steps : List Step) (outcome : Outcome Int)

end

/-- What a program sees on its way. -/
inductive Observation
  | noted (depth : Nat) (broken : Bool)
  | tried (outcome : Outcome Int)

namespace Session

variable {σ : Type}

/-- A call without a value counts as 0. -/
def valueless (call : Outcome Unit × Session σ) : Outcome Int × Session σ :=
  (call.1.map fun _ => 0, call.2)

/-- Opens a scope and closes it, or lets it go open; then the value is its depth. -/
def passScope (D : Driver σ) (how : Option Finish) (s : Session σ) : Outcome Int × Session σ :=
  match TransactionScope.start D s, how with
  | (.error f, t), _ => (.error f, t)
  | (.ok scope, t), none => (.ok scope.depth, TransactionScope.drop t)
  | (.ok scope, t), some how => valueless (scope.finish D how t)

def seeing (observe : Observation → σ → σ) (o : Observation) (s : Session σ) : Session σ :=
  { s with connection := observe o s.connection }

end Session

namespace Program

variable {σ : Type} (D : Driver σ) (observe : Observation → σ → σ)

mutual

def runStep : Step → Session σ → Outcome Int × Session σ
  | .execute sql, s =>
    let (r, connection) := D.execute sql [] s.connection
    (r, { s with connection })
  | .begin, s => Session.valueless (s.begin D)
  | .commit, s => Session.valueless (s.commit D)
  | .rollback, s => Session.valueless (s.rollback D)
  | .atomic body, s => s.atomic D (run body)
  | .scope how, s => s.passScope D how
  | .markBroken, s => (.ok 0, s.markBroken)
  | .note, s => (.ok 0, s.seeing observe (.noted s.depth s.broken))
  | .attempt step, s =>
    let (r, t) := runStep step s
    (.ok 0, t.seeing observe (.tried r))

def runSteps : List Step → Session σ → Outcome Unit × Session σ
  | [], s => (.ok (), s)
  | step :: rest, s =>
    match runStep step s with
    | (.ok _, t) => runSteps rest t
    | (.error f, t) => (.error f, t)

def run : Program → Session σ → Outcome Int × Session σ
  | .mk steps outcome, s =>
    match runSteps steps s with
    | (.ok (), t) => (outcome, t)
    | (.error f, t) => (.error f, t)

end

end Program

end SqlMapper
