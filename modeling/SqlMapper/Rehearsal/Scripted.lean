import SqlMapper.Transaction.Program

/-!
# SqlMapper.Rehearsal.Scripted

Connections that answer as a script says and keep a log of what they are asked.

A script is a list of rules. The first rule with uses left that fits the start of a statement
answers the call and loses a use; a call that no rule fits succeeds and changes no rows.
-/

namespace SqlMapper

/-- What a call brings back when it succeeds. -/
inductive Reply
  | count (n : Int)
  | rows (rs : List Row)

namespace Reply

/-- Rows count as none changed. -/
def count? : Reply → Int
  | count n => n
  | rows _ => 0

def rows? : Reply → List Row
  | count _ => []
  | rows rs => rs

end Reply

structure ScriptRule where
  /-- How the statement starts. A ping is an empty statement. -/
  start : String
  reply : Outcome Reply
  /-- `none` is any number. -/
  uses : Option Nat

namespace ScriptRule

def fits (sql : String) (r : ScriptRule) : Bool :=
  r.start.toList.isPrefixOf sql.toList && r.uses != some 0

def used (r : ScriptRule) : ScriptRule := { r with uses := r.uses.map (· - 1) }

/-- The answer to a statement, and the rules after it. -/
def answer (sql : String) : List ScriptRule → Outcome Reply × List ScriptRule
  | [] => (.ok (.count 0), [])
  | r :: rs =>
    if r.fits sql then (r.reply, r.used :: rs)
    else
      let (reply, rs) := answer sql rs
      (reply, r :: rs)

end ScriptRule

inductive CallKind
  | query
  | queryOne
  | execute
  | insert
  | ping
  deriving DecidableEq

namespace CallKind

def name : CallKind → String
  | query => "query"
  | queryOne => "query_one"
  | execute => "execute"
  | insert => "insert"
  | ping => "ping"

end CallKind

structure ScriptedCall where
  kind : CallKind
  sql : String
  params : List Value

inductive ScriptEvent
  | opened
  | called (call : ScriptedCall)
  | closed
  | observed (o : Observation)

namespace ScriptEvent

def call? : ScriptEvent → Option ScriptedCall
  | called call => some call
  | _ => none

end ScriptEvent

structure Scripted where
  serial : Nat
  rules : List ScriptRule
  /-- What closing comes to. -/
  closing : Except Error Unit
  /-- What happened on the connection since it was last looked at. -/
  log : List ScriptEvent

namespace Scripted

def record (e : ScriptEvent) (c : Scripted) : Scripted := { c with log := c.log ++ [e] }

/-- The log, and the connection with an empty one. -/
def takeLog (c : Scripted) : List ScriptEvent × Scripted := (c.log, { c with log := [] })

def call (kind : CallKind) (sql : String) (params : List Value) (c : Scripted) :
    Outcome Reply × Scripted :=
  let (reply, rules) := ScriptRule.answer sql c.rules
  (reply, { c with rules := rules }.record (.called ⟨kind, sql, params⟩))

/-- Makes a call that takes part of the reply for its value. -/
def reading {α : Type} (kind : CallKind) (part : Reply → α) (sql : String) (params : List Value)
    (c : Scripted) : Outcome α × Scripted :=
  let (reply, c) := c.call kind sql params
  (reply.map part, c)

def driver : Driver Scripted where
  query := reading .query Reply.rows?
  queryOne := reading .queryOne fun r => r.rows?.head?
  execute := reading .execute Reply.count?
  insert := reading .insert Reply.count?
  ping := reading .ping (fun _ => ()) "" []
  close c := (c.closing, c.record .closed)

/-- A connection that answers every call alike. -/
def answering (reply : Outcome Reply) : Scripted := ⟨0, [⟨"", reply, none⟩], .ok (), []⟩

def calls (c : Scripted) : List ScriptedCall := c.log.filterMap ScriptEvent.call?

def observe (o : Observation) (c : Scripted) : Scripted := c.record (.observed o)

end Scripted

end SqlMapper
