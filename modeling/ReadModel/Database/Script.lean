import ReadModel.Database.Handler
import ReadModel.Database.Leases
import ReadModel.EventLog
import ReadModel.Wire.Event

/-!
Scripted databases.

A `ScriptedServer` stands in for a database. It keeps all statements that it is sent and answers each
as its script says; one of which the script says nothing has written one row and gives none back.
-/

namespace ReadModel

/-- How a server answers: with a failure, or with the number of rows written and the cells of the
rows that are given back. -/
inductive ScriptedOutcome where
  | failure (code message : String)
  | rows (affected : Nat) (cells : List (List Json))

/-- An answer to the statements that contain a text, which is given so many times. -/
structure ScriptedReply where
  pattern : String
  times : Nat
  outcome : ScriptedOutcome

/-- A server with a script. A closed one takes no statements. -/
structure ScriptedServer where
  closed : Bool := false
  replies : List ScriptedReply := []
  sent : List (String × List SqlParam) := []

/-- Whether a text is a part of another. -/
def isPartOf (part : List Char) : List Char → Bool
  | [] => part.isEmpty
  | c :: rest => part.isPrefixOf (c :: rest) || isPartOf part rest

/-- The instant as a database keeps it: in whole microseconds from the start of 2000, of which a
fraction is dropped. -/
def Instant.inMicroseconds (t : Instant) : Instant :=
  let start : Int := 946684800
  let micros := ((t.seconds - start) * 1000000000 + t.nanos).tdiv 1000
  ⟨start + micros / 1000000, (micros % 1000000 * 1000).toNat⟩

/-- A value as a database receives it. -/
def SqlParam.received : SqlParam → SqlParam
  | .timestamp t => .timestamp (t.map Instant.inMicroseconds)
  | v => v

/-- The value of a cell; every null but one of a column of documents stands for no value. -/
def ColumnType.read? : (type : ColumnType) → Json → Option type.Value
  | .json, j => some j
  | .int4, .number (.whole n) | .int8, .number (.whole n) => some n
  | .text, .text s => some s
  | .timestamp, .text s =>
    match Instant.parse s with
    | .ok t => some t.inMicroseconds
    | .error _ => none
  | _, _ => none

/-- The row with the values of cells. -/
def ResultRow.ofCells : (columns : List ResultColumn) → List Json → ResultRow columns
  | [], _ => ()
  | _ :: rest, [] => (none, ofCells rest [])
  | column :: rest, cell :: cells => (column.type.read? cell, ofCells rest cells)

namespace ScriptedServer

/-- The first answer that is left for a statement. -/
def take (text : String) : List ScriptedReply → Option ScriptedOutcome × List ScriptedReply
  | [] => (none, [])
  | reply :: rest =>
    if 0 < reply.times && isPartOf reply.pattern.toList text.toList then
      (some reply.outcome, { reply with times := reply.times - 1 } :: rest)
    else
      let (found, rest) := take text rest
      (found, reply :: rest)

/-- Answers a statement. -/
def answer (c : SqlCall) (s : ScriptedServer) :
    Except SqlFailure (SqlReply c.columns) × ScriptedServer :=
  if s.closed then (.error .closed, s)
  else
    let (found, replies) := take c.text s.replies
    let s := { s with replies, sent := s.sent ++ [(c.text, c.params.map SqlParam.received)] }
    match found with
    | some (.failure code message) => (.error (.server code message), s)
    | some (.rows affected cells) => (.ok ⟨affected, cells.map (ResultRow.ofCells c.columns)⟩, s)
    | none => (.ok ⟨1, []⟩, s)

/-- Runs a program that asks the database only. -/
def run {α : Type} (s : ScriptedServer) (program : SqlTask α) : α × ScriptedServer :=
  Dialogue.run answer program s

/-- Answers a handler's call on the log, which nothing is pushed to. -/
def answerSource (log : EventLog) : (c : SourceCall) → Except SourceError c.Value
  | .filter q => .ok (log.filter q)
  | .instanceIds q => .ok (log.instanceIds q)
  | .push _ => .error (.invalidPush "the log is not written to")

/-- Answers a handler's call on time and on other tasks: nothing is ever cancelled, waiting takes no
time, and there are neither messages nor other tasks. -/
def answerTask : (c : TaskCall) → c.Answer
  | .isCancelled _ => false
  | .childToken token => token
  | .cancel _ | .crash _ => ()
  | .today => default
  | .clock => 0
  | .pause .. => true
  | .waitUntil due _ => some due
  | .receive .. => none
  | .batches _ batches => batches.map fun _ => false

/-- Answers a handler's call on the locks, which nobody has. -/
def answerLock : (c : LockCall) → c.Answer
  | .acquire .. => .error .noInstances
  | .watch .. | .stop _ => ()
  | .release .. => .ok ()

/-- Answers a call next to a log. A handler whose storage is in the database asks for no other storage:
there is none, and it would fail. -/
def answerBeside (log : EventLog) : (c : databaseInterface.Call) → ScriptedServer →
    databaseInterface.Answer c × ScriptedServer
  | .inl c, s => s.answer c
  | .inr (.store _), s => (.error (.database "" ""), s)
  | .inr (.source c), s => (answerSource log c, s)
  | .inr (.lock c), s => (answerLock c, s)
  | .inr (.task c), s => (answerTask c, s)

/-- Runs what a handler does whose storage is in the database, next to a log. -/
def runHandler {α : Type} (s : ScriptedServer) (log : EventLog) (task : Task α) :
    α × ScriptedServer :=
  (task.expand storeInDatabase).run (answerBeside log) s

/-- Runs what a handler does whose storage and log are in the database. -/
def runDatabaseHandler {α : Type} (s : ScriptedServer) (task : Task α) : α × ScriptedServer :=
  (task.expand allInDatabase).run (answerBeside {}) s

end ScriptedServer

end ReadModel
