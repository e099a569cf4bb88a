import ReadModel.Supervision.Policy

/-!
Supervised tasks.

A supervisor runs a task and starts it again when it ends abnormally, as its policy says.
`RestartPolicy.next` decides what follows after a run. `supervise` tells how all of it goes for tasks
of which it is known how each run behaves.
-/

namespace ReadModel

/-- How a run of a task has ended. -/
inductive TaskExit where
  | completed
  | failed (message : String)
  | panicked (message : String)
  deriving DecidableEq, Inhabited

/-- Whether a run has ended abnormally. -/
def TaskExit.isFailure : TaskExit → Bool
  | .completed => false
  | .failed _ | .panicked _ => true

/-- How supervision has ended. -/
structure SupervisorReport where
  restarts : Nat
  lastExit : TaskExit
  deriving DecidableEq

/-- What a supervisor does after a run. -/
inductive AfterRun where
  | stop
  | restartAfter (backoff : Nat)
  deriving DecidableEq

/-- What follows after a run that has come after so many restarts. -/
def RestartPolicy.next (policy : RestartPolicy) (restarts : Nat) (cancelled : Bool)
    (exit : TaskExit) : AfterRun :=
  if !exit.isFailure || cancelled then .stop
  else match policy with
    | .never => .stop
    | .onFailure maxRestarts backoff =>
      if maxRestarts ≤ restarts then .stop else .restartAfter backoff

/-- How many restarts a policy allows. -/
def RestartPolicy.limit : RestartPolicy → Nat
  | .never => 0
  | .onFailure maxRestarts _ => maxRestarts

/-- How a run behaves: it lasts some time, and until it is cancelled if it waits for that. -/
structure TaskRun where
  lasts : Nat
  untilCancelled : Bool
  exit : TaskExit
  deriving Inhabited

/-- When a run ends that starts at a time; one that waits to be cancelled may never end. -/
def TaskRun.endsAt (run : TaskRun) (start : Nat) (cancelledAt : Option Nat) : Option Nat :=
  if run.untilCancelled then cancelledAt.map fun c => max c (start + run.lasts)
  else some (start + run.lasts)

/-- Whether a cancellation has come by a time. -/
def cancelledBy (cancelledAt : Option Nat) (time : Nat) : Bool :=
  cancelledAt.any fun c => decide (c ≤ time)

/-- How supervision went: the report, when it ended, and when the runs were started. -/
structure Supervised where
  report : SupervisorReport
  endedAt : Nat
  starts : List Nat
  deriving DecidableEq

/-- Supervision from a start on, after so many restarts; `left` bounds those to come. -/
def superviseFrom (policy : RestartPolicy) (runs : Nat → TaskRun) (cancelledAt : Option Nat) :
    Nat → Nat → Nat → Option Supervised
  | left, restarts, start =>
    match (runs restarts).endsAt start cancelledAt with
    | none => none
    | some ended =>
      let exit := (runs restarts).exit
      let stopAt (time : Nat) : Option Supervised := some ⟨⟨restarts, exit⟩, time, [start]⟩
      match policy.next restarts (cancelledBy cancelledAt ended) exit, left with
      | .stop, _ => stopAt ended
      | .restartAfter _, 0 => stopAt ended
      | .restartAfter backoff, left + 1 =>
        match cancelledAt with
        | some c =>
          if c ≤ ended + backoff then stopAt c
          else (superviseFrom policy runs cancelledAt left (restarts + 1) (ended + backoff)).map
            fun s => { s with starts := start :: s.starts }
        | none => (superviseFrom policy runs cancelledAt left (restarts + 1) (ended + backoff)).map
            fun s => { s with starts := start :: s.starts }

/-- How supervision goes that begins at time zero; it may never end. -/
def supervise (policy : RestartPolicy) (runs : Nat → TaskRun) (cancelledAt : Option Nat) :
    Option Supervised :=
  superviseFrom policy runs cancelledAt policy.limit 0 0

end ReadModel
