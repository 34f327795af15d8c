import Shade.Library.Machine
import Shade.Queue.Jobs

/-!
# Workers

Any number of workers that each claim a job, process it, and end with completing or failing it.
A worker runs one statement at a time, and the statements of the workers are interleaved in any
way. Every statement may raise an error instead, and then has no effect. An error in the
processing or the completion of a job leads to failing it; an error while failing it ends the
round of the worker.

`claims` keeps, for reference, the jobs that the claims have returned.
-/

namespace Shade.Queue

open Text

/-- Where a worker is in its round. -/
inductive Phase (α : Type) where
  | idle
  | processing (job : Job α)
  | logStatus (job : Job α) (status : JobStatus) (detail : Option Message)
  | logCompleted (job : Job α) (status : JobStatus)
  | failing (job : Job α) (error : Message)
  | ending (job : Job α) (error : Message) (terminal : Bool)
  | logFailed (job : Job α) (status : JobStatus) (detail : Message)
deriving DecidableEq

/-- The tables, the workers, and the jobs that have been claimed. -/
structure World (α : Type) where
  jobs : List (Job α)
  events : List Event
  workers : ℕ → Phase α
  claims : List Uuid

/-- What happens next: a service inserts a new job, or a worker goes on. -/
inductive Action (α : Type) where
  | insert (id : Uuid) (queue : QueueName) (jobType : Text) (payload : α)
      (idempotencyKey : Option Text) (now : ℕ)
  | claimNext (worker : ℕ) (queue : QueueName) (jobTypes : List Text) (locked : List Uuid)
      (now : ℕ)
  | setStatus (worker : ℕ) (state : Text) (detail : Option Message) (now : ℕ)
  | complete (worker : ℕ) (result : α) (now : ℕ)
  | event (worker : ℕ)
  | select (worker : ℕ)
  | fail (worker : ℕ) (now : ℕ)
  | raise (worker : ℕ) (error : Message)

variable {α : Type}

namespace World

variable (w : World α)

/-- A worker moves to a phase. -/
def move (k : ℕ) (p : Phase α) : World α :=
  { w with workers := Function.update w.workers k p }

/-- Write the rows of the jobs. -/
def write (jobs : List (Job α)) : World α :=
  { w with jobs := jobs }

/-- Insert an event. -/
def log (id : Uuid) (status : JobStatus) (detail : Option Message) : World α :=
  { w with events := w.events ++ [⟨id, status, detail⟩] }

end World

/-- The number of seconds after which a failed job is claimed again. -/
def backoffSeconds : ℕ := 10

/-- The detail of the event of a completed job. -/
def completedDetail : Message := codeUnits "completed".toList

/-- Where an error leads that is raised instead of the next statement. -/
def Phase.onError (error : Message) : Phase α → Phase α
  | .processing job => .failing job error
  | .logStatus job _ _ => .failing job error
  | .logCompleted job _ => .failing job error
  | _ => .idle

/-- One statement. -/
def step : Action α → World α → Option (World α)
  | .insert id queue jobType payload idempotencyKey now, w =>
      (insertJob (newJob id queue jobType payload idempotencyKey now) w.jobs).map w.write
  | .claimNext k queue jobTypes locked now, w =>
      match w.workers k with
      | .idle =>
          (claimNext queue jobTypes locked now w.jobs).map fun (job, jobs) =>
            { (w.write jobs).move k (.processing job) with claims := w.claims ++ [job.jobId] }
      | _ => none
  | .setStatus k state detail now, w =>
      match w.workers k with
      | .processing job =>
          some ((w.write (setStatus job.jobId (.inProgress state) now w.jobs)).move k
            (.logStatus job (.inProgress state) detail))
      | _ => none
  | .complete k result now, w =>
      match w.workers k with
      | .processing job =>
          some ((w.write (complete job.jobId result .ready now w.jobs)).move k
            (.logCompleted job .ready))
      | _ => none
  | .event k, w =>
      match w.workers k with
      | .logStatus job status detail =>
          some ((w.log job.jobId status detail).move k (.processing job))
      | .logCompleted job status =>
          some ((w.log job.jobId status (some completedDetail)).move k .idle)
      | .logFailed job status detail =>
          some ((w.log job.jobId status (some detail)).move k .idle)
      | _ => none
  | .select k, w =>
      match w.workers k with
      | .failing job error =>
          some (w.move k (.ending job error (isTerminal job.jobId w.jobs)))
      | _ => none
  | .fail k now, w =>
      match w.workers k with
      | .ending job error true =>
          some ((w.write (failTerminal job.jobId error now w.jobs)).move k
            (.logFailed job .failed (error.take 500)))
      | .ending job error false =>
          some ((w.write (failRetry job.jobId error backoffSeconds now w.jobs)).move k
            (.logFailed job .failedRetry (error.take 500)))
      | _ => none
  | .raise k error, w => some (w.move k ((w.workers k).onError error))

/-- The world after a list of statements. -/
def run (w : World α) (actions : List (Action α)) : World α := Machine.run step w actions

/-- The job that a worker holds, from its claim to the status with which it ends it. -/
def Phase.holds : Phase α → Option Uuid
  | .idle => none
  | .processing job => some job.jobId
  | .logStatus job _ _ => some job.jobId
  | .logCompleted job _ => some job.jobId
  | .failing job _ => some job.jobId
  | .ending job _ _ => some job.jobId
  | .logFailed _ _ _ => none

/-- A job that has not been claimed yet. -/
structure Job.Fresh (j : Job α) : Prop where
  status : j.status = .queued
  attempts : j.attempts = 0
  maxAttempts : 1 ≤ j.maxAttempts

/-- New jobs only, and all workers are idle. -/
structure World.Initial (w : World α) : Prop where
  fresh : ∀ j ∈ w.jobs, j.Fresh
  nodup : (w.jobs.map Job.jobId).Nodup
  idle : ∀ k, w.workers k = .idle
  claims : w.claims = []

end Shade.Queue
