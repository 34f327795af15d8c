import Shade.Library.Text
import Mathlib.Data.List.MinMax
import Mathlib.Data.List.Nodup

/-!
# The job queue

The table `service_jobs` and the statements with which the services work on it. A row has the
payload of its job, an object of type `α`, as a result has that a worker leaves. The rows are in
the order in which they were inserted. Times are those of the database.
-/

namespace Shade.Queue

open Text

/-- The key of a row, made by the database. -/
abbrev Uuid : Type := ℕ

/-- A message, as the list of its UTF-16 code units. -/
abbrev Message : Type := List ℕ

/-- The two queues. -/
inductive QueueName where
  | prover
  | relayer
deriving DecidableEq

/-- The status of a job. Workers name the states of the jobs that are in progress. -/
inductive JobStatus where
  | queued
  | claimed
  | inProgress (state : Text)
  | ready
  | failed
  | failedRetry
deriving DecidableEq

/-- A row of the table. -/
structure Job (α : Type) where
  jobId : Uuid
  jobType : Text
  queue : QueueName
  idempotencyKey : Option Text
  payload : α
  status : JobStatus
  attempts : ℕ
  maxAttempts : ℕ
  result : Option α
  error : Option Message
  claimedAt : Option ℕ
  availableAt : ℕ
  createdAt : ℕ
  updatedAt : ℕ
deriving DecidableEq

/-- A row of the table `service_events`. -/
structure Event where
  jobId : Uuid
  status : JobStatus
  detail : Option Message
deriving DecidableEq

variable {α : Type}

/-! ### Statements -/

/-- Update the row with a key. -/
def updateJob (id : Uuid) (f : Job α → Job α) (jobs : List (Job α)) : List (Job α) :=
  jobs.map fun j => if j.jobId = id then f j else j

/-- The row with a key. -/
def getJob (id : Uuid) (jobs : List (Job α)) : Option (Job α) :=
  jobs.find? fun j => j.jobId = id

/-- The row with an idempotency key. -/
def getByKey (key : Text) (jobs : List (Job α)) : Option (Job α) :=
  jobs.find? fun j => j.idempotencyKey = some key

/-- The row that is inserted for a new job, with the defaults of the columns. -/
def newJob (id : Uuid) (queue : QueueName) (jobType : Text) (payload : α)
    (idempotencyKey : Option Text) (now : ℕ) : Job α where
  jobId := id
  jobType := jobType
  queue := queue
  idempotencyKey := idempotencyKey
  payload := payload
  status := .queued
  attempts := 0
  maxAttempts := 3
  result := none
  error := none
  claimedAt := none
  availableAt := now
  createdAt := now
  updatedAt := now

/-- Insert a row. The key of the row and its idempotency key have to be new. -/
def insertJob (j : Job α) (jobs : List (Job α)) : Option (List (Job α)) :=
  if (∃ i ∈ jobs, i.jobId = j.jobId)
      ∨ (∃ i ∈ jobs, j.idempotencyKey ≠ none ∧ i.idempotencyKey = j.idempotencyKey) then
    none
  else
    some (jobs ++ [j])

/-- The job may be claimed. -/
def Job.Available (j : Job α) : Prop := j.status = .queued ∨ j.status = .failedRetry

instance (j : Job α) : Decidable j.Available :=
  inferInstanceAs (Decidable (_ ∨ _))

/-- The job is one that a claim looks for. A claim without job types looks for any. -/
def Job.Claimable (queue : QueueName) (jobTypes : List Text) (now : ℕ) (j : Job α) : Prop :=
  j.queue = queue ∧ j.Available ∧ j.availableAt ≤ now ∧ (jobTypes = [] ∨ j.jobType ∈ jobTypes)

instance (queue : QueueName) (jobTypes : List Text) (now : ℕ) (j : Job α) :
    Decidable (j.Claimable queue jobTypes now) :=
  inferInstanceAs (Decidable (_ ∧ _ ∧ _ ∧ _))

/-- A job that is claimed. -/
def Job.claim (now : ℕ) (j : Job α) : Job α :=
  { j with
    status := .claimed
    attempts := j.attempts + 1
    claimedAt := some now
    updatedAt := now }

/-- Claim the oldest job of a queue. Rows that other statements have locked are passed over. -/
def claimNext (queue : QueueName) (jobTypes : List Text) (locked : List Uuid) (now : ℕ)
    (jobs : List (Job α)) : Option (Job α × List (Job α)) :=
  ((jobs.filter fun j => j.Claimable queue jobTypes now ∧ j.jobId ∉ locked).argmin
    Job.createdAt).map fun j => (j.claim now, updateJob j.jobId (Job.claim now) jobs)

/-- Write the status of a job. -/
def setStatus (id : Uuid) (status : JobStatus) (now : ℕ) : List (Job α) → List (Job α) :=
  updateJob id fun j => { j with status := status, updatedAt := now }

/-- Write the status and the result of a job that is completed. -/
def complete (id : Uuid) (result : α) (status : JobStatus) (now : ℕ) :
    List (Job α) → List (Job α) :=
  updateJob id fun j =>
    { j with status := status, result := some result, error := none, updatedAt := now }

/-- No attempts of the job remain, or there is no such job. -/
def isTerminal (id : Uuid) (jobs : List (Job α)) : Bool :=
  match getJob id jobs with
  | none => true
  | some j => decide (j.maxAttempts ≤ j.attempts)

/-- Write that a job has failed for good. -/
def failTerminal (id : Uuid) (error : Message) (now : ℕ) : List (Job α) → List (Job α) :=
  updateJob id fun j =>
    { j with status := .failed, error := some (error.take 2000), updatedAt := now }

/-- Write that a job has failed and is to be claimed again after a time. -/
def failRetry (id : Uuid) (error : Message) (backoffSeconds now : ℕ) :
    List (Job α) → List (Job α) :=
  updateJob id fun j =>
    { j with
      status := .failedRetry
      error := some (error.take 2000)
      availableAt := now + backoffSeconds
      updatedAt := now }

/-! ### What the statements do -/

section

variable {id : Uuid} {f : Job α → Job α} {jobs : List (Job α)} {j : Job α}

theorem mem_updateJob :
  j ∈ updateJob id f jobs
    ↔ ∃ i ∈ jobs, j = if i.jobId = id then f i else i
  := by
  simp only [updateJob, List.mem_map, eq_comm]

/-- An update that keeps the keys of rows keeps all keys. -/
theorem map_jobId_updateJob (hf : ∀ i, (f i).jobId = i.jobId) :
  (updateJob id f jobs).map Job.jobId = jobs.map Job.jobId
  := by
  rw [updateJob, List.map_map]
  apply List.map_congr_left
  intro i _
  rw [Function.comp_apply]
  split
  · apply hf
  · rfl

/-- A row is determined by its key. -/
theorem eq_of_jobId_eq (hnodup : (jobs.map Job.jobId).Nodup) {i : Job α} (hi : i ∈ jobs)
    (hj : j ∈ jobs) (h : i.jobId = j.jobId) :
  i = j
  := List.inj_on_of_nodup_map hnodup hi hj h

theorem getJob_eq_some (hnodup : (jobs.map Job.jobId).Nodup) (hj : j ∈ jobs) :
  getJob j.jobId jobs = some j
  := by
  cases h : getJob j.jobId jobs with
  | none =>
      have hnone := List.find?_eq_none.mp h j hj
      simp at hnone
  | some i =>
      have hid := List.find?_some h
      rw [eq_of_jobId_eq hnodup (List.mem_of_find?_eq_some h) hj (of_decide_eq_true hid)]

/-- What is claimed is a row that was available. -/
theorem claimNext_eq_some {queue : QueueName} {jobTypes : List Text} {locked : List Uuid} {now : ℕ}
    {jobs' : List (Job α)} (h : claimNext queue jobTypes locked now jobs = some (j, jobs')) :
  ∃ i ∈ jobs, i.Available ∧ j = i.claim now ∧ jobs' = updateJob i.jobId (Job.claim now) jobs
  := by
  obtain ⟨i, hi, heq⟩ := Option.map_eq_some_iff.mp h
  cases heq
  have hmem := List.argmin_mem hi
  rw [List.mem_filter, decide_eq_true_eq] at hmem
  use i, hmem.1, hmem.2.1.2.1

end

end Shade.Queue
