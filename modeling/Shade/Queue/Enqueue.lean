import Shade.Library.Machine
import Shade.Queue.Jobs

/-!
# Enqueueing

Any number of calls of `enqueue`, each of which runs one statement at a time. The statements of
the calls are interleaved in any way. A call with a key that is not empty looks for a row with the
key and returns it. Otherwise it inserts a row, which raises an error when there is a row with the
key by then, and logs an event. The database does not fail.
-/

namespace Shade.Queue.Enqueue

open Text

/-- The arguments of a call. -/
structure Call (α : Type) where
  queue : QueueName
  jobType : Text
  payload : α
  idempotencyKey : Option Text

/-- Where a call is. -/
inductive Phase (α : Type) where
  | selecting
  | inserting
  | logging (job : Job α)
  | returned (job : Job α)
  | raised

/-- The tables and the calls. -/
structure World (α : Type) where
  jobs : List (Job α)
  events : List Event
  phases : ℕ → Phase α

/-- The next statement: a call looks for a row, inserts one with a key that the database makes, or
logs an event. -/
inductive Action where
  | select (k : ℕ)
  | insert (k : ℕ) (id : Uuid) (now : ℕ)
  | event (k : ℕ)

variable {α : Type}

/-- A call moves to a phase. -/
def World.move (w : World α) (k : ℕ) (p : Phase α) : World α :=
  { w with phases := Function.update w.phases k p }

/-- The key is given and is not empty. -/
def usableKey (idempotencyKey : Option Text) : Option Text :=
  idempotencyKey.filter fun key => key ≠ []

/-- The detail of the event of a new job. -/
def enqueuedDetail (jobType : Text) : Message := codeUnits ("enqueued ".toList ++ jobType)

variable (calls : ℕ → Call α)

/-- One statement. The database makes keys that no row has. -/
def step : Action → World α → Option (World α)
  | .select k, w =>
      match w.phases k with
      | .selecting =>
          match (usableKey (calls k).idempotencyKey).bind fun key => getByKey key w.jobs with
          | some job => some (w.move k (.returned job))
          | none => some (w.move k .inserting)
      | _ => none
  | .insert k id now, w =>
      match w.phases k with
      | .inserting =>
          let job := newJob id (calls k).queue (calls k).jobType (calls k).payload
            (calls k).idempotencyKey now
          if ∃ j ∈ w.jobs, j.jobId = id then none
          else
            match insertJob job w.jobs with
            | some jobs => some ({ w with jobs := jobs }.move k (.logging job))
            | none => some (w.move k .raised)
      | _ => none
  | .event k, w =>
      match w.phases k with
      | .logging job =>
          let event : Event := ⟨job.jobId, .queued, some (enqueuedDetail (calls k).jobType)⟩
          some ({ w with events := w.events ++ [event] }.move k (.returned job))
      | _ => none

/-- The world after a list of statements. -/
def run (w : World α) (actions : List Action) : World α := Machine.run (step calls) w actions

/-- A table in which no two rows have the same key, before any of the calls. -/
def start (jobs : List (Job α)) (events : List Event) : World α :=
  ⟨jobs, events, fun _ => .selecting⟩

/-- How many statements a call has yet to run, at most. -/
def Phase.remaining : Phase α → ℕ
  | .selecting => 3
  | .inserting => 2
  | .logging _ => 1
  | .returned _ => 0
  | .raised => 0

/-! ### What a statement does -/

/-- What a call can do in one statement. -/
inductive Moves (w : World α) : Action → World α → Prop
  | found {k : ℕ} {key : Text} {job : Job α} : w.phases k = .selecting →
      (calls k).idempotencyKey = some key → getByKey key w.jobs = some job →
      Moves w (.select k) (w.move k (.returned job))
  | missing {k : ℕ} : w.phases k = .selecting →
      (∀ key, usableKey (calls k).idempotencyKey = some key → getByKey key w.jobs = none) →
      Moves w (.select k) (w.move k .inserting)
  | inserted {k : ℕ} {id : Uuid} {now : ℕ} {job : Job α} {jobs : List (Job α)} :
      w.phases k = .inserting → job.idempotencyKey = (calls k).idempotencyKey →
      insertJob job w.jobs = some jobs →
      Moves w (.insert k id now) ({ w with jobs := jobs }.move k (.logging job))
  | conflict {k : ℕ} {id : Uuid} {now : ℕ} {key : Text} {job : Job α} :
      w.phases k = .inserting → (calls k).idempotencyKey = some key → job ∈ w.jobs →
      job.idempotencyKey = some key → Moves w (.insert k id now) (w.move k .raised)
  | logged {k : ℕ} {job : Job α} {events : List Event} : w.phases k = .logging job →
      Moves w (.event k) ({ w with events := events }.move k (.returned job))

variable {calls}

theorem usableKey_eq_some {idempotencyKey : Option Text} {key : Text}
    (h : usableKey idempotencyKey = some key) :
  idempotencyKey = some key
  := (Option.filter_eq_some_iff.mp h).1

/-- A row is refused when a row with its key is there, unless the database repeats a key. -/
theorem insertJob_eq_none {job : Job α} {jobs : List (Job α)} (h : insertJob job jobs = none)
    (hid : ¬ ∃ j ∈ jobs, j.jobId = job.jobId) :
  ∃ key, job.idempotencyKey = some key ∧ ∃ j ∈ jobs, j.idempotencyKey = some key
  := by
  rw [insertJob] at h
  split at h
  · case isTrue hc =>
      obtain ⟨j, hj, hne, heq⟩ := hc.resolve_left hid
      obtain ⟨key, hkey⟩ := Option.ne_none_iff_exists'.mp hne
      use key, hkey, j, hj
      rw [heq, hkey]
  · cases h

/-- A row that is inserted is the last one, and no row had its key. -/
theorem insertJob_eq_some {job : Job α} {jobs jobs' : List (Job α)}
    (h : insertJob job jobs = some jobs') :
  jobs' = jobs ++ [job]
    ∧ ∀ key, job.idempotencyKey = some key → ∀ j ∈ jobs, j.idempotencyKey ≠ some key
  := by
  rw [insertJob] at h
  split at h
  · cases h
  · case isFalse hc =>
      use (Option.some.inj h).symm
      intro key hkey j hj heq
      apply hc
      right
      use j, hj
      rw [hkey, heq]
      simp

@[simp]
theorem jobs_move (w : World α) (k : ℕ) (p : Phase α) :
  (w.move k p).jobs = w.jobs
  := rfl

@[simp]
theorem phases_move (w : World α) (k i : ℕ) (p : Phase α) :
  (w.move k p).phases i = if i = k then p else w.phases i
  := Function.update_apply w.phases k p i

/-- Every statement is one of these moves. -/
theorem step_moves {a : Action} {w w' : World α} (h : step calls a w = some w') :
  Moves calls w a w'
  := by
  cases a with
  | select k =>
      rw [step] at h
      cases hp : w.phases k with
      | selecting =>
          rw [hp] at h
          dsimp only at h
          cases hs : (usableKey (calls k).idempotencyKey).bind fun key => getByKey key w.jobs with
          | some job =>
              rw [hs] at h
              obtain ⟨key, hkey, hjob⟩ := Option.bind_eq_some_iff.mp hs
              obtain rfl := Option.some.inj h
              apply Moves.found hp (usableKey_eq_some hkey) hjob
          | none =>
              rw [hs] at h
              obtain rfl := Option.some.inj h
              apply Moves.missing hp
              intro key hkey
              rwa [hkey] at hs
      | inserting => simp [hp] at h
      | logging job => simp [hp] at h
      | returned job => simp [hp] at h
      | raised => simp [hp] at h
  | insert k id now =>
      rw [step] at h
      cases hp : w.phases k with
      | inserting =>
          rw [hp] at h
          dsimp only at h
          split at h
          · cases h
          · case isFalse hid =>
              split at h
              · case h_1 jobs hins =>
                  obtain rfl := Option.some.inj h
                  apply Moves.inserted hp _ hins
                  rfl
              · case h_2 hins =>
                  obtain rfl := Option.some.inj h
                  obtain ⟨key, hkey, j, hj, hjk⟩ := insertJob_eq_none hins hid
                  apply Moves.conflict hp hkey hj hjk
      | selecting => simp [hp] at h
      | logging job => simp [hp] at h
      | returned job => simp [hp] at h
      | raised => simp [hp] at h
  | event k =>
      rw [step] at h
      cases hp : w.phases k with
      | logging job =>
          rw [hp] at h
          obtain rfl := Option.some.inj h
          apply Moves.logged hp
      | selecting => simp [hp] at h
      | inserting => simp [hp] at h
      | returned job => simp [hp] at h
      | raised => simp [hp] at h

end Shade.Queue.Enqueue
