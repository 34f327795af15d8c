import Shade.Queue.Worker

/-!
# Claims of jobs

A job is held by at most one worker at a time, and it is claimed no more often than the maximal
number of attempts says. Jobs that may be claimed are held by nobody and have attempts left: the
status that makes a job available again is written by the worker that holds it, which has read
before that attempts remain, and nobody else writes to the job in between.

A job that is ready stays so unless its event fails to be inserted. The error leads the worker to
failing the job that it has completed.
-/

namespace Shade.Queue

open Machine

variable {α : Type} {w w' : World α}

/-! ### What is known about the jobs and the workers -/

/-- The jobs count their claims and have attempts left while they are available. Every worker
holds a job that is not available, and no other worker holds it. -/
structure Exclusive (w : World α) : Prop where
  nodup : (w.jobs.map Job.jobId).Nodup
  known : ∀ id ∈ w.claims, id ∈ w.jobs.map Job.jobId
  attempts : ∀ j ∈ w.jobs, j.attempts = w.claims.count j.jobId
  le_max : ∀ j ∈ w.jobs, j.attempts ≤ j.maxAttempts
  available : ∀ j ∈ w.jobs, j.Available → j.attempts < j.maxAttempts
  claimed : ∀ k id, (w.workers k).holds = some id → id ∈ w.claims
  held : ∀ k, ∀ j ∈ w.jobs, (w.workers k).holds = some j.jobId → ¬ j.Available
  exclusive : ∀ k k' id, (w.workers k).holds = some id → (w.workers k').holds = some id → k = k'
  retries : ∀ k job error, w.workers k = .ending job error false →
    ∀ j ∈ w.jobs, j.jobId = job.jobId → j.attempts < j.maxAttempts

theorem World.Initial.exclusive (hw : w.Initial) :
  Exclusive w
  := by
  have hcount : ∀ j ∈ w.jobs, j.attempts = w.claims.count j.jobId := by
    intro j hj
    rw [(hw.fresh j hj).attempts, hw.claims, List.count_nil]
  have hlt : ∀ j ∈ w.jobs, j.attempts < j.maxAttempts := by
    intro j hj
    have hmax := (hw.fresh j hj).maxAttempts
    rw [(hw.fresh j hj).attempts]
    omega
  constructor
  · exact hw.nodup
  · intro id hid
    rw [hw.claims] at hid
    cases hid
  · exact hcount
  · intro j hj
    apply (hlt j hj).le
  · intro j hj _
    apply hlt j hj
  · intro k id h
    rw [hw.idle] at h
    cases h
  · intro k j _ h
    rw [hw.idle] at h
    cases h
  · intro k k' id h
    rw [hw.idle] at h
    cases h
  · intro k job error h
    rw [hw.idle] at h
    cases h

/-! ### The kinds of steps -/

theorem World.workers_move (k k' : ℕ) (p : Phase α) :
  (w.move k p).workers k' = if k' = k then p else w.workers k'
  := Function.update_apply _ _ _ _

/-- What a worker holds after another or the same one has moved, it has held before. -/
theorem holds_of_move {k : ℕ} {p : Phase α}
    (hp : ∀ id, p.holds = some id → (w.workers k).holds = some id) {k' : ℕ} {id : Uuid}
    (h : ((w.move k p).workers k').holds = some id) :
  (w.workers k').holds = some id
  := by
  rw [World.workers_move] at h
  split at h
  · next heq =>
      rw [heq]
      apply hp id h
  · exact h

/-- A worker moves on and holds nothing that it has not held before. -/
theorem Exclusive.move (hw : Exclusive w) {k : ℕ} {p : Phase α}
    (hp : ∀ id, p.holds = some id → (w.workers k).holds = some id)
    (hretries : ∀ job error, p = .ending job error false →
      ∀ j ∈ w.jobs, j.jobId = job.jobId → j.attempts < j.maxAttempts) :
  Exclusive (w.move k p)
  := by
  constructor
  · exact hw.nodup
  · exact hw.known
  · exact hw.attempts
  · exact hw.le_max
  · exact hw.available
  · intro k' id h
    apply hw.claimed k' id (holds_of_move hp h)
  · intro k' j hj h
    apply hw.held k' j hj (holds_of_move hp h)
  · intro k₁ k₂ id h₁ h₂
    apply hw.exclusive k₁ k₂ id (holds_of_move hp h₁) (holds_of_move hp h₂)
  · intro k' job error h
    rw [World.workers_move] at h
    split at h
    · apply hretries job error h
    · apply hw.retries k' job error h

/-- A change of a row that keeps its key and its attempts. -/
structure KeepsAttempts (f : Job α → Job α) : Prop where
  jobId : ∀ j, (f j).jobId = j.jobId
  attempts : ∀ j, (f j).attempts = j.attempts
  maxAttempts : ∀ j, (f j).maxAttempts = j.maxAttempts

/-- A row is written, and it is available afterwards only if attempts remain and nobody holds the
job. -/
theorem Exclusive.write (hw : Exclusive w) {id : Uuid} {f : Job α → Job α} (hf : KeepsAttempts f)
    (havailable : ∀ j ∈ w.jobs, j.jobId = id → (f j).Available →
      j.attempts < j.maxAttempts ∧ ∀ k, (w.workers k).holds ≠ some id) :
  Exclusive (w.write (updateJob id f w.jobs))
  := by
  have hids : (updateJob id f w.jobs).map Job.jobId = w.jobs.map Job.jobId :=
    map_jobId_updateJob hf.jobId
  have hrow : ∀ j ∈ updateJob id f w.jobs, ∃ i ∈ w.jobs, j.jobId = i.jobId
      ∧ j.attempts = i.attempts ∧ j.maxAttempts = i.maxAttempts
      ∧ (j = i ∨ i.jobId = id ∧ j = f i) := by
    intro j hj
    obtain ⟨i, hi, rfl⟩ := mem_updateJob.mp hj
    use i, hi
    split
    · next heq => exact ⟨hf.jobId i, hf.attempts i, hf.maxAttempts i, Or.inr ⟨heq, rfl⟩⟩
    · exact ⟨rfl, rfl, rfl, Or.inl rfl⟩
  constructor
  · rw [World.write, hids]
    exact hw.nodup
  · rw [World.write, hids]
    exact hw.known
  · intro j hj
    obtain ⟨i, hi, hid, hattempts, -⟩ := hrow j hj
    rw [hid, hattempts]
    apply hw.attempts i hi
  · intro j hj
    obtain ⟨i, hi, -, hattempts, hmax, -⟩ := hrow j hj
    rw [hattempts, hmax]
    apply hw.le_max i hi
  · intro j hj h
    obtain ⟨i, hi, -, hattempts, hmax, rfl | ⟨hid, rfl⟩⟩ := hrow j hj
    · apply hw.available j hi h
    · rw [hattempts, hmax]
      apply (havailable i hi hid h).1
  · exact hw.claimed
  · intro k j hj h havail
    obtain ⟨i, hi, hjid, -, -, rfl | ⟨hid, rfl⟩⟩ := hrow j hj
    · apply hw.held k j hi h havail
    · rw [hjid, hid] at h
      apply (havailable i hi hid havail).2 k h
  · exact hw.exclusive
  · intro k job error h j hj hjob
    obtain ⟨i, hi, hid, hattempts, hmax, -⟩ := hrow j hj
    rw [hattempts, hmax]
    apply hw.retries k job error h i hi (hid.symm.trans hjob)

/-- A worker that is idle claims an available job. -/
theorem Exclusive.claim (hw : Exclusive w) {k : ℕ} (hk : w.workers k = .idle) {i : Job α}
    (hi : i ∈ w.jobs) (havailable : i.Available) (now : ℕ) :
  Exclusive { (w.write (updateJob i.jobId (Job.claim now) w.jobs)).move k
    (.processing (i.claim now)) with claims := w.claims ++ [i.jobId] }
  := by
  have hids : (updateJob i.jobId (Job.claim now) w.jobs).map Job.jobId = w.jobs.map Job.jobId :=
    map_jobId_updateJob fun _ => rfl
  have hrow : ∀ j ∈ updateJob i.jobId (Job.claim now) w.jobs,
      j = i.claim now ∨ j ∈ w.jobs ∧ j.jobId ≠ i.jobId := by
    intro j hj
    obtain ⟨i', hi', rfl⟩ := mem_updateJob.mp hj
    split
    · next heq =>
        left
        rw [eq_of_jobId_eq hw.nodup hi' hi heq]
    · next hne => exact Or.inr ⟨hi', hne⟩
  have hfree : ∀ k', (w.workers k').holds ≠ some i.jobId :=
    fun k' h => hw.held k' i hi h havailable
  have hholds : ∀ k' id,
      (((w.write (updateJob i.jobId (Job.claim now) w.jobs)).move k
        (.processing (i.claim now))).workers k').holds = some id →
      (k' = k ∧ id = i.jobId) ∨ (k' ≠ k ∧ (w.workers k').holds = some id) := by
    intro k' id h
    rw [World.workers_move] at h
    split at h
    · next heq => exact Or.inl ⟨heq, (Option.some.inj h).symm⟩
    · next hne => exact Or.inr ⟨hne, h⟩
  constructor
  · rw [World.move, World.write, hids]
    exact hw.nodup
  · intro id hid
    rw [World.move, World.write, hids]
    rcases List.mem_append.mp hid with hid | hid
    · apply hw.known id hid
    · rw [List.mem_singleton.mp hid]
      apply List.mem_map_of_mem hi
  · intro j hj
    change j.attempts = (w.claims ++ [i.jobId]).count j.jobId
    rw [List.count_append]
    rcases hrow j hj with rfl | ⟨hj, hne⟩
    · change i.attempts + 1 = w.claims.count i.jobId + [i.jobId].count i.jobId
      rw [← hw.attempts i hi, List.count_singleton_self]
    · rw [← hw.attempts j hj, List.count_eq_zero_of_not_mem (by simpa using hne), add_zero]
  · intro j hj
    rcases hrow j hj with rfl | ⟨hj, -⟩
    · apply hw.available i hi havailable
    · apply hw.le_max j hj
  · intro j hj h
    rcases hrow j hj with rfl | ⟨hj, -⟩
    · rcases h with h | h <;> cases h
    · apply hw.available j hj h
  · intro k' id h
    apply List.mem_append.mpr
    rcases hholds k' id h with ⟨-, rfl⟩ | ⟨-, h⟩
    · exact Or.inr (List.mem_singleton_self _)
    · exact Or.inl (hw.claimed k' id h)
  · intro k' j hj h havail
    rcases hrow j hj with rfl | ⟨hj, hne⟩
    · rcases havail with h | h <;> cases h
    · rcases hholds k' j.jobId h with ⟨-, hid⟩ | ⟨-, h⟩
      · apply hne hid
      · apply hw.held k' j hj h havail
  · intro k₁ k₂ id h₁ h₂
    rcases hholds k₁ id h₁ with ⟨rfl, rfl⟩ | ⟨-, hheld₁⟩
    · rcases hholds k₂ _ h₂ with ⟨rfl, -⟩ | ⟨-, hheld₂⟩
      · rfl
      · exact absurd hheld₂ (hfree k₂)
    · rcases hholds k₂ id h₂ with ⟨rfl, rfl⟩ | ⟨-, hheld₂⟩
      · exact absurd hheld₁ (hfree k₁)
      · apply hw.exclusive k₁ k₂ id hheld₁ hheld₂
  · intro k' job error h j hj hjob
    rw [World.workers_move] at h
    split at h
    · cases h
    · rcases hrow j hj with rfl | ⟨hj, -⟩
      · have hheld : (w.workers k').holds = some i.jobId := by
          change (w.workers k') = _ at h
          rw [h]
          exact congrArg some hjob.symm
        exact absurd hheld (hfree k')
      · apply hw.retries k' job error h j hj hjob

/-- A new job is inserted. -/
theorem Exclusive.insert (hw : Exclusive w) {j : Job α} (hfresh : j.Fresh)
    {jobs : List (Job α)} (h : insertJob j w.jobs = some jobs) :
  Exclusive (w.write jobs)
  := by
  rw [insertJob] at h
  split at h
  · cases h
  · next hnew =>
      obtain rfl := Option.some.inj h
      have hid : j.jobId ∉ w.jobs.map Job.jobId := by
        intro hmem
        obtain ⟨i, hi, heq⟩ := List.mem_map.mp hmem
        apply hnew
        exact Or.inl ⟨i, hi, heq⟩
      have hclaims : j.jobId ∉ w.claims := fun h => hid (hw.known _ h)
      have hmax := hfresh.maxAttempts
      constructor
      · rw [World.write, List.map_append]
        apply List.Nodup.append hw.nodup (List.nodup_singleton _)
        simpa using hid
      · intro id h
        rw [World.write, List.map_append]
        exact List.mem_append_left _ (hw.known id h)
      · intro i hi
        rcases List.mem_append.mp hi with hi | hi
        · apply hw.attempts i hi
        · rw [List.mem_singleton.mp hi, hfresh.attempts]
          exact (List.count_eq_zero_of_not_mem hclaims).symm
      · intro i hi
        rcases List.mem_append.mp hi with hi | hi
        · apply hw.le_max i hi
        · rw [List.mem_singleton.mp hi, hfresh.attempts]
          omega
      · intro i hi h
        rcases List.mem_append.mp hi with hi | hi
        · apply hw.available i hi h
        · rw [List.mem_singleton.mp hi, hfresh.attempts]
          omega
      · exact hw.claimed
      · intro k i hi h
        rcases List.mem_append.mp hi with hi | hi
        · apply hw.held k i hi h
        · rw [List.mem_singleton.mp hi] at h
          exact absurd (hw.claimed k _ h) hclaims
      · exact hw.exclusive
      · intro k job error h i hi hjob
        rcases List.mem_append.mp hi with hi | hi
        · apply hw.retries k job error h i hi hjob
        · have hheld : (w.workers k).holds = some j.jobId := by
            change w.workers k = _ at h
            rw [h, ← List.mem_singleton.mp hi, hjob]
            rfl
          exact absurd (hw.claimed k _ hheld) hclaims

/-! ### Runs -/

/-- An error ends or fails the round, and the worker holds at most what it held. -/
theorem holds_onError (error : Message) (p : Phase α) (id : Uuid)
    (h : (p.onError error).holds = some id) :
  p.holds = some id
  := by
  cases p with
  | processing job => exact h
  | logStatus job status detail => exact h
  | logCompleted job status => exact h
  | idle => cases h
  | failing job error' => cases h
  | ending job error' terminal => cases h
  | logFailed job status detail => cases h

/-- Events do not concern the jobs. -/
theorem Exclusive.log (hw : Exclusive w) (id : Uuid) (status : JobStatus)
    (detail : Option Message) :
  Exclusive (w.log id status detail)
  := ⟨hw.nodup, hw.known, hw.attempts, hw.le_max, hw.available, hw.claimed, hw.held, hw.exclusive,
    hw.retries⟩

/-- Attempts remain if the job is not found to be terminal. -/
theorem lt_of_isTerminal_eq_false {jobs : List (Job α)} (hnodup : (jobs.map Job.jobId).Nodup)
    {j : Job α} (hj : j ∈ jobs) (h : isTerminal j.jobId jobs = false) :
  j.attempts < j.maxAttempts
  := by
  rw [isTerminal, getJob_eq_some hnodup hj] at h
  simpa using h

/-- A worker that holds a job ends it: it lets the job go and writes its row, which is available
afterwards only if attempts remain. -/
theorem Exclusive.end (hw : Exclusive w) {k : ℕ} {id : Uuid}
    (hk : (w.workers k).holds = some id) {p : Phase α} (hp : p.holds = none)
    {f : Job α → Job α} (hf : KeepsAttempts f)
    (hretry : ∀ j ∈ w.jobs, j.jobId = id → (f j).Available → j.attempts < j.maxAttempts) :
  Exclusive ((w.write (updateJob id f w.jobs)).move k p)
  := by
  have hmoved : Exclusive (w.move k p) := by
    apply hw.move
    · intro id' h
      rw [hp] at h
      cases h
    · rintro job error rfl
      cases hp
  apply hmoved.write hf
  intro j hj hid h
  use hretry j hj hid h
  intro k' hk'
  rw [World.workers_move] at hk'
  split at hk'
  · rw [hp] at hk'
    cases hk'
  · next hne => exact hne (hw.exclusive k' k id hk' hk)

/-- A worker that holds a job writes a status with which the job is not available. -/
theorem Exclusive.progress (hw : Exclusive w) {k : ℕ} {id : Uuid}
    (hk : (w.workers k).holds = some id) {p : Phase α} (hp : p.holds = some id)
    (hending : ∀ job error, p ≠ .ending job error false) {f : Job α → Job α}
    (hf : KeepsAttempts f) (hunavailable : ∀ j, ¬ (f j).Available) :
  Exclusive ((w.write (updateJob id f w.jobs)).move k p)
  := by
  have hmoved : Exclusive (w.move k p) := by
    apply hw.move
    · intro id' h
      rw [hk, ← hp, h]
    · intro job error heq
      exact absurd heq (hending job error)
  apply hmoved.write hf
  intro j _ _ h
  exact absurd h (hunavailable j)

/-- Every statement keeps what is known about the jobs and the workers. -/
theorem Exclusive.step (hw : Exclusive w) {a : Action α} (h : step a w = some w') :
  Exclusive w'
  := by
  cases a with
  | insert id queue jobType payload idempotencyKey now =>
      obtain ⟨jobs, hjobs, rfl⟩ := Option.map_eq_some_iff.mp h
      apply hw.insert _ hjobs
      constructor
      · rfl
      · rfl
      · change 1 ≤ 3
        omega
  | claimNext k queue jobTypes locked now =>
      simp only [Queue.step] at h
      split at h
      · next hk =>
          obtain ⟨⟨job, jobs⟩, hclaim, rfl⟩ := Option.map_eq_some_iff.mp h
          obtain ⟨i, hi, havailable, rfl, rfl⟩ := claimNext_eq_some hclaim
          apply hw.claim hk hi havailable
      · cases h
  | setStatus k state detail now =>
      simp only [Queue.step] at h
      split at h
      · next job hk =>
          cases h
          apply hw.progress (by rw [hk]; rfl) rfl (by rintro job error ⟨⟩)
          · constructor <;> intro j <;> rfl
          · rintro j (h | h) <;> cases h
      · cases h
  | complete k result now =>
      simp only [Queue.step] at h
      split at h
      · next job hk =>
          cases h
          apply hw.progress (by rw [hk]; rfl) rfl (by rintro job error ⟨⟩)
          · constructor <;> intro j <;> rfl
          · rintro j (h | h) <;> cases h
      · cases h
  | event k =>
      simp only [Queue.step] at h
      split at h
      · next job status detail hk =>
          cases h
          apply (hw.log _ _ _).move
          · intro id h
            change (w.workers k).holds = some id
            rw [hk]
            exact h
          · rintro job error ⟨⟩
      · next job status hk =>
          cases h
          apply (hw.log _ _ _).move
          · rintro id ⟨⟩
          · rintro job error ⟨⟩
      · next job status detail hk =>
          cases h
          apply (hw.log _ _ _).move
          · rintro id ⟨⟩
          · rintro job error ⟨⟩
      · cases h
  | select k =>
      simp only [Queue.step] at h
      split at h
      · next job error hk =>
          cases h
          apply hw.move
          · intro id h
            rw [hk]
            exact h
          · intro job' error' heq j hj hid
            rw [Phase.ending.injEq] at heq
            obtain ⟨rfl, -, hterminal⟩ := heq
            rw [← hid] at hterminal
            apply lt_of_isTerminal_eq_false hw.nodup hj hterminal
      · cases h
  | fail k now =>
      simp only [Queue.step] at h
      split at h
      · next job error hk =>
          cases h
          apply hw.end (by rw [hk]; rfl) rfl
          · constructor <;> intro j <;> rfl
          · rintro j - - (h | h) <;> cases h
      · next job error hk =>
          cases h
          apply hw.end (by rw [hk]; rfl) rfl
          · constructor <;> intro j <;> rfl
          · intro j hj hid _
            apply hw.retries k job error hk j hj hid
      · cases h
  | raise k error =>
      cases h
      apply hw.move
      · apply holds_onError
      · intro job error' heq
        cases hk : w.workers k <;> rw [hk] at heq <;> cases heq

/-- In every run each job is held by at most one worker at a time, its attempts are the number
of its claims, and there are no more of them than the maximum. -/
theorem claims_exclusive_bounded (hw : w.Initial) (actions : List (Action α)) :
  (∀ k k' id, ((run w actions).workers k).holds = some id →
      ((run w actions).workers k').holds = some id → k = k')
    ∧ ∀ j ∈ (run w actions).jobs, j.attempts = (run w actions).claims.count j.jobId
      ∧ j.attempts ≤ j.maxAttempts
  := by
  have hrun : Exclusive (run w actions) :=
    invariant_run_of_step (fun _ _ _ hw h => hw.step h) actions hw.exclusive
  use hrun.exclusive
  intro j hj
  use hrun.attempts j hj, hrun.le_max j hj

/-- The job that a worker may still write to. -/
def Phase.writes : Phase α → Option Uuid
  | .logCompleted _ _ => none
  | p => p.holds

/-- No worker may write to a job that is ready. -/
def ReadyFinal (w : World α) : Prop :=
  ∀ k, ∀ j ∈ w.jobs, j.status = .ready → (w.workers k).writes ≠ some j.jobId

/-- The event of a completed job fails to be inserted. -/
def LosesCompletion (w : World α) : Action α → Prop
  | .raise k _ => ∃ job status, w.workers k = .logCompleted job status
  | _ => False

theorem holds_of_writes {p : Phase α} {id : Uuid} (h : p.writes = some id) :
  p.holds = some id
  := by
  cases p with
  | logCompleted job status => cases h
  | _ => exact h

theorem World.Initial.readyFinal (hw : w.Initial) :
  ReadyFinal w
  := by
  intro k j _ _ h
  rw [hw.idle] at h
  cases h

/-- A worker moves on and may write to nothing new. -/
theorem ReadyFinal.move (hw : ReadyFinal w) {k : ℕ} {p : Phase α}
    (hp : ∀ id, p.writes = some id → (w.workers k).writes = some id) :
  ReadyFinal (w.move k p)
  := by
  intro k' j hj hready h
  rw [World.workers_move] at h
  split at h
  · apply hw k j hj hready (hp _ h)
  · apply hw k' j hj hready h

/-- A row is written, and nobody may write to it afterwards if it is ready. -/
theorem ReadyFinal.write (hw : ReadyFinal w) {id : Uuid} {f : Job α → Job α}
    (hf : ∀ j, (f j).jobId = j.jobId)
    (hready : ∀ j, (f j).status = .ready → ∀ k, (w.workers k).writes ≠ some id) :
  ReadyFinal (w.write (updateJob id f w.jobs))
  := by
  intro k j hj hstatus h
  obtain ⟨i, hi, rfl⟩ := mem_updateJob.mp hj
  split at hstatus
  · next heq =>
      rw [if_pos heq, hf, heq] at h
      apply hready i hstatus k h
  · next hne =>
      rw [if_neg hne] at h
      apply hw k i hi hstatus h

theorem mem_updateJob_of_ne {id : Uuid} {f : Job α → Job α} {jobs : List (Job α)} {j : Job α}
    (hj : j ∈ jobs) (hne : j.jobId ≠ id) :
  j ∈ updateJob id f jobs
  := mem_updateJob.mpr ⟨j, hj, (if_neg hne).symm⟩

/-- The jobs that are ready stay as they are and are not claimed again. -/
structure KeepsReady (w w' : World α) : Prop where
  final : ReadyFinal w'
  mem : ∀ j ∈ w.jobs, j.status = .ready → j ∈ w'.jobs
  count : ∀ j ∈ w.jobs, j.status = .ready → w'.claims.count j.jobId = w.claims.count j.jobId

/-- A worker moves on without a write. -/
theorem ReadyFinal.keepsReady_move (hw : ReadyFinal w) {k : ℕ} {p : Phase α}
    (hp : ∀ id, p.writes = some id → (w.workers k).writes = some id) :
  KeepsReady w (w.move k p)
  := ⟨hw.move hp, fun _ hj _ => hj, fun _ _ _ => rfl⟩

/-- A worker writes to the row of its job, which is not ready. -/
theorem ReadyFinal.keepsReady_write (hw : ReadyFinal w) {k : ℕ} {id : Uuid}
    (hk : (w.workers k).writes = some id) {p : Phase α}
    (hp : ∀ id', p.writes = some id' → id' = id) {f : Job α → Job α}
    (hf : ∀ j, (f j).jobId = j.jobId)
    (hready : ∀ j, (f j).status = .ready → ∀ k', ((w.move k p).workers k').writes ≠ some id) :
  KeepsReady w ((w.write (updateJob id f w.jobs)).move k p)
  := by
  have hmoved : ReadyFinal (w.move k p) := by
    apply hw.move
    intro id' h
    rw [hk, hp id' h]
  constructor
  · apply hmoved.write hf hready
  · intro j hj hstatus
    apply mem_updateJob_of_ne hj
    rintro rfl
    apply hw k j hj hstatus hk
  · intro j _ _
    rfl

/-- A new job is not ready. -/
theorem ReadyFinal.keepsReady_insert (hw : ReadyFinal w) {j : Job α} (hnew : j.status ≠ .ready)
    {jobs : List (Job α)} (h : insertJob j w.jobs = some jobs) :
  KeepsReady w (w.write jobs)
  := by
  rw [insertJob] at h
  split at h
  · cases h
  · obtain rfl := Option.some.inj h
    constructor
    · intro k i hi hready
      rcases List.mem_append.mp hi with hi | hi
      · apply hw k i hi hready
      · obtain rfl := List.mem_singleton.mp hi
        exact absurd hready hnew
    · intro i hi _
      apply List.mem_append_left _ hi
    · intro i _ _
      rfl

/-- A job that is claimed was not ready. -/
theorem Exclusive.keepsReady_claim (hw : Exclusive w) (hr : ReadyFinal w) {k : ℕ} {i : Job α}
    (hi : i ∈ w.jobs) (havailable : i.Available) (now : ℕ) :
  KeepsReady w { (w.write (updateJob i.jobId (Job.claim now) w.jobs)).move k
    (.processing (i.claim now)) with claims := w.claims ++ [i.jobId] }
  := by
  have hne : ∀ j ∈ w.jobs, j.status = .ready → j.jobId ≠ i.jobId := by
    intro j hj hready heq
    rw [eq_of_jobId_eq hw.nodup hj hi heq] at hready
    rcases havailable with h | h <;> rw [h] at hready <;> cases hready
  constructor
  · intro k' j hj hready h
    obtain ⟨i', hi', rfl⟩ := mem_updateJob.mp hj
    rw [World.workers_move] at h
    split at hready
    · cases hready
    · next hid =>
        rw [if_neg hid] at h
        split at h
        · exact hid (Option.some.inj h).symm
        · apply hr k' i' hi' hready h
  · intro j hj hready
    apply mem_updateJob_of_ne hj (hne j hj hready)
  · intro j hj hready
    change (w.claims ++ [i.jobId]).count j.jobId = _
    have hzero : [i.jobId].count j.jobId = 0 := by
      apply List.count_eq_zero_of_not_mem
      simpa using hne j hj hready
    rw [List.count_append, hzero, add_zero]

/-- A worker inserts an event and moves on. -/
theorem ReadyFinal.keepsReady_log (hw : ReadyFinal w) {k : ℕ} {p : Phase α}
    (hp : ∀ id, p.writes = some id → (w.workers k).writes = some id) (id : Uuid)
    (status : JobStatus) (detail : Option Message) :
  KeepsReady w ((w.log id status detail).move k p)
  := by
  have hlog : ReadyFinal (w.log id status detail) := hw
  exact ⟨hlog.move hp, fun _ hj _ => hj, fun _ _ _ => rfl⟩

/-- An error leads a worker to write to nothing new, unless the worker has completed its job. -/
theorem writes_onError (error : Message) {p : Phase α}
    (hp : ∀ job status, p ≠ .logCompleted job status) (id : Uuid)
    (h : (p.onError error).writes = some id) :
  p.writes = some id
  := by
  cases p with
  | idle => cases h
  | processing job => exact h
  | logStatus job status detail => exact h
  | logCompleted job status => exact absurd rfl (hp job status)
  | failing job error' => cases h
  | ending job error' terminal => cases h
  | logFailed job status detail => cases h

/-- Every statement keeps the jobs that are ready, unless it is the event of a completed job
that fails. -/
theorem Exclusive.keepsReady (hw : Exclusive w) (hr : ReadyFinal w) {a : Action α}
    (ha : ¬ LosesCompletion w a) (h : Queue.step a w = some w') :
  KeepsReady w w'
  := by
  cases a with
  | insert id queue jobType payload idempotencyKey now =>
      obtain ⟨jobs, hjobs, rfl⟩ := Option.map_eq_some_iff.mp h
      apply hr.keepsReady_insert _ hjobs
      rintro ⟨⟩
  | claimNext k queue jobTypes locked now =>
      simp only [Queue.step] at h
      split at h
      · obtain ⟨⟨job, jobs⟩, hclaim, rfl⟩ := Option.map_eq_some_iff.mp h
        obtain ⟨i, hi, havailable, rfl, rfl⟩ := claimNext_eq_some hclaim
        apply hw.keepsReady_claim hr hi havailable
      · cases h
  | setStatus k state detail now =>
      simp only [Queue.step] at h
      split at h
      · next job hk =>
          cases h
          apply hr.keepsReady_write (by rw [hk]; rfl)
          · rintro id ⟨⟩
            rfl
          · intro j
            rfl
          · rintro j ⟨⟩
      · cases h
  | complete k result now =>
      simp only [Queue.step] at h
      split at h
      · next job hk =>
          cases h
          apply hr.keepsReady_write (by rw [hk]; rfl)
          · rintro id ⟨⟩
          · intro j
            rfl
          · intro j _ k' hk'
            rw [World.workers_move] at hk'
            split at hk'
            · cases hk'
            · next hne => exact hne (hw.exclusive k' k _ (holds_of_writes hk') (by rw [hk]; rfl))
      · cases h
  | event k =>
      simp only [Queue.step] at h
      split at h
      · next job status detail hk =>
          cases h
          apply hr.keepsReady_log
          intro id h
          rw [hk]
          exact h
      · cases h
        apply hr.keepsReady_log
        rintro id ⟨⟩
      · cases h
        apply hr.keepsReady_log
        rintro id ⟨⟩
      · cases h
  | select k =>
      simp only [Queue.step] at h
      split at h
      · next job error hk =>
          cases h
          apply hr.keepsReady_move
          intro id h
          rw [hk]
          exact h
      · cases h
  | fail k now =>
      simp only [Queue.step] at h
      split at h
      · next job error hk =>
          cases h
          apply hr.keepsReady_write (by rw [hk]; rfl)
          · rintro id ⟨⟩
          · intro j
            rfl
          · rintro j ⟨⟩
      · next job error hk =>
          cases h
          apply hr.keepsReady_write (by rw [hk]; rfl)
          · rintro id ⟨⟩
          · intro j
            rfl
          · rintro j ⟨⟩
      · cases h
  | raise k error =>
      cases h
      apply hr.keepsReady_move
      apply writes_onError
      intro job status hk
      exact ha ⟨job, status, hk⟩

/-- In a run in which the event of a completed job never fails to be inserted, a job that is
ready stays as it is and is not claimed again. -/
theorem ready_final (hw : w.Initial) (before after : List (Action α))
    (hbefore : Along Queue.step (fun w a => ¬ LosesCompletion w a) w before)
    (hafter : Along Queue.step (fun w a => ¬ LosesCompletion w a) (run w before) after)
    {j : Job α} (hj : j ∈ (run w before).jobs) (hready : j.status = .ready) :
  j ∈ (run w (before ++ after)).jobs
    ∧ (run w (before ++ after)).claims.count j.jobId = (run w before).claims.count j.jobId
  := by
  have hmiddle : Exclusive (run w before) ∧ ReadyFinal (run w before) := by
    apply invariant_run (I := fun w => Exclusive w ∧ ReadyFinal w) _ before w hbefore
      ⟨hw.exclusive, hw.readyFinal⟩
    rintro w a w' ⟨hw, hr⟩ ha h
    exact ⟨hw.step h, (hw.keepsReady hr ha h).final⟩
  have hend : Exclusive (run w (before ++ after)) ∧ ReadyFinal (run w (before ++ after))
      ∧ j ∈ (run w (before ++ after)).jobs
      ∧ (run w (before ++ after)).claims.count j.jobId = (run w before).claims.count j.jobId := by
    rw [run, run_append]
    apply invariant_run (I := fun w' => Exclusive w' ∧ ReadyFinal w' ∧ j ∈ w'.jobs
      ∧ w'.claims.count j.jobId = (run w before).claims.count j.jobId) _ after (run w before) hafter
      ⟨hmiddle.1, hmiddle.2, hj, rfl⟩
    rintro w a w' ⟨hw, hr, hj, hcount⟩ ha h
    have hkeeps := hw.keepsReady hr ha h
    refine ⟨hw.step h, hkeeps.final, hkeeps.mem j hj hready, ?_⟩
    rw [hkeeps.count j hj hready, hcount]
  exact hend.2.2

/-! ### One job and two workers -/

/-- The world with one new job for the relayers. -/
def oneJob : World Unit where
  jobs := [newJob 7 .relayer "MPC_SETTLE_SUBMIT".toList () none 0]
  events := []
  workers := fun _ => .idle
  claims := []

theorem oneJob_initial :
  oneJob.Initial
  := by
  constructor
  · intro j hj
    obtain rfl := List.mem_singleton.mp hj
    constructor
    · rfl
    · rfl
    · change 1 ≤ 3
      omega
  · apply List.nodup_singleton
  · intro k
    rfl
  · rfl

/-- A worker claims the job, reports that it submits, and completes it. -/
def submitted : List (Action Unit) :=
  [.claimNext 0 .relayer ["MPC_SETTLE_SUBMIT".toList] [] 1,
    .setStatus 0 "submitting".toList none 2, .event 0, .complete 0 () 3]

/-- The insertion of the event raises an error, the worker fails the job, and after a while a
second worker claims it. -/
def resubmitted : List (Action Unit) :=
  [.raise 0 [], .select 0, .fail 0 4, .event 0,
    .claimNext 1 .relayer ["MPC_SETTLE_SUBMIT".toList] [] 20]

/-- A job that one worker has failed is held by another one that claims it next. -/
theorem oneJob_exclusive_bounded :
  (∀ k k' id, ((run oneJob (submitted ++ resubmitted)).workers k).holds = some id →
      ((run oneJob (submitted ++ resubmitted)).workers k').holds = some id → k = k')
    ∧ ∀ j ∈ (run oneJob (submitted ++ resubmitted)).jobs,
      j.attempts = (run oneJob (submitted ++ resubmitted)).claims.count j.jobId
      ∧ j.attempts ≤ j.maxAttempts
  := claims_exclusive_bounded oneJob_initial (submitted ++ resubmitted)

/-- A completed job whose event is inserted stays ready and is not claimed by a second worker. -/
theorem oneJob_ready_final :
  ∃ j ∈ (run oneJob submitted).jobs, j.status = .ready
    ∧ j ∈ (run oneJob (submitted ++ [.event 0, .claimNext 1 .relayer [] [] 20])).jobs
    ∧ (run oneJob (submitted ++ [.event 0, .claimNext 1 .relayer [] [] 20])).claims.count j.jobId
      = (run oneJob submitted).claims.count j.jobId
  := by
  have hsubmitted : ∃ j ∈ (run oneJob submitted).jobs, j.status = .ready := by
    decide
  obtain ⟨j, hj, hready⟩ := hsubmitted
  use j, hj, hready
  apply ready_final oneJob_initial submitted [.event 0, .claimNext 1 .relayer [] [] 20]
    ⟨id, id, id, id, trivial⟩ ⟨id, id, trivial⟩ hj hready

/-- A completed job whose event fails to be inserted is claimed by a second worker. -/
theorem oneJob_resubmitted :
  oneJob.Initial
    ∧ (run oneJob submitted).jobs.map (fun j => (j.jobId, j.status, j.result))
      = [(7, .ready, some ())]
    ∧ (run oneJob submitted).claims = [7]
    ∧ (run oneJob (submitted ++ resubmitted)).jobs.map (fun j => (j.jobId, j.status))
      = [(7, .claimed)]
    ∧ (run oneJob (submitted ++ resubmitted)).claims = [7, 7]
  := by
  refine ⟨oneJob_initial, ?_⟩
  decide

end Shade.Queue
