import Shade.Queue.Enqueue

/-!
# Enqueueing a job once

Calls with the same key. As long as no call inserts a row when there is one with its key already,
every call ends by returning the only row with the key. When the row appears between the select of
a call and its insert, the call raises an error.
-/

namespace Shade.Queue.Enqueue

variable {α : Type} {calls : ℕ → Call α} {key : Text} {w w' : World α}

/-- The rows with a key. -/
def rowsOf (key : Text) (jobs : List (Job α)) : List (Job α) :=
  jobs.filter fun j => j.idempotencyKey = some key

/-- What the calls with a key do: none raises an error, those that return return the only row with
the key, and those that have not ended can go on. -/
structure Idempotent (calls : ℕ → Call α) (key : Text) (w : World α) : Prop where
  not_raised : ∀ k, (calls k).idempotencyKey = some key → w.phases k ≠ .raised
  same : ∀ k job, (calls k).idempotencyKey = some key → w.phases k = .returned job →
    rowsOf key w.jobs = [job]
  goes_on : ∀ k, (calls k).idempotencyKey = some key → 0 < (w.phases k).remaining →
    ∃ a w', step calls a w = some w' ∧ (w'.phases k).remaining < (w.phases k).remaining

/-- When a call with a key executes its insertion, there is no row with the key. -/
def NoRace (calls : ℕ → Call α) (w : World α) : Action → Prop
  | .insert k _ _ => w.phases k = .inserting →
      ∀ key, (calls k).idempotencyKey = some key → rowsOf key w.jobs = []
  | _ => True

/-- When a call executes its insertion, no other call with its key is between its select and its
insertion. -/
def Alone (calls : ℕ → Call α) (w : World α) : Action → Prop
  | .insert k _ _ => w.phases k = .inserting →
      ∀ j, j ≠ k → (calls j).idempotencyKey = (calls k).idempotencyKey → w.phases j ≠ .inserting
  | _ => True

/-- The call that runs the statement. -/
def Action.call : Action → ℕ
  | .select k => k
  | .insert k _ _ => k
  | .event k => k

/-- The calls run one after the other: when one runs a statement, the others have not begun or have
ended. -/
def Sequential (w : World α) (a : Action) : Prop :=
  ∀ j, j ≠ a.call → w.phases j ≠ .inserting ∧ ∀ job, w.phases j ≠ .logging job

/-! ### The invariant -/

/-- The rows of a key and what the calls know of them. -/
structure Consistent (calls : ℕ → Call α) (key : Text) (w : World α) : Prop where
  unique : (rowsOf key w.jobs).length ≤ 1
  known : ∀ k job, (calls k).idempotencyKey = some key →
    w.phases k = .logging job ∨ w.phases k = .returned job → job ∈ rowsOf key w.jobs

theorem mem_rowsOf {jobs : List (Job α)} {job : Job α} :
  job ∈ rowsOf key jobs ↔ job ∈ jobs ∧ job.idempotencyKey = some key
  := by
  rw [rowsOf, List.mem_filter, decide_eq_true_eq]

/-- A row that is found by its key is one of the rows with the key. -/
theorem mem_rowsOf_of_getByKey {jobs : List (Job α)} {job : Job α}
    (h : getByKey key jobs = some job) :
  job ∈ rowsOf key jobs
  := by
  rw [getByKey] at h
  apply mem_rowsOf.mpr
  use List.mem_of_find?_eq_some h
  have hkey := List.find?_some h
  apply of_decide_eq_true hkey

/-- A row among at most one is the only one. -/
theorem rowsOf_eq_singleton {jobs : List (Job α)} {job : Job α}
    (hu : (rowsOf key jobs).length ≤ 1) (h : job ∈ rowsOf key jobs) :
  rowsOf key jobs = [job]
  := by
  match hr : rowsOf key jobs with
  | [] =>
      rw [hr] at h
      cases h
  | [i] =>
      rw [hr] at h
      rw [List.mem_singleton.mp h]
  | i :: j :: rest =>
      rw [hr] at hu
      simp at hu

/-- The rows of a key after an insertion. -/
theorem rowsOf_insertJob {job : Job α} {jobs jobs' : List (Job α)}
    (h : insertJob job jobs = some jobs') :
  (job.idempotencyKey = some key → rowsOf key jobs = [] ∧ rowsOf key jobs' = [job])
    ∧ (job.idempotencyKey ≠ some key → rowsOf key jobs' = rowsOf key jobs)
  := by
  obtain ⟨rfl, hnew⟩ := insertJob_eq_some h
  have happ : rowsOf key (jobs ++ [job]) = rowsOf key jobs ++ rowsOf key [job] := by
    apply List.filter_append
  constructor
  · intro hkey
    have hnone : rowsOf key jobs = [] := by
      rw [rowsOf, List.filter_eq_nil_iff]
      intro j hj
      rw [decide_eq_true_eq]
      apply hnew key hkey j hj
    use hnone
    rw [happ, hnone, rowsOf, List.filter_singleton, hkey]
    simp
  · intro hkey
    rw [happ]
    simp [rowsOf, hkey]

/-- Every statement keeps this. -/
theorem Consistent.moves {a : Action} (hc : Consistent calls key w) (h : Moves calls w a w') :
  Consistent calls key w'
  := by
  cases h with
  | @found k key' job hp hkey hjob =>
      constructor
      · apply hc.unique
      · intro i job' hi hjob'
        rw [phases_move] at hjob'
        split at hjob'
        · case isTrue hik =>
            subst hik
            obtain rfl := Option.some.inj (hkey.symm.trans hi)
            obtain rfl : job = job' := by simpa using hjob'
            apply mem_rowsOf_of_getByKey hjob
        · apply hc.known i job' hi hjob'
  | @missing k hp _ =>
      constructor
      · apply hc.unique
      · intro i job' hi hjob'
        rw [phases_move] at hjob'
        split at hjob'
        · simp at hjob'
        · apply hc.known i job' hi hjob'
  | @inserted k id now job jobs hp hkey hins =>
      have hrows := @rowsOf_insertJob α key job _ _ hins
      constructor
      · by_cases hk : job.idempotencyKey = some key
        · rw [jobs_move, (hrows.1 hk).2, List.length_singleton]
        · rw [jobs_move, hrows.2 hk]
          apply hc.unique
      · intro i job' hi hjob'
        rw [phases_move] at hjob'
        rw [jobs_move]
        split at hjob'
        · case isTrue hik =>
            subst hik
            obtain rfl : job = job' := by simpa using hjob'
            rw [(hrows.1 (hkey.trans hi)).2]
            apply List.mem_singleton_self
        · have hmem := hc.known i job' hi hjob'
          by_cases hk : job.idempotencyKey = some key
          · rw [(hrows.1 hk).1] at hmem
            cases hmem
          · rw [hrows.2 hk]
            apply hmem
  | @conflict k id now key' job hp hkey hjob hjk =>
      constructor
      · apply hc.unique
      · intro i job' hi hjob'
        rw [phases_move] at hjob'
        split at hjob'
        · simp at hjob'
        · apply hc.known i job' hi hjob'
  | @logged k job events hp =>
      constructor
      · apply hc.unique
      · intro i job' hi hjob'
        rw [phases_move] at hjob'
        split at hjob'
        · case isTrue hik =>
            subst hik
            obtain rfl : job = job' := by simpa using hjob'
            apply hc.known i job hi (.inl hp)
        · apply hc.known i job' hi hjob'

/-- Without a race, no call with the key raises an error. -/
theorem not_raised_of_moves {a : Action} (h : Moves calls w a w') (ha : NoRace calls w a)
    (hw : ∀ k, (calls k).idempotencyKey = some key → w.phases k ≠ .raised) (k : ℕ)
    (hk : (calls k).idempotencyKey = some key) :
  w'.phases k ≠ .raised
  := by
  cases h with
  | found =>
      rw [phases_move]
      split
      · simp
      · apply hw k hk
  | missing =>
      rw [phases_move]
      split
      · simp
      · apply hw k hk
  | inserted =>
      rw [phases_move]
      split
      · simp
      · apply hw k hk
  | conflict hp hkey hjob hjk =>
      have hmem := mem_rowsOf.mpr ⟨hjob, hjk⟩
      rw [ha hp _ hkey] at hmem
      cases hmem
  | logged =>
      rw [phases_move]
      split
      · simp
      · apply hw k hk

/-- The database always has a key that no row has. -/
theorem exists_fresh (jobs : List (Job α)) :
  ∃ id : Uuid, ¬ ∃ j ∈ jobs, j.jobId = id
  := by
  obtain ⟨id, hid⟩ := Infinite.exists_notMem_finset (jobs.map Job.jobId).toFinset
  use id
  rintro ⟨j, hj, rfl⟩
  apply hid
  rw [List.mem_toFinset]
  apply List.mem_map_of_mem hj

/-- A call that has not ended can run its next statement. -/
theorem exists_step (w : World α) (k : ℕ) (h : 0 < (w.phases k).remaining) :
  ∃ a w', step calls a w = some w' ∧ (w'.phases k).remaining < (w.phases k).remaining
  := by
  cases hp : w.phases k with
  | selecting =>
      cases hs : (usableKey (calls k).idempotencyKey).bind fun key => getByKey key w.jobs with
      | some job =>
          use .select k, w.move k (.returned job)
          simp [step, hp, hs, Phase.remaining]
      | none =>
          use .select k, w.move k .inserting
          simp [step, hp, hs, Phase.remaining]
  | inserting =>
      obtain ⟨id, hid⟩ := exists_fresh w.jobs
      cases hs : insertJob (newJob id (calls k).queue (calls k).jobType (calls k).payload
          (calls k).idempotencyKey 0) w.jobs with
      | some jobs =>
          use .insert k id 0
          simp [step, hp, hs, hid, Phase.remaining]
      | none =>
          use .insert k id 0
          simp [step, hp, hs, hid, Phase.remaining]
  | logging job =>
      use .event k
      simp [step, hp, Phase.remaining]
  | returned job => simp [hp, Phase.remaining] at h
  | raised => simp [hp, Phase.remaining] at h

/-- From a table with at most one row with a key, in every run in which no call inserts a row with
the key when there is one, the calls with the key do not raise errors, those that have returned
have returned the only row with the key, and the others can go on. -/
theorem enqueue_idempotent (calls : ℕ → Call α) (key : Text) (jobs : List (Job α))
    (events : List Event) (hu : (rowsOf key jobs).length ≤ 1) (actions : List Action)
    (h : Machine.Along (step calls) (NoRace calls) (start jobs events) actions) :
  Idempotent calls key (run calls (start jobs events) actions)
  := by
  have hinv : Consistent calls key (run calls (start jobs events) actions)
      ∧ ∀ k, (calls k).idempotencyKey = some key →
          (run calls (start jobs events) actions).phases k ≠ .raised := by
    apply Machine.invariant_run (I := fun w : World α => Consistent calls key w
      ∧ ∀ k, (calls k).idempotencyKey = some key → w.phases k ≠ .raised) _ actions _ h
    · constructor
      · use hu
        intro k job _ hjob
        simp [start] at hjob
      · intro k _
        simp [start]
    · rintro w a w' ⟨hc, hr⟩ ha hstep
      have hm := step_moves hstep
      use hc.moves hm
      apply not_raised_of_moves hm ha hr
  obtain ⟨hc, hr⟩ := hinv
  use hr
  · intro k job hk hjob
    apply rowsOf_eq_singleton hc.unique (hc.known k job hk (.inr hjob))
  · intro k _ hk
    apply exists_step _ k hk

/-! ### Schedules without a race -/

/-- There is no row with a key that is not found. -/
theorem rowsOf_eq_nil {jobs : List (Job α)} (h : getByKey key jobs = none) :
  rowsOf key jobs = []
  := List.filter_eq_nil_iff.mpr (List.find?_eq_none.mp h)

/-- There is no row with the key of a call that is to insert one. -/
def Absent (calls : ℕ → Call α) (w : World α) : Prop :=
  ∀ k key, w.phases k = .inserting → (calls k).idempotencyKey = some key → rowsOf key w.jobs = []

/-- A call that is to insert after another phase has begun is not the one that moved. -/
theorem inserting_of_move {k i : ℕ} {p : Phase α} (hp : p ≠ .inserting)
    (h : (w.move k p).phases i = .inserting) :
  i ≠ k ∧ w.phases i = .inserting
  := by
  rw [phases_move] at h
  split at h
  · contradiction
  · case isFalse hik => exact ⟨hik, h⟩

/-- A statement keeps this if calls insert alone and with keys that are not empty. -/
theorem Absent.moves {a : Action} (h : Absent calls w)
    (hkeys : ∀ k, (calls k).idempotencyKey ≠ some []) (ha : Alone calls w a)
    (hm : Moves calls w a w') :
  Absent calls w'
  := by
  intro i key hi hkey
  cases hm with
  | found => exact h i key (inserting_of_move (by simp) hi).2 hkey
  | missing hp hnone =>
      rw [phases_move] at hi
      split at hi
      · case isTrue hik =>
          subst hik
          have husable : usableKey (calls i).idempotencyKey = some key := by
            rw [usableKey, hkey, Option.filter_some, if_pos]
            apply decide_eq_true
            rintro rfl
            exact hkeys i hkey
          exact rowsOf_eq_nil (hnone key husable)
      · exact h i key hi hkey
  | inserted hp hjob hins =>
      obtain ⟨hik, hi⟩ := inserting_of_move (by simp) hi
      -- the row that is inserted has another key, since the call was alone with its own
      refine ((rowsOf_insertJob hins).2 ?_).trans (h i key hi hkey)
      intro hsame
      exact ha hp i hik (hkey.trans (hjob.symm.trans hsame).symm) hi
  | conflict => exact h i key (inserting_of_move (by simp) hi).2 hkey
  | logged => exact h i key (inserting_of_move (by simp) hi).2 hkey

/-- If no other call inserts a row with its key between the select of a call and its insertion, and
no key is empty, then there is no race. -/
theorem noRace_of_alone (hkeys : ∀ k, (calls k).idempotencyKey ≠ some []) {actions : List Action}
    (h : Machine.Along (step calls) (Alone calls) w actions) (hw : Absent calls w) :
  Machine.Along (step calls) (NoRace calls) w actions
  := by
  induction actions generalizing w with
  | nil => trivial
  | cons a actions ih =>
      obtain ⟨ha, h⟩ := h
      constructor
      · cases a with
        | insert k id now =>
            intro hk key hkey
            exact hw k key hk hkey
        | select k => trivial
        | event k => trivial
      · apply ih h
        cases hstep : step calls a w with
        | none =>
            rw [Machine.next_of_none hstep]
            exact hw
        | some w' =>
            rw [Machine.next_of_some hstep]
            exact hw.moves hkeys ha (step_moves hstep)

/-- There is no race when calls whose keys are not empty run one after the other. -/
theorem noRace_of_sequential (hkeys : ∀ k, (calls k).idempotencyKey ≠ some [])
    (jobs : List (Job α)) (events : List Event) {actions : List Action}
    (h : Machine.Along (step calls) Sequential (start jobs events) actions) :
  Machine.Along (step calls) (NoRace calls) (start jobs events) actions
  := by
  have halone : Machine.Along (step calls) (Alone calls) (start jobs events) actions := by
    apply h.imp
    intro w a ha
    cases a with
    | insert k id now =>
        intro _ j hj _
        exact (ha j hj).1
    | select k => trivial
    | event k => trivial
  apply noRace_of_alone hkeys halone
  intro k key hk
  cases hk

/-- Calls that enqueue the same job. -/
def sameCalls (_ : ℕ) : Call Unit := ⟨.relayer, "job".toList, (), some "key".toList⟩

/-- A call after another one has inserted the row returns it. -/
theorem enqueue_idempotent_twice :
  Idempotent sameCalls "key".toList
    (run sameCalls (start [] []) [.select 0, .insert 0 7 100, .select 1, .event 0])
  := by
  apply enqueue_idempotent sameCalls "key".toList [] [] (Nat.zero_le 1)
  have hrace : NoRace sameCalls ((start [] []).move 0 .inserting) (.insert 0 7 100) := by
    intro _ key _
    rfl
  use trivial, hrace, trivial, trivial
  trivial

/-- When both calls select before either inserts, the second one raises an error. -/
theorem enqueue_raises :
  ¬ ∀ (α : Type) (calls : ℕ → Call α) (key : Text) (jobs : List (Job α)) (events : List Event)
      (actions : List Action), (rowsOf key jobs).length ≤ 1 →
      Idempotent calls key (run calls (start jobs events) actions)
  := by
  intro h
  have hi := h Unit sameCalls "key".toList [] []
    [.select 0, .select 1, .insert 0 7 100, .insert 1 8 100] (Nat.zero_le 1)
  apply hi.not_raised 1 rfl
  rfl

end Shade.Queue.Enqueue
