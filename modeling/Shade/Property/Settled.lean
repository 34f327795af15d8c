import Shade.Committee.Settler

/-!
# Every match is settled once

Polls of the settler may work on the same batch at the same time, and any of them may end in the
middle of it. The idempotency key of a job says which match it is for, so that no match has two
jobs. A batch is no longer pending only after one poll has seen that each of its matches either has
a job or is routed elsewhere, and none of this is ever undone: `settled_once`.
-/

namespace Shade.Committee

open Text Table Queue Machine

variable {db db' : SettlerDb} {w w' : SettlerWorld} {r : Round} {m : MatchResult} {p i i' : ℕ}
  {batchId batchId' : Text} {j : Job JobPayload} {jobs : List (Job JobPayload)}
  {payload : SettlePayload} {phase : SettlerPhase}

/-! ### Keys -/

/-- Texts in which a character occurs last at the same place. -/
theorem append_cons_injective {u u' v v' : Text} {c : Char} (hv : c ∉ v) (hv' : c ∉ v')
    (h : u ++ c :: v = u' ++ c :: v') :
  u = u' ∧ v = v'
  := by
  rcases List.append_eq_append_iff.mp h with ⟨as, hu, hrest⟩ | ⟨as, hu, hrest⟩
  · cases as with
    | nil =>
        rw [List.append_nil] at hu
        exact ⟨hu.symm, (List.cons.inj hrest).2⟩
    | cons x as =>
        obtain ⟨-, rfl⟩ := List.cons.inj hrest
        exact absurd (by simp) hv
  · cases as with
    | nil =>
        rw [List.append_nil] at hu
        exact ⟨hu, (List.cons.inj hrest).2.symm⟩
    | cons x as =>
        obtain ⟨-, rfl⟩ := List.cons.inj hrest
        exact absurd (by simp) hv'

theorem colon_notMem_toDigits (n : ℕ) :
  ':' ∉ Nat.toDigits 10 n
  := by
  intro h
  have hdigit := Nat.isDigit_of_mem_toDigits (by decide) (by decide) h
  contradiction

/-- A key determines the batch and the index of the match. -/
theorem settleKey_injective (h : settleKey batchId i = settleKey batchId' i') :
  batchId = batchId' ∧ i = i'
  := by
  obtain ⟨hbatch, hdigits⟩ := append_cons_injective (colon_notMem_toDigits i)
    (colon_notMem_toDigits i') (List.append_cancel_left h)
  use hbatch
  rw [← Nat.ofDigitChars_ten_toDigits (n := i), hdigits, Nat.ofDigitChars_ten_toDigits]

/-! ### What holds of the database -/

/-- The payload is that of a match of a batch. -/
structure SettlePayload.Carries (payload : SettlePayload) (batchId : Text) (i : ℕ)
    (m : MatchResult) : Prop where
  batchId_eq : payload.batchId = batchId
  matchIndex_eq : payload.matchIndex = i
  intentAId_eq : payload.intentAId = m.intentAId
  intentBId_eq : payload.intentBId = m.intentBId
  amount_eq : payload.matchedAmount7dp = m.matchedAmount7dp

/-- A batch has a row, with its matches. -/
def HasRow (db : SettlerDb) (batch : BatchRow) : Prop :=
  ∃ row ∈ db.batches, row.batchId = batch.batchId ∧ row.matchesJson = batch.matchesJson

/-- There is a job for a match. -/
def JobFor (db : SettlerDb) (batchId : Text) (i : ℕ) : Prop :=
  ∃ j ∈ db.jobs, SettlesMatch batchId i j

/-- A side of the match is routed elsewhere, or there is a job for it. -/
def Handled (db : SettlerDb) (batchId : Text) (i : ℕ) (m : MatchResult) : Prop :=
  m.intentAId ∈ db.intentHashes ∨ m.intentBId ∈ db.intentHashes ∨ JobFor db batchId i

/-- The job is one for a match of a batch, and has its key. -/
def Faithful (db : SettlerDb) (j : Job JobPayload) : Prop :=
  ∃ row ∈ db.batches, ∃ i m payload, row.matchesJson[i]? = some m
    ∧ j.payload = .mpcSettle payload ∧ payload.Carries row.batchId i m
    ∧ j.idempotencyKey = some (settleKey row.batchId i)

/-- Two jobs do not have the same key. -/
def OtherKey (j j' : Job JobPayload) : Prop :=
  j'.idempotencyKey = none ∨ j.idempotencyKey ≠ j'.idempotencyKey

/-- What holds of the database: batches and jobs are determined by their keys, the jobs that settle
matches are faithful, no other jobs have their keys, and the matches of batches that are no longer
pending are handled. -/
structure SettlerDb.Sound (db : SettlerDb) : Prop where
  batchIds : (db.batches.map BatchRow.batchId).Nodup
  keys : db.jobs.Pairwise OtherKey
  faithful : ∀ j ∈ db.jobs, j.jobType = mpcSettleSubmit → Faithful db j
  keyed : ∀ j ∈ db.jobs, ∀ batchId i, j.idempotencyKey = some (settleKey batchId i) →
    j.jobType = mpcSettleSubmit
  done : ∀ row ∈ db.batches, row.settlementStatus ≠ .pending →
    ∀ i m, row.matchesJson[i]? = some m → Handled db row.batchId i m

theorem SettlerDb.Sound.settlesMatch (h : db.Sound) (hj : j ∈ db.jobs)
    (hkey : j.idempotencyKey = some (settleKey batchId i)) :
  SettlesMatch batchId i j
  := by
  have htype := h.keyed j hj batchId i hkey
  obtain ⟨row, -, i', m, payload, -, hpayload, hcarries, hkey'⟩ := h.faithful j hj htype
  obtain ⟨rfl, rfl⟩ := settleKey_injective (Option.some.inj (hkey.symm.trans hkey'))
  use htype
  rw [hpayload]
  use hcarries.batchId_eq, hcarries.matchIndex_eq

theorem SettlerDb.Sound.key_eq (h : db.Sound) (hj : j ∈ db.jobs)
    (hsettles : SettlesMatch batchId i j) :
  j.idempotencyKey = some (settleKey batchId i)
  := by
  obtain ⟨htype, hmatch⟩ := hsettles
  obtain ⟨row, -, i', m, payload, -, hpayload, hcarries, hkey⟩ := h.faithful j hj htype
  rw [hpayload] at hmatch
  rw [hkey, ← hmatch.1, ← hmatch.2, hcarries.batchId_eq, hcarries.matchIndex_eq]

/-- There is at most one job for a match. -/
theorem SettlerDb.Sound.one_job (h : db.Sound) (batchId : Text) (i : ℕ) :
  (db.jobs.filter fun j => SettlesMatch batchId i j).length ≤ 1
  := by
  have hkeys := h.keys.filter fun j => decide (SettlesMatch batchId i j)
  have hkey : ∀ j ∈ db.jobs.filter fun j => SettlesMatch batchId i j,
      j.idempotencyKey = some (settleKey batchId i) := by
    intro j hj
    rw [List.mem_filter, decide_eq_true_eq] at hj
    apply h.key_eq hj.1 hj.2
  cases hjobs : db.jobs.filter fun j => SettlesMatch batchId i j with
  | nil => simp
  | cons j rest =>
      cases rest with
      | nil => simp
      | cons j' rest =>
          rw [hjobs] at hkeys hkey
          have hj := hkey j (by simp)
          have hj' := hkey j' (by simp)
          rcases (List.pairwise_cons.mp hkeys).1 j' (by simp) with hnone | hne
          · rw [hnone] at hj'
            cases hj'
          · rw [hj, hj'] at hne
            contradiction

/-! ### What is never undone -/

/-- Batches, jobs and hashes of intents remain. -/
structure Grows (db db' : SettlerDb) : Prop where
  batches : ∀ row ∈ db.batches, HasRow db' row
  jobs : ∀ batchId i, JobFor db batchId i → JobFor db' batchId i
  intentHashes : db.intentHashes ⊆ db'.intentHashes

theorem Grows.refl (db : SettlerDb) :
  Grows db db
  := by
  constructor
  · intro row hrow
    use row
  · intro batchId i h
    apply h
  · apply List.Subset.refl

theorem HasRow.grow {batch : BatchRow} (h : HasRow db batch) (hgrows : Grows db db') :
  HasRow db' batch
  := by
  obtain ⟨row, hrow, hid, hmatches⟩ := h
  obtain ⟨row', hrow', hid', hmatches'⟩ := hgrows.batches row hrow
  use row', hrow', hid'.trans hid, hmatches'.trans hmatches

theorem Handled.grow (h : Handled db batchId i m) (hgrows : Grows db db') :
  Handled db' batchId i m
  := by
  rcases h with hA | hB | hjob
  · exact .inl (hgrows.intentHashes hA)
  · exact .inr (.inl (hgrows.intentHashes hB))
  · exact .inr (.inr (hgrows.jobs batchId i hjob))

theorem Faithful.grow (h : Faithful db j) (hgrows : Grows db db') :
  Faithful db' j
  := by
  obtain ⟨row, hrow, i, m, payload, hm, hpayload, hcarries, hkey⟩ := h
  obtain ⟨row', hrow', hid, hmatches⟩ := hgrows.batches row hrow
  use row', hrow', i, m, payload
  rw [hid, hmatches]
  use hm, hpayload, hcarries

/-! ### What holds of a poll -/

/-- The batches of a poll have rows, and the matches before the present one are handled. -/
structure Round.Sound (db : SettlerDb) (r : Round) : Prop where
  batch : HasRow db r.batch
  rest : ∀ batch ∈ r.rest, HasRow db batch
  handled : ∀ i m, i < r.index → r.batch.matchesJson[i]? = some m →
    Handled db r.batch.batchId i m

/-- What a poll knows in a phase. -/
def SettlerPhase.Sound (db : SettlerDb) : SettlerPhase → Prop
  | .idle => True
  | .route r m a b => r.Sound db ∧ r.batch.matchesJson[r.index]? = some m
      ∧ (a = some true → m.intentAId ∈ db.intentHashes)
      ∧ (b = some true → m.intentBId ∈ db.intentHashes)
  | .fetch r m _ _ => r.Sound db ∧ r.batch.matchesJson[r.index]? = some m
  | .select r payload => r.Sound db ∧ ∃ m, r.batch.matchesJson[r.index]? = some m
      ∧ payload.Carries r.batch.batchId r.index m
  | .insert r payload => r.Sound db ∧ ∃ m, r.batch.matchesJson[r.index]? = some m
      ∧ payload.Carries r.batch.batchId r.index m
  | .event r _ => r.Sound db ∧ JobFor db r.batch.batchId r.index
  | .update r => r.Sound db ∧ r.batch.matchesJson.length ≤ r.index

theorem Round.Sound.grow (h : r.Sound db) (hgrows : Grows db db') :
  r.Sound db'
  where
  batch := h.batch.grow hgrows
  rest batch hbatch := (h.rest batch hbatch).grow hgrows
  handled i m hi hm := (h.handled i m hi hm).grow hgrows

theorem SettlerPhase.Sound.grow (h : phase.Sound db) (hgrows : Grows db db') :
  phase.Sound db'
  := by
  cases phase with
  | idle => trivial
  | route r m a b =>
      obtain ⟨hr, hm, hA, hB⟩ := h
      use hr.grow hgrows, hm, fun ha => hgrows.intentHashes (hA ha)
      intro hb
      apply hgrows.intentHashes (hB hb)
  | fetch r m a b => use h.1.grow hgrows, h.2
  | select r payload => exact ⟨h.1.grow hgrows, h.2⟩
  | insert r payload => exact ⟨h.1.grow hgrows, h.2⟩
  | event r jobId => exact ⟨h.1.grow hgrows, hgrows.jobs _ _ h.2⟩
  | update r => use h.1.grow hgrows, h.2

theorem Round.Sound.loop (h : r.Sound db) :
  r.loop.Sound db
  := by
  rw [Round.loop]
  cases hm : r.batch.matchesJson[r.index]? with
  | none => use h, List.getElem?_eq_none_iff.mp hm
  | some m =>
      use h, hm
      simp

/-- A poll goes on when the present match is handled. -/
theorem Round.Sound.advance (h : r.Sound db)
    (hm : ∀ m, r.batch.matchesJson[r.index]? = some m → Handled db r.batch.batchId r.index m)
    (queued : ℕ) :
  (r.advance queued).Sound db
  := by
  apply Round.Sound.loop
  constructor
  · apply h.batch
  · apply h.rest
  · intro i m' hi hm'
    rcases Nat.lt_succ_iff_lt_or_eq.mp hi with hi | rfl
    · apply h.handled i m' hi hm'
    · apply hm m' hm'

theorem startBatches_sound {batches : List BatchRow} (h : ∀ batch ∈ batches, HasRow db batch) :
  (startBatches batches).Sound db
  := by
  cases batches with
  | nil => trivial
  | cons batch rest =>
      obtain ⟨hbatch, hrest⟩ := List.forall_mem_cons.mp h
      apply Round.Sound.loop
      use hbatch, hrest
      intro i m hi
      cases hi

theorem hasRow_of_mem_pendingBatches {batch : BatchRow} (h : batch ∈ pendingBatches db.batches) :
  HasRow db batch
  := by
  have hmem := (List.mem_insertionSort _).mp (List.mem_of_mem_take h)
  use batch, (List.mem_filter.mp hmem).1

theorem Round.payload_carries {noteA noteB : Option IntentRow} :
  (r.payload m noteA noteB).Carries r.batch.batchId r.index m
  := ⟨rfl, rfl, rfl, rfl, rfl⟩

theorem mem_of_isRfqRouted {intentId : Text} (h : isRfqRouted intentId db = true) :
  intentId ∈ db.intentHashes
  := by
  obtain ⟨hash, hmem, heq⟩ := List.any_eq_true.mp h
  rw [← of_decide_eq_true heq]
  apply hmem

/-- What a poll does when it is told where an intent is routed. -/
theorem Round.routed_sound {a b : Option Bool} (h : (SettlerPhase.route r m a b).Sound db) :
  (r.routed m a b).Sound db
  := by
  obtain ⟨hr, hm, hA, hB⟩ := h
  rcases a with _ | a
  · use hr, hm, hA, hB
  · rcases b with _ | b
    · use hr, hm, hA, hB
    · rw [Round.routed]
      split
      · case isTrue hor =>
          apply hr.advance
          intro m' hm'
          obtain rfl := Option.some.inj (hm.symm.trans hm')
          rcases (Bool.or_eq_true a b).mp hor with rfl | rfl
          · exact .inl (hA rfl)
          · exact .inr (.inl (hB rfl))
      · use hr, hm

theorem Round.fetched_sound {a b : Option (Option IntentRow)} (hr : r.Sound db)
    (hm : r.batch.matchesJson[r.index]? = some m) :
  (r.fetched m a b).Sound db
  := by
  rcases a with _ | a
  · use hr, hm
  · rcases b with _ | b
    · use hr, hm
    · exact ⟨hr, m, hm, Round.payload_carries⟩

/-! ### What the statements do -/

theorem insertJob_eq_some (h : insertJob j db.jobs = some jobs) :
  jobs = db.jobs ++ [j] ∧ ∀ j' ∈ db.jobs, OtherKey j' j
  := by
  rw [insertJob] at h
  split at h
  · cases h
  · case isFalse hnew =>
      use (Option.some.inj h).symm
      intro j' hj'
      by_contra hkey
      rw [OtherKey, not_or, not_not] at hkey
      apply hnew (.inr ⟨j', hj', hkey.1, hkey.2⟩)

theorem grows_insertJob (h : insertJob j db.jobs = some jobs) :
  Grows db { db with jobs := jobs }
  := by
  obtain ⟨rfl, -⟩ := insertJob_eq_some h
  constructor
  · intro row hrow
    use row
  · rintro batchId i ⟨j', hj', hsettles⟩
    use j', List.mem_append_left _ hj'
  · apply List.Subset.refl

/-- The insertion of a faithful job, or of one that is none of the settler. -/
theorem SettlerDb.Sound.insertJob (h : db.Sound) (hjob : Queue.insertJob j db.jobs = some jobs)
    (hfaithful : j.jobType = mpcSettleSubmit → Faithful db j)
    (hkeyed : ∀ batchId i, j.idempotencyKey = some (settleKey batchId i) →
      j.jobType = mpcSettleSubmit) :
  SettlerDb.Sound { db with jobs := jobs }
  := by
  have hgrows := grows_insertJob hjob
  obtain ⟨rfl, hkeys⟩ := insertJob_eq_some hjob
  constructor
  · apply h.batchIds
  · apply List.pairwise_append.mpr
    use h.keys, List.pairwise_singleton _ _
    intro j₁ hj₁ j₂ hj₂
    rw [List.mem_singleton.mp hj₂]
    apply hkeys j₁ hj₁
  · intro j' hj' htype
    rcases List.mem_append.mp hj' with hj' | hj'
    · apply (h.faithful j' hj' htype).grow hgrows
    · rw [List.mem_singleton.mp hj'] at htype ⊢
      apply (hfaithful htype).grow hgrows
  · intro j' hj'
    rcases List.mem_append.mp hj' with hj' | hj'
    · apply h.keyed j' hj'
    · rw [List.mem_singleton.mp hj']
      apply hkeyed
  · intro row hrow hstatus i m hm
    apply (h.done row hrow hstatus i m hm).grow hgrows

/-- The insertion of the job for the match that a poll has come to. -/
theorem SettlerDb.Sound.insertSettle (h : db.Sound) (hr : r.Sound db)
    (hm : r.batch.matchesJson[r.index]? = some m)
    (hcarries : payload.Carries r.batch.batchId r.index m) {id : Uuid} {now : ℕ}
    (hjob : Queue.insertJob
      (newJob id .relayer mpcSettleSubmit (.mpcSettle payload) (some r.key) now) db.jobs
        = some jobs) :
  SettlerDb.Sound { db with jobs := jobs } ∧ JobFor { db with jobs := jobs } r.batch.batchId r.index
  := by
  constructor
  · apply h.insertJob hjob
    · intro _
      obtain ⟨row, hrow, hid, hmatches⟩ := hr.batch
      use row, hrow, r.index, m, payload
      rw [hid, hmatches]
      use hm, rfl, hcarries
      rfl
    · intros
      rfl
  · obtain ⟨rfl, -⟩ := insertJob_eq_some hjob
    use newJob id .relayer mpcSettleSubmit (.mpcSettle payload) (some r.key) now, by simp
    use rfl, hcarries.batchId_eq, hcarries.matchIndex_eq

theorem mem_work {id : Uuid} {written : Job JobPayload}
    (hj : j ∈ updateJob id (Worked written) jobs) :
  ∃ j' ∈ jobs, j.jobType = j'.jobType ∧ j.payload = j'.payload
    ∧ j.idempotencyKey = j'.idempotencyKey
  := by
  obtain ⟨j', hj', rfl⟩ := mem_updateJob.mp hj
  use j', hj'
  split <;> exact ⟨rfl, rfl, rfl⟩

theorem settlesMatch_congr {j' : Job JobPayload} (htype : j.jobType = j'.jobType)
    (hpayload : j.payload = j'.payload) :
  SettlesMatch batchId i j ↔ SettlesMatch batchId i j'
  := by
  rw [SettlesMatch, SettlesMatch, htype, hpayload]

theorem grows_work (id : Uuid) (written : Job JobPayload) :
  Grows db { db with jobs := updateJob id (Worked written) db.jobs }
  := by
  constructor
  · intro row hrow
    use row
  · rintro batchId i ⟨j, hj, hsettles⟩
    use if j.jobId = id then Worked written j else j
    constructor
    · apply mem_updateJob.mpr ⟨j, hj, rfl⟩
    · apply (settlesMatch_congr _ _).mpr hsettles <;> split <;> rfl
  · apply List.Subset.refl

/-- Workers leave alone what the settler relies on. -/
theorem SettlerDb.Sound.work (h : db.Sound) (id : Uuid) (written : Job JobPayload) :
  SettlerDb.Sound { db with jobs := updateJob id (Worked written) db.jobs }
  := by
  have hgrows := @grows_work db id written
  constructor
  · apply h.batchIds
  · apply List.pairwise_map.mpr
    apply h.keys.imp
    intro j j' hkeys
    have hkey : ∀ j : Job JobPayload,
        (if j.jobId = id then Worked written j else j).idempotencyKey = j.idempotencyKey := by
      intro j
      split <;> rfl
    rw [OtherKey, hkey, hkey]
    apply hkeys
  · intro j hj htype
    obtain ⟨j', hj', htype', hpayload, hkey⟩ := mem_work hj
    rw [htype'] at htype
    have hfaithful := (h.faithful j' hj' htype).grow hgrows
    rw [Faithful, ← hpayload, ← hkey] at hfaithful
    apply hfaithful
  · intro j hj batchId i hkey
    obtain ⟨j', hj', htype, -, hkey'⟩ := mem_work hj
    rw [htype]
    rw [hkey'] at hkey
    apply h.keyed j' hj' batchId i hkey
  · intro row hrow hstatus i m hm
    apply (h.done row hrow hstatus i m hm).grow hgrows

theorem map_batchId_updateSettlementStatus (status : SettlementStatus) :
  (updateSettlementStatus batchId status db.batches).map BatchRow.batchId
    = db.batches.map BatchRow.batchId
  := by
  apply map_updateWhere
  intros
  rfl

theorem grows_updateSettlementStatus (status : SettlementStatus) :
  Grows db { db with batches := updateSettlementStatus batchId status db.batches }
  := by
  constructor
  · intro row hrow
    use if row.batchId = batchId then { row with settlementStatus := status } else row
    constructor
    · apply mem_updateWhere.mpr ⟨row, hrow, rfl⟩
    · split <;> use rfl
  · intro batchId i h
    apply h
  · apply List.Subset.refl

/-- The status of a batch is written when all of its matches are handled. -/
theorem SettlerDb.Sound.updateSettlementStatus (h : db.Sound) (hr : r.Sound db)
    (hlength : r.batch.matchesJson.length ≤ r.index) (status : SettlementStatus) :
  SettlerDb.Sound
    { db with batches := Committee.updateSettlementStatus r.batch.batchId status db.batches }
  := by
  have hgrows := @grows_updateSettlementStatus db r.batch.batchId status
  constructor
  · change ((Committee.updateSettlementStatus _ _ _).map _).Nodup
    rw [map_batchId_updateSettlementStatus]
    apply h.batchIds
  · apply h.keys
  · intro j hj htype
    apply (h.faithful j hj htype).grow hgrows
  · apply h.keyed
  · intro row hrow hstatus i m hm
    obtain ⟨row', hrow', rfl⟩ := mem_updateWhere.mp hrow
    split at hstatus
    · case isTrue hid =>
        rw [if_pos hid] at hm ⊢
        obtain ⟨row₀, hrow₀, hid₀, hmatches⟩ := hr.batch
        obtain rfl := List.inj_on_of_nodup_map h.batchIds hrow' hrow₀ (hid.trans hid₀.symm)
        rw [hmatches] at hm
        have hi := (List.getElem?_eq_some_iff.mp hm).1
        rw [hid]
        apply (hr.handled i m (by omega) hm).grow hgrows
    · case isFalse hid =>
        rw [if_neg hid] at hm ⊢
        apply (h.done row' hrow' hstatus i m hm).grow hgrows

theorem grows_insertBatch (row : BatchRow) :
  Grows db { db with batches := db.batches ++ [row] }
  := by
  constructor
  · intro row' hrow'
    use row', List.mem_append_left _ hrow'
  · intro batchId i h
    apply h
  · apply List.Subset.refl

/-- A new batch is pending. -/
theorem SettlerDb.Sound.insertBatch (h : db.Sound) {row : BatchRow}
    (hstatus : row.settlementStatus = .pending)
    (hnew : ¬ ∃ row' ∈ db.batches, row'.batchId = row.batchId) :
  SettlerDb.Sound { db with batches := db.batches ++ [row] }
  := by
  have hgrows := @grows_insertBatch db row
  constructor
  · rw [List.map_append, List.nodup_append]
    use h.batchIds, List.nodup_singleton _
    rintro id hid id' hid' rfl
    obtain ⟨row', hrow', rfl⟩ := List.mem_map.mp hid
    apply hnew ⟨row', hrow', List.mem_singleton.mp hid'⟩
  · apply h.keys
  · intro j hj htype
    apply (h.faithful j hj htype).grow hgrows
  · apply h.keyed
  · intro row' hrow' hstatus' i m hm
    rcases List.mem_append.mp hrow' with hrow' | hrow'
    · apply (h.done row' hrow' hstatus' i m hm).grow hgrows
    · rw [List.mem_singleton.mp hrow'] at hstatus'
      contradiction

theorem grows_write {intentHashes : List Text} (hsub : db.intentHashes ⊆ intentHashes)
    (rows : List IntentRow) (events : List Event) :
  Grows db { db with mpcIntents := rows, intentHashes := intentHashes, events := events }
  := by
  constructor
  · intro row hrow
    use row
  · intro batchId i h
    apply h
  · apply hsub

/-- What is written to the other tables, of which one only grows. -/
theorem SettlerDb.Sound.write (h : db.Sound) {intentHashes : List Text}
    (hsub : db.intentHashes ⊆ intentHashes) (rows : List IntentRow) (events : List Event) :
  SettlerDb.Sound { db with mpcIntents := rows, intentHashes := intentHashes, events := events }
  := by
  have hgrows := grows_write hsub rows events
  constructor
  · apply h.batchIds
  · apply h.keys
  · intro j hj htype
    apply (h.faithful j hj htype).grow hgrows
  · apply h.keyed
  · intro row hrow hstatus i m hm
    apply (h.done row hrow hstatus i m hm).grow hgrows

/-! ### What holds of all polls -/

/-- What holds of the database and of every poll. -/
structure SettlerWorld.Sound (w : SettlerWorld) : Prop where
  db : w.db.Sound
  phases : ∀ p, (w.phases p).Sound w.db

theorem SettlerWorld.initial_sound :
  initial.Sound
  := by
  constructor
  · constructor
    · apply List.nodup_nil
    · apply List.Pairwise.nil
    all_goals
      intro x hx
      cases hx
  · intro p
    trivial

/-- Somebody else than a poll changes the database. -/
theorem SettlerWorld.Sound.grow (h : w.Sound) (hdb : db'.Sound) (hgrows : Grows w.db db') :
  SettlerWorld.Sound { w with db := db' }
  where
  db := hdb
  phases p := (h.phases p).grow hgrows

/-- A poll changes the database and moves to a phase. -/
theorem SettlerWorld.Sound.change (h : w.Sound) (hdb : db'.Sound) (hgrows : Grows w.db db')
    (hphase : phase.Sound db') :
  SettlerWorld.Sound { w.move p phase with db := db' }
  := by
  use hdb
  intro p'
  by_cases hp : p' = p
  · subst hp
    simp only [SettlerWorld.move, Function.update_self]
    apply hphase
  · simp only [SettlerWorld.move, Function.update_of_ne hp]
    apply (h.phases p').grow hgrows

theorem SettlerWorld.Sound.move (h : w.Sound) (hphase : phase.Sound w.db) :
  (w.move p phase).Sound
  := h.change h.db (Grows.refl w.db) hphase

/-- A query for one side of a match answers. -/
theorem SettlerWorld.Sound.answer (h : w.Sound) {side : Side} (hphase : phase.Sound w.db)
    (hstep : answerStep w p side phase = some w') :
  w'.Sound
  := by
  unfold answerStep at hstep
  split at hstep
  · case h_1 r m b =>
      cases hstep
      apply h.move
      apply Round.routed_sound
      obtain ⟨hr, hm, -, hB⟩ := hphase
      use hr, hm, fun ha => mem_of_isRfqRouted (Option.some.inj ha)
  · case h_2 r m a =>
      cases hstep
      apply h.move
      apply Round.routed_sound
      obtain ⟨hr, hm, hA, -⟩ := hphase
      use hr, hm, hA, fun hb => mem_of_isRfqRouted (Option.some.inj hb)
  · cases hstep
    apply h.move
    apply Round.fetched_sound hphase.1 hphase.2
  · cases hstep
    apply h.move
    apply Round.fetched_sound hphase.1 hphase.2
  · cases hstep

/-- The single query of a poll is run. -/
theorem SettlerWorld.Sound.proceed (h : w.Sound) {id : Uuid} {now : ℕ}
    (hphase : phase.Sound w.db) (hstep : proceedStep w p id now phase = some w') :
  w'.Sound
  := by
  cases phase with
  | idle => cases hstep
  | route r m a b => cases hstep
  | fetch r m a b => cases hstep
  | select r payload =>
      obtain ⟨hr, hm⟩ := hphase
      rw [proceedStep] at hstep
      cases hkey : getByKey r.key w.db.jobs with
      | none =>
          rw [hkey] at hstep
          cases hstep
          apply h.move
          exact ⟨hr, hm⟩
      | some j =>
          rw [hkey] at hstep
          cases hstep
          apply h.move
          apply hr.advance
          intro m' _
          have hj := List.mem_of_find?_eq_some hkey
          have hsame := List.find?_some hkey
          exact .inr (.inr ⟨j, hj, h.db.settlesMatch hj (of_decide_eq_true hsame)⟩)
  | insert r payload =>
      obtain ⟨hr, m, hm, hcarries⟩ := hphase
      rw [proceedStep] at hstep
      split at hstep
      · case h_1 jobs hjob =>
          cases hstep
          obtain ⟨hdb, hfor⟩ := h.db.insertSettle hr hm hcarries hjob
          have hgrows := grows_insertJob hjob
          apply h.change hdb hgrows
          exact ⟨hr.grow hgrows, hfor⟩
      · cases hstep
        apply h.move
        trivial
  | event r jobId =>
      obtain ⟨hr, hfor⟩ := hphase
      cases hstep
      have hsub := List.Subset.refl w.db.intentHashes
      apply h.change (h.db.write hsub w.db.mpcIntents _) (grows_write hsub _ _)
      apply SettlerPhase.Sound.grow _ (grows_write hsub _ _)
      apply hr.advance
      intro m' _
      exact .inr (.inr hfor)
  | update r =>
      obtain ⟨hr, hlength⟩ := hphase
      cases hstep
      have hgrows := @grows_updateSettlementStatus w.db r.batch.batchId r.newStatus
      apply h.change (h.db.updateSettlementStatus hr hlength r.newStatus) hgrows
      apply startBatches_sound
      intro batch hbatch
      apply (hr.rest batch hbatch).grow hgrows

/-- One step. -/
theorem SettlerWorld.Sound.step (h : w.Sound) {action : SettlerAction}
    (hstep : settlerStep action w = some w') :
  w'.Sound
  := by
  cases action with
  | settleOnce p =>
      rw [settlerStep] at hstep
      split at hstep
      · cases hstep
        apply h.move
        apply startBatches_sound
        intro batch hbatch
        apply hasRow_of_mem_pendingBatches hbatch
      · cases hstep
  | answer p side => apply h.answer (h.phases p) hstep
  | proceed p id now => apply h.proceed (h.phases p) hstep
  | raise p =>
      cases hstep
      apply h.move
      trivial
  | insertBatch row =>
      rw [settlerStep] at hstep
      split at hstep
      · case isTrue hrow =>
          cases hstep
          apply h.grow (h.db.insertBatch hrow.1 hrow.2) (grows_insertBatch row)
      · cases hstep
  | insertIntent intentHash =>
      cases hstep
      have hsub := List.subset_append_left w.db.intentHashes [intentHash]
      apply h.grow (h.db.write hsub w.db.mpcIntents w.db.events) (grows_write hsub _ _)
  | writeMpcIntents rows =>
      cases hstep
      have hsub := List.Subset.refl w.db.intentHashes
      apply h.grow (h.db.write hsub rows w.db.events) (grows_write hsub _ _)
  | enqueueOther j =>
      rw [settlerStep] at hstep
      split at hstep
      · case isTrue hother =>
          obtain ⟨jobs, hjob, rfl⟩ := Option.map_eq_some_iff.mp hstep
          apply h.grow (h.db.insertJob hjob _ _) (grows_insertJob hjob)
          · intro htype
            exact absurd htype hother.1
          · intro batchId i hkey
            exact absurd (List.prefix_append _ _) (hother.2 _ hkey)
      · cases hstep
  | work id written =>
      cases hstep
      apply h.grow (h.db.work id written) (grows_work id written)

/-- In every run of any number of polls, interleaved in any way and ended by errors at any of their
queries: batches are determined by their identifiers; there is at most one job for a match of a
batch; every job carries the identifiers and the amount of its match; and if a batch is no longer
pending, every match of it neither side of which has a row in `intents` has a job. -/
theorem settled_once (actions : List SettlerAction) :
  let db := (run settlerStep SettlerWorld.initial actions).db
  (db.batches.map BatchRow.batchId).Nodup
    ∧ (∀ batchId i, (db.jobs.filter fun j => SettlesMatch batchId i j).length ≤ 1)
    ∧ (∀ j ∈ db.jobs, j.jobType = mpcSettleSubmit →
      ∃ row ∈ db.batches, ∃ m payload, j.payload = .mpcSettle payload
        ∧ payload.batchId = row.batchId ∧ row.matchesJson[payload.matchIndex]? = some m
        ∧ payload.intentAId = m.intentAId ∧ payload.intentBId = m.intentBId
        ∧ payload.matchedAmount7dp = m.matchedAmount7dp)
    ∧ ∀ row ∈ db.batches, row.settlementStatus ≠ .pending →
      ∀ i m, row.matchesJson[i]? = some m → m.intentAId ∉ db.intentHashes →
        m.intentBId ∉ db.intentHashes → ∃ j ∈ db.jobs, SettlesMatch row.batchId i j
  := by
  have h : (run settlerStep SettlerWorld.initial actions).Sound :=
    invariant_run_of_step (fun w action w' (hw : w.Sound) hstep => hw.step hstep) actions
      SettlerWorld.initial_sound
  use h.db.batchIds, h.db.one_job
  constructor
  · intro j hj htype
    obtain ⟨row, hrow, i, m, payload, hm, hpayload, hcarries, -⟩ := h.db.faithful j hj htype
    use row, hrow, m, payload, hpayload, hcarries.batchId_eq
    rw [hcarries.matchIndex_eq]
    use hm, hcarries.intentAId_eq, hcarries.intentBId_eq, hcarries.amount_eq
  · intro row hrow hstatus i m hm hA hB
    rcases h.db.done row hrow hstatus i m hm with hA' | hB' | hjob
    · contradiction
    · contradiction
    · apply hjob

end Shade.Committee
