import Shade.Committee.Tables
import Shade.Library.Machine
import Shade.Queue.Jobs

/-!
# The settler

The settler polls the signed batches that are pending, and enqueues a job for each match of theirs
that is not settled otherwise. Any number of polls run at the same time, on one database, and each
of their queries is a step by itself: what a poll has read may have changed when it writes. A query
may raise an error, which ends the poll. Between the steps of the polls others add batches and
intents, and workers and other services use the queue.
-/

namespace Shade.Committee

open Text Table Queue

/-! ### The database -/

/-- The payload of a job that settles a match. -/
structure SettlePayload where
  batchId : Text
  batchHash : Text
  signatures : List NodeSignature
  matchIndex : ℕ
  sessionId : Text
  intentAId : Text
  intentBId : Text
  matchedAmount7dp : Text
  inputAsset : Text
  outputAsset : Text
  nullifierA : Option Text
  nullifierB : Option Text
  outputCommitmentA : Option Text
  outputCommitmentB : Option Text
deriving DecidableEq

/-- The payload of a job. Those of other services are not looked into. -/
inductive JobPayload where
  | mpcSettle (payload : SettlePayload)
  | other (payload : Text)
deriving DecidableEq

/-- The tables that the settler works on. Of the table `intents` only the hashes are read. -/
structure SettlerDb where
  batches : List BatchRow
  mpcIntents : List IntentRow
  intentHashes : List Text
  jobs : List (Job JobPayload)
  events : List Event

/-- The type of the jobs that settle matches. -/
def mpcSettleSubmit : Text := "MPC_SETTLE_SUBMIT".toList

/-- What the idempotency keys of these jobs begin with. -/
def settlePrefix : Text := "mpc_settle:".toList

/-- The idempotency key of the job for a match. -/
def settleKey (batchId : Text) (i : ℕ) : Text :=
  settlePrefix ++ (batchId ++ ':' :: Nat.toDigits 10 i)

/-- The job is the one for a match of a batch, by what its payload says. -/
def SettlesMatch (batchId : Text) (i : ℕ) (j : Job JobPayload) : Prop :=
  j.jobType = mpcSettleSubmit ∧
    match j.payload with
    | .mpcSettle p => p.batchId = batchId ∧ p.matchIndex = i
    | .other _ => False

instance (batchId : Text) (i : ℕ) (j : Job JobPayload) : Decidable (SettlesMatch batchId i j) := by
  unfold SettlesMatch
  cases j.payload <;> infer_instance

/-! ### Queries -/

/-- At most 50 batches that are pending, the oldest first. -/
def pendingBatches (batches : List BatchRow) : List BatchRow :=
  ((batches.filter fun row => row.settlementStatus = .pending).insertionSort
    fun row row' => row.createdAt ≤ row'.createdAt).take 50

/-- The intent has a row in the table `intents`. -/
def isRfqRouted (intentId : Text) (db : SettlerDb) : Bool :=
  db.intentHashes.any fun hash => hash = intentId

/-- The row of an intent in the table `mpc_intents`. -/
def fetchIntentNote (intentId : Text) (db : SettlerDb) : Option IntentRow :=
  db.mpcIntents.find? fun row => row.intentId = intentId

/-- Write the status of a batch. -/
def updateSettlementStatus (batchId : Text) (status : SettlementStatus) :
    List BatchRow → List BatchRow :=
  updateWhere (fun row : BatchRow => row.batchId = batchId)
    fun row => { row with settlementStatus := status }

/-! ### A poll -/

/-- The batch that a poll works on, the batches that remain, the index of the match, and how many
jobs have been enqueued for the batch. -/
structure Round where
  batch : BatchRow
  rest : List BatchRow
  index : ℕ
  queued : ℕ

/-- Where a poll is: it asks where the intents of a match are routed, fetches their notes, looks
for the job, inserts it, inserts an event, or writes the status of the batch. The queries for the
two sides of a match run at the same time, and have answered or not. -/
inductive SettlerPhase where
  | idle
  | route (r : Round) (m : MatchResult) (a b : Option Bool)
  | fetch (r : Round) (m : MatchResult) (a b : Option (Option IntentRow))
  | select (r : Round) (payload : SettlePayload)
  | insert (r : Round) (payload : SettlePayload)
  | event (r : Round) (jobId : Uuid)
  | update (r : Round)

namespace Round

variable (r : Round)

/-- The head of the loop over the matches. -/
def loop : SettlerPhase :=
  match r.batch.matchesJson[r.index]? with
  | some m => .route r m none none
  | none => .update r

/-- Go on with the next match, having enqueued some jobs. -/
def advance (queued : ℕ) : SettlerPhase :=
  loop { r with index := r.index + 1, queued := queued }

/-- The payload of the job for a match. -/
def payload (m : MatchResult) (noteA noteB : Option IntentRow) : SettlePayload where
  batchId := r.batch.batchId
  batchHash := r.batch.batchHash
  signatures := r.batch.signaturesJson
  matchIndex := r.index
  sessionId := r.batch.sessionId
  intentAId := m.intentAId
  intentBId := m.intentBId
  matchedAmount7dp := m.matchedAmount7dp
  inputAsset := m.inputAsset
  outputAsset := m.outputAsset
  nullifierA := noteA.map IntentRow.noteNullifier
  nullifierB := noteB.map IntentRow.noteNullifier
  outputCommitmentA := noteA.map IntentRow.recipientCommitment
  outputCommitmentB := noteB.map IntentRow.recipientCommitment

/-- The match is skipped if one side is routed elsewhere. -/
def routed (m : MatchResult) : Option Bool → Option Bool → SettlerPhase
  | some a, some b => if a || b then r.advance r.queued else .fetch r m none none
  | a, b => .route r m a b

/-- The job is enqueued when both notes are fetched. -/
def fetched (m : MatchResult) : Option (Option IntentRow) → Option (Option IntentRow) →
    SettlerPhase
  | some noteA, some noteB => .select r (r.payload m noteA noteB)
  | a, b => .fetch r m a b

/-- The idempotency key of the job for the match. -/
def key : Text := settleKey r.batch.batchId r.index

/-- The status of a batch all of whose matches are done. -/
def newStatus : SettlementStatus := if 0 < r.queued then .queued else .rfqRouted

end Round

/-- Work on batches one after the other. -/
def startBatches : List BatchRow → SettlerPhase
  | [] => .idle
  | batch :: rest => Round.loop ⟨batch, rest, 0, 0⟩

/-! ### All polls together -/

/-- The database and the polls. -/
structure SettlerWorld where
  db : SettlerDb
  phases : ℕ → SettlerPhase

/-- Nothing has happened yet. -/
def SettlerWorld.initial : SettlerWorld where
  db := ⟨[], [], [], [], []⟩
  phases := fun _ => .idle

/-- A poll moves to a phase. -/
def SettlerWorld.move (w : SettlerWorld) (p : ℕ) (phase : SettlerPhase) : SettlerWorld :=
  { w with phases := Function.update w.phases p phase }

/-- A side of a match. -/
inductive Side where
  | a
  | b
deriving DecidableEq

/-- What happens next. -/
inductive SettlerAction where
  | settleOnce (p : ℕ)
  | answer (p : ℕ) (side : Side)
  | proceed (p : ℕ) (id : Uuid) (now : ℕ)
  | raise (p : ℕ)
  | insertBatch (row : BatchRow)
  | insertIntent (intentHash : Text)
  | writeMpcIntents (rows : List IntentRow)
  | enqueueOther (j : Job JobPayload)
  | work (id : Uuid) (written : Job JobPayload)

/-- What workers write to a job. -/
def Worked (written j : Job JobPayload) : Job JobPayload :=
  { j with
    status := written.status
    attempts := written.attempts
    result := written.result
    error := written.error
    claimedAt := written.claimedAt
    availableAt := written.availableAt
    updatedAt := written.updatedAt }

/-- The query for one side of a match answers. -/
def answerStep (w : SettlerWorld) (p : ℕ) : Side → SettlerPhase → Option SettlerWorld
  | .a, .route r m none b =>
      some (w.move p (r.routed m (some (isRfqRouted m.intentAId w.db)) b))
  | .b, .route r m a none =>
      some (w.move p (r.routed m a (some (isRfqRouted m.intentBId w.db))))
  | .a, .fetch r m none b =>
      some (w.move p (r.fetched m (some (fetchIntentNote m.intentAId w.db)) b))
  | .b, .fetch r m a none =>
      some (w.move p (r.fetched m a (some (fetchIntentNote m.intentBId w.db))))
  | _, _ => none

/-- The single query of a poll is run. The database makes the key `id` for a row that is inserted.
An insertion that violates a unique key raises an error. -/
def proceedStep (w : SettlerWorld) (p : ℕ) (id : Uuid) (now : ℕ) :
    SettlerPhase → Option SettlerWorld
  | .select r payload =>
      match getByKey r.key w.db.jobs with
      | some _ => some (w.move p (r.advance (r.queued + 1)))
      | none => some (w.move p (.insert r payload))
  | .insert r payload =>
      match insertJob
          (newJob id .relayer mpcSettleSubmit (.mpcSettle payload) (some r.key) now) w.db.jobs with
      | some jobs => some { w.move p (.event r id) with db := { w.db with jobs := jobs } }
      | none => some (w.move p .idle)
  | .event r jobId =>
      some
        { w.move p (r.advance (r.queued + 1)) with
          db :=
            { w.db with
              events := w.db.events ++
                [⟨jobId, .queued, some (codeUnits ("enqueued ".toList ++ mpcSettleSubmit))⟩] } }
  | .update r =>
      some
        { w.move p (startBatches r.rest) with
          db :=
            { w.db with
              batches := updateSettlementStatus r.batch.batchId r.newStatus w.db.batches } }
  | _ => none

/-- One step. -/
def settlerStep : SettlerAction → SettlerWorld → Option SettlerWorld
  | .settleOnce p, w =>
      match w.phases p with
      | .idle => some (w.move p (startBatches (pendingBatches w.db.batches)))
      | _ => none
  | .answer p side, w => answerStep w p side (w.phases p)
  | .proceed p id now, w => proceedStep w p id now (w.phases p)
  | .raise p, w => some (w.move p .idle)
  | .insertBatch row, w =>
      if row.settlementStatus = .pending ∧ ¬ ∃ row' ∈ w.db.batches, row'.batchId = row.batchId then
        some { w with db := { w.db with batches := w.db.batches ++ [row] } }
      else none
  | .insertIntent intentHash, w =>
      some { w with db := { w.db with intentHashes := w.db.intentHashes ++ [intentHash] } }
  | .writeMpcIntents rows, w => some { w with db := { w.db with mpcIntents := rows } }
  | .enqueueOther j, w =>
      if j.jobType ≠ mpcSettleSubmit
          ∧ ∀ key, j.idempotencyKey = some key → ¬ settlePrefix <+: key then
        (insertJob j w.db.jobs).map fun jobs => { w with db := { w.db with jobs := jobs } }
      else none
  | .work id written, w =>
      some { w with db := { w.db with jobs := updateJob id (Worked written) w.db.jobs } }

end Shade.Committee
