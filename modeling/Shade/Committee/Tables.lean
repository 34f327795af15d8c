import Shade.Committee.Batch
import Shade.Library.Script
import Shade.Library.Table

/-!
# The tables of the committee

The rows in which the committee keeps its sessions, intents and signed batches, and the statements
with which a signed batch is written, which are run one after the other. Columns that are neither
read nor written there or by the settler are left out, as is the time at which a row was changed.
-/

namespace Shade.Committee

open Text Table

/-! ### Rows -/

/-- The signature of a node under the hash of a batch. -/
structure NodeSignature where
  nodeId : Text
  signingPubkey : Text
  signature : Text
deriving DecidableEq

/-- A batch with the signatures of the nodes. The hash is written in hexadecimal. -/
structure SignedMatchBatch where
  batchId : Text
  sessionId : Text
  matchList : List MatchResult
  batchHash : Text
  signatures : List NodeSignature
deriving DecidableEq

/-- How far the settlement of a batch has come. -/
inductive SettlementStatus where
  | pending
  | queued
  | rfqRouted
  | settled
  | failed
deriving DecidableEq

/-- A row of the table `mpc_batches`. -/
structure BatchRow where
  batchId : Text
  sessionId : Text
  batchHash : Text
  matchCount : ℕ
  matchesJson : List MatchResult
  signaturesJson : List NodeSignature
  settlementStatus : SettlementStatus
  createdAt : ℕ
deriving DecidableEq

/-- A row of the table `mpc_batch_signatures`. -/
structure BatchSignatureRow where
  batchId : Text
  nodeId : Text
  signingPubkey : Text
  signature : Text
deriving DecidableEq

/-- The status of a session. -/
inductive SessionStatus where
  | opened
  | matching
  | signed
  | failed
deriving DecidableEq

/-- A row of the table `mpc_sessions`. -/
structure SessionRow where
  sessionId : Text
  status : SessionStatus
  matchCount : ℕ
  closedAt : Option ℕ
deriving DecidableEq

/-- The status of an intent. -/
inductive IntentStatus where
  | pending
  | matched
  | unmatched
  | expired
deriving DecidableEq

/-- A row of the table `mpc_intents`. -/
structure IntentRow where
  intentId : Text
  sessionId : Text
  noteNullifier : Text
  noteCommitment : Text
  recipientCommitment : Text
  status : IntentStatus
  matchedWith : Option Text
deriving DecidableEq

/-- The tables. -/
structure Tables where
  batches : List BatchRow
  batchSignatures : List BatchSignatureRow
  sessions : List SessionRow
  intents : List IntentRow
deriving DecidableEq

/-! ### Statements

The database tells a statement the time. A statement fails if a row would refer to a row that is
not there. -/

/-- The row of a batch that is inserted at some time. -/
def batchRow (sessionId : Text) (batch : SignedMatchBatch) (now : ℕ) : BatchRow where
  batchId := batch.batchId
  sessionId := sessionId
  batchHash := batch.batchHash
  matchCount := batch.matchList.length
  matchesJson := batch.matchList
  signaturesJson := batch.signatures
  settlementStatus := .pending
  createdAt := now

/-- The row of a signature under a batch. -/
def signatureRow (batchId : Text) (sig : NodeSignature) : BatchSignatureRow where
  batchId := batchId
  nodeId := sig.nodeId
  signingPubkey := sig.signingPubkey
  signature := sig.signature

/-- Insert the row of a batch, unless there is one. -/
def insertBatch (sessionId : Text) (batch : SignedMatchBatch) : Script.Statement ℕ Tables :=
  fun now db =>
    if (∃ row ∈ db.batches, row.batchId = batch.batchId) then some db
    else if (∃ row ∈ db.sessions, row.sessionId = sessionId) then
      some { db with batches := db.batches ++ [batchRow sessionId batch now] }
    else none

/-- Insert the row of a signature, unless there is one of the same node. -/
def insertBatchSignature (batchId : Text) (sig : NodeSignature) : Script.Statement ℕ Tables :=
  fun _ db =>
    if (∃ row ∈ db.batchSignatures, row.batchId = batchId ∧ row.nodeId = sig.nodeId) then some db
    else if (∃ row ∈ db.batches, row.batchId = batchId) then
      some { db with batchSignatures := db.batchSignatures ++ [signatureRow batchId sig] }
    else none

/-- Write that a session is signed. -/
def updateSession (sessionId : Text) (matchCount : ℕ) : Script.Statement ℕ Tables :=
  fun now db =>
    some
      { db with
        sessions := updateWhere (fun row : SessionRow => row.sessionId = sessionId)
          (fun row =>
            { row with status := .signed, matchCount := matchCount, closedAt := some now })
          db.sessions }

/-- Write that an intent is matched with another one. -/
def updateIntent (intentId matchedWith : Text) : Script.Statement ℕ Tables :=
  fun _ db =>
    if (∃ row ∈ db.intents, row.intentId = intentId)
        ∧ ¬ ∃ row ∈ db.intents, row.intentId = matchedWith then
      none
    else
      some
        { db with
          intents := updateWhere (fun row : IntentRow => row.intentId = intentId)
            (fun row => { row with status := .matched, matchedWith := some matchedWith })
            db.intents }

/-- The statements that write the signatures of a batch. -/
def signatureStatements (batch : SignedMatchBatch) : List (Script.Statement ℕ Tables) :=
  batch.signatures.map (insertBatchSignature batch.batchId)

/-- The statements that write which intents are matched. -/
def intentStatements (batch : SignedMatchBatch) : List (Script.Statement ℕ Tables) :=
  batch.matchList.flatMap fun m =>
    [updateIntent m.intentAId m.intentBId, updateIntent m.intentBId m.intentAId]

/-- The statements that write a signed batch, in order. -/
def persistStatements (sessionId : Text) (batch : SignedMatchBatch) :
    List (Script.Statement ℕ Tables) :=
  insertBatch sessionId batch :: signatureStatements batch
    ++ updateSession sessionId batch.matchList.length :: intentStatements batch

/-- Write a signed batch. The database answers the statement with number `k` with the time
`answers k`, or raises an error. -/
def persistSignedBatch (answers : ℕ → Option ℕ) (sessionId : Text) (batch : SignedMatchBatch)
    (db : Tables) : Script.Outcome Tables :=
  Script.execute answers 0 (persistStatements sessionId batch) db

end Shade.Committee
