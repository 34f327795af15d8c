import Shade.Committee.Settler
import Shade.Committee.Signing
import Shade.Proving.Settlement
import Shade.Pool.Run

/-!
# The jobs that settle matches

What the relayer does with a job of the settler before it calls the pool: it fetches the matches of
the batch, pins the committee to the one on the chain, verifies the signatures, tries to prove the
settlement if the job names the coins, and gives up without notes or without a proof, unless it is
told to submit without one. What it asks others for is a parameter. The arguments of the call are
texts, which the command line reads.

At the end the settler and the relayer work side by side, with the pool that is called by others as
well.
-/

namespace Shade.Relayer

open Committee Proving Pool Text Solver

/-- The payload of a job, with the fields that the relayer looks for and the settler does not
write. -/
structure SettleJob where
  payload : SettlePayload
  coinAPath : Option Text
  coinBPath : Option Text
  assocPath : Option Text
  scope : Option Text
  poolId : Option Text
  chainId : Option Text
  deadlineLedger : Option Text

/-- The job as the settler queues it. -/
def SettleJob.ofPayload (payload : SettlePayload) : SettleJob :=
  ⟨payload, none, none, none, none, none, none, none⟩

/-- The environment of the relayer. -/
structure RelayerEnv where
  pool : Option Text
  relayerSecret : Option Text
  poolScope : Option Text
  unsafeProofless : Bool

/-- A proof of a settlement, and its public signals. -/
structure SettleProof where
  proofHex : Text
  publicHex : Text

/-- What the relayer asks others for: the matches of the batch (the database may fail or have no
row), the committee of the pool, the coins, the leaves of the pool, a proof, and the new root. -/
structure Outside where
  matchesJson : Option (Option (List MatchResult))
  getCommittee : Except String (List Text)
  coinFile : Text → Except String GeneratedCoin
  noteCommitments : Option (List Text)
  buildMpcSettlementProof : MpcSettlementParams → Except String SettleProof
  computeMpcRoot : Text → Text → Except String Text

/-- A match as the relayer copies it: without the fields that are only set across assets. -/
def stripMatch (m : MatchResult) : MatchResult :=
  { m with priceScaled := none, assetIn := none, assetOut := none }

/-- The matches of the batch, or the one of the job if there are none. -/
def batchMatches (o : Outside) (p : SettlePayload) : List MatchResult :=
  let fetched := match o.matchesJson with
    | some (some matchList) => matchList.map stripMatch
    | _ => []
  if fetched = [] ∧ p.intentAId ≠ [] ∧ p.intentBId ≠ [] then
    [⟨p.intentAId, p.intentBId, p.matchedAmount7dp, p.inputAsset, p.outputAsset, none, none, none⟩]
  else
    fetched

/-- A text that is there and not empty. -/
def given (t : Option Text) : Option Text := t.filter (· ≠ [])

/-- Commitments that are written in hexadecimal, in decimal; none if one is no number. -/
def toDecimal (commitments : List Text) : Option (List Text) :=
  commitments.mapM fun c => (bigIntOfHex (strip0x c)).map fun n => decimal n

/-- Try to prove the settlement, if the job names the files. All errors are caught. -/
def proveSettlement (env : RelayerEnv) (o : Outside) (job : SettleJob) : Option SettleProof := do
  let coinAPath ← given job.coinAPath
  let coinBPath ← given job.coinBPath
  let assocPath ← given job.assocPath
  let coinA ← (o.coinFile coinAPath).toOption
  let coinB ← (o.coinFile coinBPath).toOption
  let params : MpcSettlementParams :=
    { coinA, coinB
      commitmentsDecimal := (o.noteCommitments.bind toDecimal).getD []
      assocPath
      scope := (job.scope.orElse fun _ => env.poolScope).getD "shade-pool-testnet-v1".toList
      batchHashHex := job.payload.batchHash
      poolId := job.poolId.getD "0".toList
      chainId := job.chainId.getD "27".toList
      matchedAmount7dp := job.payload.matchedAmount7dp
      deadlineLedger := job.deadlineLedger.getD "0".toList }
  (o.buildMpcSettlementProof params).toOption

/-- The arguments of the call, as they stand on the command line. -/
structure SubmitArgs where
  nullifierA : Text
  nullifierB : Text
  outputCommitmentA : Text
  outputCommitmentB : Text
  newRoot : Text
  batchHash : Text
  signerPubkeys : List Text
  signatures : List Text
  proofBytes : Option Text
  pubSignalsBytes : Option Text

section

variable (nacl : NaclSign) (sha256 : Bytes → Word)

/-- The committee of the pool, by its keys alone. -/
def pinnedCommittee (o : Outside) (batchId : Text) : Except String (List NodePublicInfo) :=
  let failed (e : String) := "MPC batch " ++ String.ofList batchId
    ++ ": failed to pin committee from pool.get_committee(): " ++ e
  match o.getCommittee with
  | .error e => .error (failed e)
  | .ok [] =>
      .error (failed "on-chain committee is empty — call pool.set_committee() first")
  | .ok (pk :: pks) =>
      .ok ((pk :: pks).mapIdx fun i pk => ⟨"chain-".toList ++ decimal (i : ℕ), [], toLower pk⟩)

/-- Work on a job, up to the call of the pool. -/
def processSettleJob (env : RelayerEnv) (o : Outside) (job : SettleJob) :
    Except String SubmitArgs := do
  let p := job.payload
  let batch : SignedMatchBatch :=
    { batchId := p.batchId
      sessionId := p.sessionId
      matchList := batchMatches o p
      batchHash := p.batchHash
      signatures := p.signatures }
  if given env.pool = none ∨ given env.relayerSecret = none then
    throw ("MPC_SETTLE_SUBMIT missing SHIELDED_POOL_CONTRACT / STELLAR_RELAYER_SECRET to pin "
      ++ "on-chain committee")
  let committee ← pinnedCommittee o p.batchId
  match verifySignedBatch nacl sha256 batch committee with
  | none => throw "bad signature size"
  | some false =>
      throw ("MPC batch " ++ String.ofList p.batchId ++ ": signature verification failed ("
        ++ String.ofList (decimal (p.signatures.length : ℕ)) ++ " sigs, need ≥2/3)")
  | some true =>
      let proof := proveSettlement env o job
      match given p.nullifierA, given p.nullifierB, given p.outputCommitmentA,
        given p.outputCommitmentB with
      | some nullifierA, some nullifierB, some outCommitA, some outCommitB =>
          let zkProofHex := given (proof.map SettleProof.proofHex)
          let zkPublicHex := given (proof.map SettleProof.publicHex)
          if (zkProofHex = none ∨ zkPublicHex = none) ∧ env.unsafeProofless = false then
            throw ("mpc_settlement proof generation failed or circuit artifacts missing; refusing "
              ++ "to submit proofless mpc_settle (build circuits/mpc_settlement and supply "
              ++ "coin/assoc witness paths; ENABLE_UNSAFE_PROOFLESS_MPC_SETTLE is dev-only and must "
              ++ "never be used in E2E acceptance)")
          let newRoot ← o.computeMpcRoot outCommitA outCommitB
          return {
            nullifierA := strip0x nullifierA
            nullifierB := strip0x nullifierB
            outputCommitmentA := strip0x outCommitA
            outputCommitmentB := strip0x outCommitB
            newRoot
            batchHash := strip0x p.batchHash
            signerPubkeys := p.signatures.map fun s => strip0x s.signingPubkey
            signatures := p.signatures.map fun s => strip0x s.signature
            proofBytes := zkProofHex
            pubSignalsBytes := zkPublicHex }
      | _, _, _, _ =>
          throw ("MPC batch " ++ String.ofList p.batchId ++ " match["
            ++ String.ofList (decimal (p.matchIndex : ℕ))
            ++ "]: note data missing from DB — intent not submitted through API")

end

/-! ### The command line -/

/-- A signature of 64 bytes on the command line. -/
def readSignature (t : Text) : Option Signature :=
  if t.length = 128 ∧ t.all isHex = true then some (BitVec.ofNat 512 (ofHex t)) else none

/-- Bytes on the command line, which may be missing. -/
def readBytes : Option Text → Option (Option Bytes)
  | none => some none
  | some t => if t.length % 2 = 0 ∧ t.all isHex = true then some (some (fromHex t)) else none

/-- The arguments of the pool, if the command line can read the texts. -/
def SubmitArgs.read (a : SubmitArgs) : Option MpcArgs := do
  let nullifierA ← readWord a.nullifierA
  let nullifierB ← readWord a.nullifierB
  let outputCommitmentA ← readWord a.outputCommitmentA
  let outputCommitmentB ← readWord a.outputCommitmentB
  let newRoot ← readWord a.newRoot
  let batchHash ← readWord a.batchHash
  let signerPubkeys ← a.signerPubkeys.mapM readWord
  let signatures ← a.signatures.mapM readSignature
  let proofBytes ← readBytes a.proofBytes
  let pubSignalsBytes ← readBytes a.pubSignalsBytes
  return {
    nullifierA, nullifierB, outputCommitmentA, outputCommitmentB, newRoot, batchHash
    signerPubkeys, signatures, proofBytes, pubSignalsBytes }

/-! ### The settler, the relayer and the pool -/

/-- The database with the settler, the pool, and the settlements of the relayer that succeeded. -/
structure Pipeline where
  settler : SettlerWorld
  world : World
  settled : List MpcArgs

/-- The settler takes a step, the relayer works on a job in some environment, or the pool is called
by somebody else. -/
inductive PipelineAction where
  | settler (a : SettlerAction)
  | relay (id : Queue.Uuid) (env : RelayerEnv) (o : Outside) (tx : Tx)
  | pool (a : Action)

/-- One step. A job that is not there, fails, or whose call is refused changes nothing. -/
def pipelineStep (nacl : NaclSign) (sha256 : Bytes → Word) (host : Host) :
    PipelineAction → Pipeline → Option Pipeline
  | .settler a, s => (settlerStep a s.settler).map fun w => { s with settler := w }
  | .pool a, s => (step host a s.world).map fun w => { s with world := w }
  | .relay id env o tx, s => do
      let job ← Queue.getJob id s.settler.db.jobs
      match job.payload with
      | .other _ => none
      | .mpcSettle payload =>
          let submitted ← (processSettleJob nacl sha256 env o (.ofPayload payload)).toOption
          let args ← submitted.read
          let w ← step host (.call tx (.mpcSettle args)) s.world
          return { s with world := w, settled := s.settled ++ [args] }

end Shade.Relayer
