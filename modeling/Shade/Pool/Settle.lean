import Shade.Pool.Internal

/-!
# Transfers and committee settlements

The entry points that replace notes by notes: `privateTransferSettle` spends a note and
creates one, `mpcSettle` and `mpcSettlePriced` spend two notes matched by the committee and
create two. No tokens move.
-/

namespace Shade.Pool

open Txn

structure TransferArgs where
  proofBytes : Bytes
  pubSignalsBytes : Bytes
  newRoot : Word
deriving DecidableEq

/-- The arguments of `mpcSettle` and of `mpcSettlePriced`. -/
structure MpcArgs where
  nullifierA : Word
  nullifierB : Word
  outputCommitmentA : Word
  outputCommitmentB : Word
  newRoot : Word
  batchHash : Word
  signerPubkeys : List Word
  signatures : List Signature
  proofBytes : Option Bytes
  pubSignalsBytes : Option Bytes
deriving DecidableEq

section

variable (host : Host) (tx : Tx)

/-- Spend a note and insert the note the proof creates in its place. -/
def privateTransferSettle (args : TransferArgs) : Exec Unit := do
  requireNotPaused
  requireAdmin tx
  let signals ← parseSignals args.pubSignalsBytes
  let nullifierHash ← signal signals 0
  let outputCommitment ← signal signals 1
  let stateRoot ← signal signals 3
  let assocIn ← signal signals 4
  require (assocIn = (← read (·.pool.getAssociationRoot))) (panicErr .wrongAssociation)
  let poolIn ← signal signals 5
  let chainIn ← signal signals 6
  requireDomain poolIn chainIn
  requireKnownRoot stateRoot
  let verifier ← unwrap (← read (·.pool.xverifier)) (.fault .unwrap)
  requireProof host verifier args.proofBytes args.pubSignalsBytes .proofInvalid
  spendNullifier host tx nullifierHash
  let leafIndex ← countLeaves 1
  let computedRoot ← appendLeaf host outputCommitment
  require (args.newRoot = computedRoot) (panicErr .rootMismatch)
  write (·.emit (.xfer nullifierHash outputCommitment leafIndex computedRoot))

/-- Abort unless the first four signals are the nullifiers and commitments of the call. -/
def bindSignals (signals : List Word) (args : MpcArgs) : Exec Unit := do
  require ((← signal signals 0) = args.nullifierA) (panicErr .mpcSignalMismatch)
  require ((← signal signals 1) = args.nullifierB) (panicErr .mpcSignalMismatch)
  require ((← signal signals 2) = args.outputCommitmentA) (panicErr .mpcSignalMismatch)
  require ((← signal signals 3) = args.outputCommitmentB) (panicErr .mpcSignalMismatch)

/-- Abort unless a root is the association root that is configured. -/
def requireAssociation (assocRoot : Word) : Exec Unit := do
  let canonical ← unwrap (← read (·.pool.assocRoot)) (panicErr .wrongAssociation)
  require (assocRoot = canonical) (panicErr .wrongAssociation)

/-- Append both created notes and abort unless this gives the root of the call. -/
def appendOutputs (args : MpcArgs) : Exec Word := do
  let _ ← countLeaves 2
  let _ ← appendLeaf host args.outputCommitmentA
  let computedRoot ← appendLeaf host args.outputCommitmentB
  require (args.newRoot = computedRoot) (panicErr .rootMismatch)
  pure computedRoot

/-- Settle one match of a batch the committee signed. -/
def mpcSettle (args : MpcArgs) : Exec Unit := do
  requireNotPaused
  verifyCommitteeThreshold host args.batchHash args.signerPubkeys args.signatures
  let mpcVerifier ← unwrap (← read (·.pool.mpcVerifier)) (panicErr .mpcProofInvalid)
  let pb ← unwrap args.proofBytes (panicErr .mpcProofInvalid)
  let sb ← unwrap args.pubSignalsBytes (panicErr .mpcProofInvalid)
  requireProof host mpcVerifier pb sb .mpcProofInvalid
  let signals ← parseSignals sb
  bindSignals signals args
  requireKnownRoot (← signal signals 4)
  requireAssociation (← signal signals 5)
  require ((← signal signals 6) = hashToField args.batchHash) (panicErr .mpcSignalMismatch)
  let poolIn ← signal signals 7
  let chainIn ← signal signals 8
  requireDomain poolIn chainIn
  let deadlineLedger := fr32ToI128 (← signal signals 10)
  require ((← read (·.sequence)) ≤ deadlineLedger.val) (panicErr .expired)
  spendNullifier host tx args.nullifierA
  spendNullifier host tx args.nullifierB
  let computedRoot ← appendOutputs host args
  write (·.emit (.mpc args.batchHash args.nullifierA args.nullifierB args.outputCommitmentA
    args.outputCommitmentB computedRoot))

/-- Settle one match across two assets of a batch the committee signed. -/
def mpcSettlePriced (args : MpcArgs) : Exec Unit := do
  requireNotPaused
  verifyCommitteeThreshold host args.batchHash args.signerPubkeys args.signatures
  let pverifier ← unwrap (← read (·.pool.mpcPverifier)) (panicErr .mpcProofInvalid)
  let pb ← unwrap args.proofBytes (panicErr .mpcProofInvalid)
  let sb ← unwrap args.pubSignalsBytes (panicErr .mpcProofInvalid)
  requireProof host pverifier pb sb .mpcProofInvalid
  let signals ← parseSignals sb
  bindSignals signals args
  requireKnownRoot (← signal signals 4)
  requireAssociation (← signal signals 5)
  require ((← signal signals 6) = hashToField args.batchHash) (panicErr .mpcSignalMismatch)
  let poolId ← read (·.pool.poolId)
  let chainId ← read (·.pool.chainId)
  require ((fr32ToI128 (← signal signals 7)).val = poolId.toNat) (panicErr .wrongDomain)
  require ((fr32ToI128 (← signal signals 8)).val = chainId.toNat) (panicErr .wrongDomain)
  require ((← read (·.sequence)) ≤ (fr32ToI128 (← signal signals 9)).val) (panicErr .expired)
  let inputA ← signal signals 10
  let inputB ← signal signals 12
  require (inputA ≠ inputB) (panicErr .notCrossAsset)
  let _ ← getAssetToken inputA
  let _ ← getAssetToken inputB
  let matchedA := fr32ToI128 (← signal signals 14)
  let matchedB := fr32ToI128 (← signal signals 15)
  spendNullifier host tx args.nullifierA
  spendNullifier host tx args.nullifierB
  require (0 < matchedA.val ∧ 0 < matchedB.val) (panicErr .badAmount)
  let computedRoot ← appendOutputs host args
  write (·.emit (.mpcprice args.batchHash args.nullifierA args.nullifierB args.outputCommitmentA
    args.outputCommitmentB computedRoot))

end

/-! ### What it means that a settlement was accepted -/

variable {host : Host} {tx : Tx} {w w' : World}

/-- An accepted transfer: it spends the nullifier of its proof and appends the commitment
its proof creates. -/
structure Transfer (host : Host) (w : World) (args : TransferArgs) where
  signals : List Word
  parsed : parsePublicSignals args.pubSignalsBytes = some signals
  domain : w.pool.MatchesDomain (signals.getD 5 0) (signals.getD 6 0)
  known : w.pool.isKnownRoot (signals.getD 3 0) = true
  verifier : Address
  verifier_eq : w.pool.xverifier = some verifier
  verified : host.verify verifier args.proofBytes args.pubSignalsBytes = some true
  admitted : w.registry.Admits host.self (signals.getD 0 0)
  root : Word
  root_eq :
    appendRoot host.poseidon w.pool.treeDepth w.pool.treeLeaves (signals.getD 1 0) = .ok root
  newRoot_eq : args.newRoot = root

/-- The world an accepted transfer leads to. -/
def Transfer.world {args : TransferArgs} (x : Transfer host w args) : World :=
  (((w.spend (x.signals.getD 0 0)).mapPool
    fun s => { s with leafCount := w.pool.leafCount + 1 }).appendLeaf
      (x.signals.getD 1 0) x.root).emit
        (.xfer (x.signals.getD 0 0) (x.signals.getD 1 0) w.pool.leafCount x.root)

theorem privateTransferSettle_ok {args : TransferArgs} {u : Unit}
    (h : (privateTransferSettle host tx args).run w = .ok (u, w')) :
  ∃ x : Transfer host w args, w' = x.world
  := by
  simp only [privateTransferSettle, requireNotPaused_bind_ok, requireAdmin_bind_ok,
    parseSignals_bind_ok, signal_bind_ok, require_bind_ok, read_bind_ok, requireDomain_bind_ok,
    requireKnownRoot_bind_ok, unwrap_bind_ok, requireProof_bind_ok, spendNullifier_bind_ok,
    countLeaves_bind_ok, appendLeaf_bind_ok, write_ok] at h
  obtain ⟨-, -, signals, hparse, -, -, -, -, -, -, -, hdomain, hknown, verifier, hverifier,
    hverify, hfresh, -, root, hroot, hnewRoot, hw'⟩ := h
  exact ⟨⟨signals, hparse, hdomain, hknown, verifier, hverifier, hverify, hfresh, root, hroot,
    hnewRoot⟩, hw'⟩

theorem bindSignals_bind_ok {β : Type} {b : β} {signals : List Word} {args : MpcArgs}
    {f : Unit → Exec β} :
  (bindSignals signals args >>= f).run w = .ok (b, w')
    ↔ 3 < signals.length ∧ signals.getD 0 0 = args.nullifierA
      ∧ signals.getD 1 0 = args.nullifierB ∧ signals.getD 2 0 = args.outputCommitmentA
      ∧ signals.getD 3 0 = args.outputCommitmentB ∧ (f ()).run w = .ok (b, w')
  := by
  simp only [bindSignals, bind_assoc, signal_bind_ok, require_bind_ok]
  constructor
  · rintro ⟨-, hA, -, hB, -, hcA, hlen, hcB, hf⟩
    use hlen, hA, hB, hcA, hcB, hf
  · rintro ⟨hlen, hA, hB, hcA, hcB, hf⟩
    use by omega, hA, by omega, hB, by omega, hcA, hlen, hcB, hf

theorem requireAssociation_bind_ok {β : Type} {b : β} {root : Word} {f : Unit → Exec β} :
  (requireAssociation root >>= f).run w = .ok (b, w')
    ↔ w.pool.assocRoot = some root ∧ (f ()).run w = .ok (b, w')
  := by
  simp only [requireAssociation, bind_assoc, read_bind_ok, unwrap_bind_ok, require_bind_ok]
  constructor
  · rintro ⟨_, hassoc, rfl, hf⟩
    use hassoc, hf
  · rintro ⟨hassoc, hf⟩
    use root, hassoc, rfl, hf

/-- The outputs of a settlement are appended one after the other. -/
theorem appendOutputs_bind_ok {β : Type} {b : β} {args : MpcArgs} {f : Word → Exec β} :
  (appendOutputs host args >>= f).run w = .ok (b, w')
    ↔ w.pool.leafCount + 2 < 2 ^ 32
      ∧ ∃ rootA, appendRoot host.poseidon w.pool.treeDepth w.pool.treeLeaves
          args.outputCommitmentA = .ok rootA
      ∧ appendRoot host.poseidon w.pool.treeDepth (w.pool.treeLeaves ++ [args.outputCommitmentA])
          args.outputCommitmentB = .ok args.newRoot
      ∧ (f args.newRoot).run (((w.mapPool
          fun s => { s with leafCount := w.pool.leafCount + 2 }).appendLeaf
            args.outputCommitmentA rootA).appendLeaf args.outputCommitmentB args.newRoot)
          = .ok (b, w')
  := by
  simp only [appendOutputs, bind_assoc, countLeaves_bind_ok, appendLeaf_bind_ok, require_bind_ok,
    pure_bind]
  constructor
  · rintro ⟨hcount, rootA, hrootA, _, hrootB, rfl, hf⟩
    use hcount, rootA, hrootA, hrootB, hf
  · rintro ⟨hcount, rootA, hrootA, hrootB, hf⟩
    use hcount, rootA, hrootA, args.newRoot, hrootB, rfl, hf

/-- An accepted committee settlement, given the verifier it uses and the index of the signal
with the deadline: the committee signed the batch hash, the proof is accepted, its signals
carry the nullifiers, the commitments, the batch hash and the domain, the deadline has not
passed, and both nullifiers are spent and both commitments appended. -/
structure Settlement (host : Host) (w : World) (verifier : Option Address)
    (deadlineIndex : ℕ) (args : MpcArgs) where
  endorsed : w.pool.Endorsed host args.batchHash.toBytes args.signerPubkeys args.signatures
  proof : Bytes
  proof_eq : args.proofBytes = some proof
  bytes : Bytes
  bytes_eq : args.pubSignalsBytes = some bytes
  address : Address
  address_eq : verifier = some address
  verified : host.verify address proof bytes = some true
  signals : List Word
  parsed : parsePublicSignals bytes = some signals
  nullifierA : signals.getD 0 0 = args.nullifierA
  nullifierB : signals.getD 1 0 = args.nullifierB
  outputCommitmentA : signals.getD 2 0 = args.outputCommitmentA
  outputCommitmentB : signals.getD 3 0 = args.outputCommitmentB
  known : w.pool.isKnownRoot (signals.getD 4 0) = true
  batchHash : signals.getD 6 0 = hashToField args.batchHash
  domain : w.pool.MatchesDomain (signals.getD 7 0) (signals.getD 8 0)
  deadline : w.sequence ≤ (fr32ToI128 (signals.getD deadlineIndex 0)).val
  admittedA : w.registry.Admits host.self args.nullifierA
  admittedB : (w.spend args.nullifierA).registry.Admits host.self args.nullifierB
  rootA : Word
  rootA_eq : appendRoot host.poseidon w.pool.treeDepth w.pool.treeLeaves args.outputCommitmentA
    = .ok rootA
  newRoot_eq : appendRoot host.poseidon w.pool.treeDepth
    (w.pool.treeLeaves ++ [args.outputCommitmentA]) args.outputCommitmentB = .ok args.newRoot

/-- The world an accepted committee settlement leads to, up to its event. -/
def Settlement.world {verifier : Option Address} {deadlineIndex : ℕ} {args : MpcArgs}
    (x : Settlement host w verifier deadlineIndex args) : World :=
  ((((w.spend args.nullifierA).spend args.nullifierB).mapPool
    fun s => { s with leafCount := w.pool.leafCount + 2 }).appendLeaf
      args.outputCommitmentA x.rootA).appendLeaf args.outputCommitmentB args.newRoot

theorem mpcSettle_ok {args : MpcArgs} {u : Unit}
    (h : (mpcSettle host tx args).run w = .ok (u, w')) :
  ∃ x : Settlement host w w.pool.mpcVerifier 10 args, w' = x.world.emit
    (.mpc args.batchHash args.nullifierA args.nullifierB args.outputCommitmentA
      args.outputCommitmentB args.newRoot)
  := by
  simp only [mpcSettle, requireNotPaused_bind_ok, verifyCommitteeThreshold_bind_ok,
    parseSignals_bind_ok, signal_bind_ok, require_bind_ok, read_bind_ok, unwrap_bind_ok,
    bindSignals_bind_ok, requireAssociation_bind_ok, requireDomain_bind_ok,
    requireKnownRoot_bind_ok, requireProof_bind_ok, spendNullifier_bind_ok,
    appendOutputs_bind_ok, write_ok] at h
  obtain ⟨-, hendorsed, verifier, hverifier, proof, hproof, bytes, hbytes, hverify, signals,
    hparse, -, hA, hB, hcA, hcB, -, hknown, -, -, -, hbatch, -, -, hdomain, -, hdeadline,
    hadmitA, hadmitB, -, rootA, hrootA, hroot, hw'⟩ := h
  exact ⟨⟨hendorsed, proof, hproof, bytes, hbytes, verifier, hverifier, hverify, signals, hparse,
    hA, hB, hcA, hcB, hknown, hbatch, hdomain, hdeadline, hadmitA, hadmitB, rootA, hrootA,
    hroot⟩, hw'⟩

theorem mpcSettlePriced_ok {args : MpcArgs} {u : Unit}
    (h : (mpcSettlePriced host tx args).run w = .ok (u, w')) :
  ∃ x : Settlement host w w.pool.mpcPverifier 9 args, w' = x.world.emit
    (.mpcprice args.batchHash args.nullifierA args.nullifierB args.outputCommitmentA
      args.outputCommitmentB args.newRoot)
  := by
  simp only [mpcSettlePriced, requireNotPaused_bind_ok, verifyCommitteeThreshold_bind_ok,
    parseSignals_bind_ok, signal_bind_ok, require_bind_ok, read_bind_ok, unwrap_bind_ok,
    bindSignals_bind_ok, requireAssociation_bind_ok, requireKnownRoot_bind_ok,
    requireProof_bind_ok, getAssetToken_bind_ok, spendNullifier_bind_ok, appendOutputs_bind_ok,
    write_ok] at h
  obtain ⟨-, hendorsed, verifier, hverifier, proof, hproof, bytes, hbytes, hverify, signals,
    hparse, -, hA, hB, hcA, hcB, -, hknown, -, -, -, hbatch, -, hpool, -, hchain, -,
    hdeadline, -, -, -, -, -, -, -, -, -, hadmitA, hadmitB, -, -, rootA, hrootA, hroot, hw'⟩ := h
  exact ⟨⟨hendorsed, proof, hproof, bytes, hbytes, verifier, hverifier, hverify, signals, hparse,
    hA, hB, hcA, hcB, hknown, hbatch, ⟨hpool, hchain⟩, hdeadline, hadmitA, hadmitB, rootA,
    hrootA, hroot⟩, hw'⟩

end Shade.Pool
