import Shade.Pool.Internal

/-!
# Deposits

The entry point that inserts the commitment of a note for tokens that arrived through
CCTP, with a proof that binds the note to the message.
-/

namespace Shade.Pool

open Txn

def opDepositNoteMint : ℤ := 4

/-- The CCTP domain of inbound deposits. -/
def stellarCctpDomain : ℤ := 27

structure DepositArgs where
  sourceDomain : UInt32
  cctpNonce : Word
  asset : Address
  amount : I128
  commitment : Word
  newRoot : Word
  encryptedNotePayloadHash : Word
  policyId : Word
  proofBytes : Bytes
  pubSignalsBytes : Bytes
deriving DecidableEq

/-- Register the note of a deposit. Returns the index of its leaf. -/
def receiveCctpDeposit (host : Host) (tx : Tx) (args : DepositArgs) : Exec ℕ := do
  requireNotPaused
  requireAdmin tx
  require (0 < args.amount.val) (panicErr .badAmount)
  require ((← read (·.pool.deposit)).get args.cctpNonce = none) (panicErr .duplicateDeposit)
  let signals ← parseSignals args.pubSignalsBytes
  require ((← signal signals 0) = args.commitment) (panicErr .wrongCommitment)
  require ((fr32ToI128 (← signal signals 1)).val = opDepositNoteMint) (panicErr .wrongOperation)
  require ((fr32ToI128 (← signal signals 2)).val = args.sourceDomain.toNat)
    (panicErr .wrongDepositField)
  require (fr32ToI128 (← signal signals 7) = args.amount) (panicErr .wrongDepositField)
  require ((fr32ToI128 (← signal signals 3)).val = stellarCctpDomain)
    (panicErr .wrongDepositField)
  require ((fr32ToI128 (← signal signals 5)).val ≠ 0) (panicErr .wrongDepositField)
  let amount6 := fr32ToI128 (← signal signals 6)
  require (0 < amount6.val) (panicErr .wrongDepositField)
  let scaled ← checked (amount6.val * 10)
  require (args.amount.val ≤ scaled.val) (panicErr .wrongDepositField)
  require (hashToField args.cctpNonce = (← signal signals 4)) (panicErr .wrongDepositField)
  require (hashToField args.encryptedNotePayloadHash = (← signal signals 10))
    (panicErr .wrongDepositField)
  require (hashToField args.policyId = (← signal signals 11)) (panicErr .wrongDepositField)
  require (recipientHash host args.asset = (← signal signals 8)) (panicErr .wrongDepositField)
  require (recipientHash host host.self = (← signal signals 9)) (panicErr .wrongDepositField)
  let poolId ← read (·.pool.poolId)
  let chainId ← read (·.pool.chainId)
  require ((fr32ToI128 (← signal signals 12)).val = poolId.toNat) (panicErr .wrongDomain)
  require ((fr32ToI128 (← signal signals 13)).val = chainId.toNat) (panicErr .wrongDomain)
  let depVerifier ← unwrap (← read (·.pool.depVerifier)) (.fault .unwrap)
  requireProof host depVerifier args.proofBytes args.pubSignalsBytes .proofInvalid
  let leafIndex ← countLeaves 1
  let computedRoot ← appendLeaf host args.commitment
  require (args.newRoot = computedRoot) (panicErr .rootMismatch)
  write (·.mapPool fun s => { s with deposit := s.deposit.set args.cctpNonce true })
  adjustNoteSupply host (← signal signals 8) args.amount.val
  write (·.emit (.deposit args.sourceDomain args.cctpNonce args.asset args.amount args.commitment
    args.encryptedNotePayloadHash args.policyId leafIndex computedRoot))
  pure leafIndex

variable {host : Host} {tx : Tx} {w w' : World}

/-- An accepted deposit: it appends the commitment its proof opens and adds its amount,
which is the low half of the proof's amount, to the note supply of its asset. -/
structure Deposit (host : Host) (tx : Tx) (w : World) (args : DepositArgs) where
  signals : List Word
  parsed : parsePublicSignals args.pubSignalsBytes = some signals
  admin : w.pool.admin ∈ tx.auth
  positive : 0 < args.amount.val
  fresh : w.pool.deposit.get args.cctpNonce = none
  commitment : signals.getD 0 0 = args.commitment
  amount : fr32ToI128 (signals.getD 7 0) = args.amount
  nonce : hashToField args.cctpNonce = signals.getD 4 0
  asset : signals.getD 8 0 = recipientHash host args.asset
  depVerifier : Address
  depVerifier_eq : w.pool.depVerifier = some depVerifier
  verified : host.verify depVerifier args.proofBytes args.pubSignalsBytes = some true
  root : Word
  root_eq :
    appendRoot host.poseidon w.pool.treeDepth w.pool.treeLeaves args.commitment = .ok root
  newRoot_eq : args.newRoot = root
  token : Address
  token_eq : w.pool.assetToken.get (signals.getD 8 0) = some token
  next : I128
  next_eq : next.val = w.pool.supply (signals.getD 8 0) + args.amount.val
  next_nonneg : 0 ≤ next.val
  next_le : next.val ≤ w.vault host token

/-- The world an accepted deposit leads to. -/
def Deposit.world {args : DepositArgs} (x : Deposit host tx w args) : World :=
  ((((w.mapPool fun s => { s with leafCount := w.pool.leafCount + 1 }).appendLeaf
    args.commitment x.root).mapPool
      fun s => { s with deposit := s.deposit.set args.cctpNonce true }).setSupply
        (x.signals.getD 8 0) x.next).emit
          (.deposit args.sourceDomain args.cctpNonce args.asset args.amount args.commitment
            args.encryptedNotePayloadHash args.policyId w.pool.leafCount x.root)

theorem receiveCctpDeposit_ok {args : DepositArgs} {n : ℕ}
    (h : (receiveCctpDeposit host tx args).run w = .ok (n, w')) :
  ∃ x : Deposit host tx w args, w' = x.world
  := by
  simp only [receiveCctpDeposit, requireNotPaused_bind_ok, requireAdmin_bind_ok,
    parseSignals_bind_ok, signal_bind_ok, require_bind_ok, read_bind_ok, checked_bind_ok,
    unwrap_bind_ok, requireProof_bind_ok, countLeaves_bind_ok,
    appendLeaf_bind_ok, write_bind_ok, adjustNoteSupply_bind_ok, pure_ok] at h
  obtain ⟨-, hadmin, hpos, hfresh, signals, hparse, -, hcommit, -, -, -, -, -, hamount, -, -, -, -, -,
    -, -, -, -, -, hnonce, -, -, -, -, -, hasset, -, -, -, -, -, -, depVerifier, hdep, hverify, -,
    root, hroot, hnewRoot, -, token, htoken, next, hnext, hnonneg, hreserve, -, hw'⟩ := h
  exact ⟨⟨signals, hparse, hadmin, hpos, hfresh, hcommit, hamount, hnonce, hasset.symm, depVerifier,
    hdep, hverify, root, hroot, hnewRoot, token, htoken, next, hnext, hnonneg, hreserve⟩, hw'.symm⟩

end Shade.Pool
