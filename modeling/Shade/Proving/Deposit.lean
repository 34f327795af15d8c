import Shade.Pool.Deposit
import Shade.Circuit.Deposit
import Shade.Proving.FieldReduction

/-!
# Registering a deposit

How the relayer registers a deposit once the tokens are in the pool: the prover turns what binds
the note to the message of the burn into the inputs of the deposit circuit, all of them decimal
texts, and the relayer calls the pool with the proof, with the texts it was given, and with the
root it was given. `readWord` and `readI128` are how the command line reads its arguments.
-/

namespace Shade.Proving

open Endian Text Solver

/-- The opening of a coin, as its file has it. -/
structure CoinOpening where
  value : Text
  label : Text
  nullifier : Text
  secret : Text
deriving DecidableEq

/-- What binds a deposit to the message of the burn. -/
structure DepositBinding where
  sourceDomain : Text
  destinationDomain : Text
  cctpNonceHex : Text
  burnTxHashHex : Text
  amount6dp : Text
  amount7dp : Text
  assetStrkey : Text
  poolStrkey : Text
  encryptedNotePayloadHashHex : Text
  policyIdHex : Text
  poolId : Text
  chainId : Text
deriving DecidableEq

/-- The inputs of the deposit circuit, as the prover writes them to a file. -/
structure DepositInput where
  operationType : Text
  sourceDomain : Text
  destinationDomain : Text
  cctpNonceHash : Text
  burnTxHashHash : Text
  amount6dp : Text
  amount7dp : Text
  assetIdHash : Text
  recipientPool : Text
  encryptedNotePayloadHash : Text
  policyIdHash : Text
  poolId : Text
  chainId : Text
  value : Text
  label : Text
  nullifier : Text
  secret : Text
deriving DecidableEq

/-- The inputs that the prover assembles. -/
def depositInput (sha256 : Bytes → Word) (opening : CoinOpening) (b : DepositBinding) :
    Option DepositInput := do
  let cctpNonceHash ← hashToField b.cctpNonceHex
  let burnTxHashHash ← hashToField (hexBytes (sha256 (utf8 b.burnTxHashHex)).toBytes)
  let assetIdHash ← recipientHashField sha256 b.assetStrkey
  let recipientPool ← recipientHashField sha256 b.poolStrkey
  let encryptedNotePayloadHash ← hashToField b.encryptedNotePayloadHashHex
  let policyIdHash ← hashToField b.policyIdHex
  return {
    operationType := "4".toList
    sourceDomain := b.sourceDomain
    destinationDomain := b.destinationDomain
    cctpNonceHash, burnTxHashHash
    amount6dp := b.amount6dp
    amount7dp := b.amount7dp
    assetIdHash, recipientPool, encryptedNotePayloadHash, policyIdHash
    poolId := b.poolId
    chainId := b.chainId
    value := opening.value
    label := opening.label
    nullifier := opening.nullifier
    secret := opening.secret }

/-- A signal that is read from a decimal text. -/
def readSignal (t : Text) : Option Fr := Option.map (Nat.cast : ℕ → Fr) (ofDecimal t)

/-- The assignment of the circuit for the inputs; the commitment is computed. -/
def DepositInput.assignment (H : Hash) (i : DepositInput) : Option DepositNoteMint.Assignment := do
  let operationType ← readSignal i.operationType
  let sourceDomain ← readSignal i.sourceDomain
  let destinationDomain ← readSignal i.destinationDomain
  let cctpNonceHash ← readSignal i.cctpNonceHash
  let burnTxHashHash ← readSignal i.burnTxHashHash
  let amount6dp ← readSignal i.amount6dp
  let amount7dp ← readSignal i.amount7dp
  let assetIdHash ← readSignal i.assetIdHash
  let recipientPool ← readSignal i.recipientPool
  let encryptedNotePayloadHash ← readSignal i.encryptedNotePayloadHash
  let policyIdHash ← readSignal i.policyIdHash
  let poolId ← readSignal i.poolId
  let chainId ← readSignal i.chainId
  let value ← readSignal i.value
  let label ← readSignal i.label
  let nullifier ← readSignal i.nullifier
  let secret ← readSignal i.secret
  return {
    operationType, sourceDomain, destinationDomain, cctpNonceHash, burnTxHashHash, amount6dp
    amount7dp, assetIdHash, recipientPool, encryptedNotePayloadHash, policyIdHash, poolId, chainId
    value, label, nullifier, secret
    commitment := Note.commitment H ⟨assetIdHash, value, label, nullifier, secret⟩ }

/-! ### The relayer -/

/-- What the relayer is given for a deposit, and what it has found out: the hash of the burn
transaction, the pool and the token by their strkeys, the hash of the attested message and the
balance of the pool that the mint added. -/
structure DepositParams where
  burnTxHash : Text
  pool : Text
  sac : Text
  amount6 : ℕ
  cctpNonceHex : Text
  amount7 : ℕ
  commitmentHex : Text
  encryptedNotePayloadHashHex : Text
  policyIdHex : Text
  newRootHex : Text
  coin : CoinOpening
  poolId : Option Text
  chainId : Option Text

/-- The domain of Arbitrum Sepolia, and the one of Stellar. -/
def arbitrumSepoliaDomain : ℕ := 3

def stellarDomain : ℕ := 27

/-- The binding that the relayer hands to the prover. -/
def DepositParams.binding (p : DepositParams) : DepositBinding where
  sourceDomain := decimal arbitrumSepoliaDomain
  destinationDomain := decimal stellarDomain
  cctpNonceHex := p.cctpNonceHex
  burnTxHashHex := p.burnTxHash
  amount6dp := decimal p.amount6
  amount7dp := decimal p.amount7
  assetStrkey := p.sac
  poolStrkey := p.pool
  encryptedNotePayloadHashHex := p.encryptedNotePayloadHashHex
  policyIdHex := p.policyIdHex
  poolId := p.poolId.getD "1".toList
  chainId := p.chainId.getD "148".toList

/-- The assignment the prover proves for a deposit. -/
def DepositParams.assignment (sha256 : Bytes → Word) (H : Hash) (p : DepositParams) :
    Option DepositNoteMint.Assignment :=
  (depositInput sha256 p.coin p.binding).bind fun i => i.assignment H

/-- A word of 32 bytes on the command line: 64 digits, which the relayer strips of their mark. -/
def readWord (hex32 : Text) : Option Word :=
  let digits := strip0x hex32
  if digits.length = 64 ∧ digits.all isHex = true then
    some (BitVec.ofNat 256 (ofHex digits))
  else
    none

/-- A 128-bit integer on the command line. -/
def readI128 (t : Text) : Option I128 := (signed? t).bind I128.check

/-- The arguments with which the relayer calls the pool, given the proof and the public signals
it carries. The contract of the token is given by its strkey. -/
def DepositParams.receiveArgs (p : DepositParams) (asset : Address)
    (proofBytes pubSignalsBytes : Bytes) : Option Pool.DepositArgs := do
  let cctpNonce ← readWord p.cctpNonceHex
  let amount ← readI128 (decimal p.amount7)
  let commitment ← readWord p.commitmentHex
  let newRoot ← readWord p.newRootHex
  let encryptedNotePayloadHash ← readWord p.encryptedNotePayloadHashHex
  let policyId ← readWord p.policyIdHex
  return {
    sourceDomain := UInt32.ofNat arbitrumSepoliaDomain
    cctpNonce
    asset
    amount, commitment, newRoot, encryptedNotePayloadHash, policyId, proofBytes, pubSignalsBytes }

end Shade.Proving
