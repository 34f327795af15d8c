import Shade.Committee.Tables
import Shade.Solver.Rfq

/-!
# Signing batches

How a node signs a batch, and how the coordinator and its clients check the signatures of a batch
against the list of the committee. Keys and signatures are texts in hexadecimal, which are decoded
when they are used; the library that signs and verifies throws if a key or a signature has the
wrong length.
-/

namespace Shade.Committee

open Text Solver

/-- What everybody knows of a node. -/
structure NodePublicInfo where
  nodeId : Text
  encryptionPubkey : Text
  signingPubkey : Text
deriving DecidableEq

/-- The keys of a node. -/
structure CommitteeNodeKeyPair where
  nodeId : Text
  encryptionPublicKey : Bytes
  encryptionSecretKey : Bytes
  signingPublicKey : Bytes
  signingSecretKey : Bytes
deriving DecidableEq

/-- Detached signatures: sign a message with a secret key, and verify the signature on a message
with a public key. -/
structure NaclSign where
  detached : (message secretKey : Bytes) → Bytes
  verify : (message signature publicKey : Bytes) → Bool

/-- What is told of a node. -/
def nodePublicInfo (kp : CommitteeNodeKeyPair) : NodePublicInfo where
  nodeId := kp.nodeId
  encryptionPubkey := hexBytes kp.encryptionPublicKey
  signingPubkey := hexBytes kp.signingPublicKey

section

variable (nacl : NaclSign) (sha256 : Bytes → Word)

/-- The message that is signed for a batch: the digest, printed and decoded again. -/
def batchMessage (batchId : Text) (matchList : List MatchResult) : Bytes :=
  fromHex (hexBytes (computeBatchHash sha256 batchId matchList).toBytes)

/-- Sign a batch. -/
def signBatch (batchId : Text) (matchList : List MatchResult) (node : CommitteeNodeKeyPair) :
    NodeSignature where
  nodeId := node.nodeId
  signingPubkey := hexBytes node.signingPublicKey
  signature := hexBytes (nacl.detached (batchMessage sha256 batchId matchList) node.signingSecretKey)

/-- Verify a signature on a batch; throws if it or the key has the wrong length. -/
def verifyNodeSignature (batchId : Text) (matchList : List MatchResult) (sig : NodeSignature) :
    Option Bool :=
  let pk := fromHex sig.signingPubkey
  let signature := fromHex sig.signature
  if signature.length = 64 ∧ pk.length = 32 then
    some (nacl.verify (batchMessage sha256 batchId matchList) signature pk)
  else
    none

/-- The loop over the signatures of a batch: each is of an expected signer that was not seen
before, and it verifies. Returns the signers that were seen, unless a check fails. -/
def checkSignatures (expected : List Text) (batch : SignedMatchBatch) :
    List NodeSignature → List Text → Option (Option (List Text))
  | [], seen => some (some seen)
  | sig :: sigs, seen =>
      if ¬ expected.contains sig.signingPubkey then some none
      else if seen.contains sig.signingPubkey then some none
      else do
        if ← verifyNodeSignature nacl sha256 batch.batchId batch.matchList sig then
          checkSignatures expected batch sigs (seen ++ [sig.signingPubkey])
        else
          return none

/-- Two thirds of a committee, rounded up. -/
def quorum (n : ℕ) : ℕ := (2 * n + 2) / 3

/-- Check that enough different members of the committee signed a batch. -/
def verifySignedBatch (batch : SignedMatchBatch) (committee : List NodePublicInfo) : Option Bool := do
  let seen ← checkSignatures nacl sha256 (committee.map NodePublicInfo.signingPubkey) batch
    batch.signatures []
  return match seen with
    | some signers => decide (quorum committee.length ≤ signers.length)
    | none => false

end

end Shade.Committee
