import Shade.Committee.Session

/-!
# Clients and nodes

How a client splits an amount and encrypts its shares for the nodes of the committee, and what a
node answers when it is asked to decrypt the shares that it holds.
-/

namespace Shade.Committee

open Text

/-! ### The client -/

/-- What a client knows of a node. -/
structure CommitteeNodeInfo where
  nodeId : Text
  encryptionPubkey : Text
deriving DecidableEq

/-- What is drawn to encrypt a share: the secret key of a new key pair, and a nonce. -/
structure Ephemeral where
  secretKey : Text
  nonce : Text

/-- Boxes: the public key of a secret key, and the encryption of a share. -/
structure Nacl where
  publicKey : Text → Text
  box : Share → (nonce theirPublicKey mySecretKey : Text) → Text

variable (nacl : Nacl)

/-- Encrypt a share for a node. -/
def encryptShareForNode (share : Share) (recipientPubkey nodeId : Text) (ephemeral : Ephemeral) :
    EncryptedShare where
  nodeId := nodeId
  ciphertext := nacl.box share ephemeral.nonce recipientPubkey ephemeral.secretKey
  nonce := ephemeral.nonce
  senderPubkey := nacl.publicKey ephemeral.secretKey

/-- Encrypt a share for each node. -/
def encryptShares :
    List CommitteeNodeInfo → List Share → List Ephemeral → Option (List EncryptedShare)
  | [], _, _ => some []
  | node :: nodes, share :: shares, ephemeral :: ephemerals =>
      (encryptShares nodes shares ephemerals).map fun rest =>
        encryptShareForNode nacl share node.encryptionPubkey node.nodeId ephemeral :: rest
  | _ :: _, _, _ => none

/-- Split an amount and encrypt one share for each node. -/
def splitAndEncryptAmount (amount7dp : ℤ) (nodes : List CommitteeNodeInfo) (threshold : ℕ)
    (draws : List Word) (ephemerals : List Ephemeral) : Option (List EncryptedShare) := do
  let (shares, _) ← Client.shamirSplit amount7dp threshold nodes.length draws
  encryptShares nacl nodes shares ephemerals

/-! ### The nodes -/

/-- What a node answers when it is asked to decrypt its shares of some intents. -/
def decryptHandler (crypto : Crypto) (nodeId : Text) (shares : OrderedMap Text EncryptedShare)
    (intentIds : List Text) : DecryptAnswer where
  nodeId := nodeId
  shares := intentIds.map fun intentId =>
    (intentId, (OrderedMap.get shares intentId).bind fun enc =>
      (crypto.decryptShare nodeId enc).getD none)

/-- Ask the nodes to decrypt their shares of some intents. Some of them do not answer. -/
def askDecrypt (crypto : Crypto) (holdings : Text → OrderedMap Text EncryptedShare)
    (responds : Text → Bool) (nodes : List Text) (intentIds : List Text) :
    List (Option DecryptAnswer) :=
  nodes.map fun nodeId =>
    if responds nodeId then some (decryptHandler crypto nodeId (holdings nodeId) intentIds)
    else none

end Shade.Committee
