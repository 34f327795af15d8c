import Shade.Committee.Matcher
import Shade.Committee.Shamir
import Shade.Committee.Tables
import Shade.Library.OrderedMap

/-!
# Sessions and rounds

A session collects intents, whose amounts are shared among the nodes of the committee. In a round
the nodes decrypt their shares, the coordinator puts the amounts together from the first two shares
of each intent, matches the intents, and the nodes sign the matches. In the combined server the
coordinator does all of it by itself. In the other one it asks the nodes, of which some may not
answer, and what it does between two answers is one step.

What a round reports to its caller is left out. The two levels of the map of shares are one, with
pairs of a node and an intent as keys.
-/

namespace Shade.Committee

open Text

/-! ### Sessions -/

/-- A share that is encrypted for a node. -/
structure EncryptedShare where
  nodeId : Text
  ciphertext : Text
  nonce : Text
  senderPubkey : Text
deriving DecidableEq

/-- An intent, as it is submitted to the committee. -/
structure MpcIntent where
  intentId : Text
  inputAsset : Text
  outputAsset : Text
  encryptedShares : List EncryptedShare
deriving DecidableEq

/-- A value, other than null, that a share decrypts to or that a node answers: the two numbers of a
share, another value that counts as true, of which no numbers are read, or a value that counts as
false, such as zero, the empty text or false. -/
inductive Plain where
  | share (share : Share)
  | other
  | falsy
deriving DecidableEq

/-- The value counts as true. -/
def Plain.truthy : Plain → Bool
  | .falsy => false
  | _ => true

/-- The two numbers of a share. It throws if there are none. -/
def decodeShare : Plain → Option Share
  | .share share => some share
  | _ => none

/-- A share of a node, with what it decrypts to while a round needs it. -/
structure NodeShareEntry where
  encryptedShare : EncryptedShare
  decryptedShare : Option Plain
deriving DecidableEq

/-- A session. -/
structure Session where
  sessionId : Text
  status : SessionStatus
  intents : OrderedMap Text MpcIntent
  shares : OrderedMap (Text × Text) NodeShareEntry
  signedBatch : Option SignedMatchBatch
deriving DecidableEq

/-- A session without intents. -/
def newSession (sessionId : Text) : Session where
  sessionId := sessionId
  status := .opened
  intents := []
  shares := []
  signedBatch := none

namespace Session

variable (s : Session)

/-- Store an encrypted share of an intent. -/
def addShare (intentId : Text) (encShare : EncryptedShare) : Session :=
  { s with shares := OrderedMap.set s.shares (encShare.nodeId, intentId) ⟨encShare, none⟩ }

/-- Store an intent and its shares. -/
def addIntent (intent : MpcIntent) : Session :=
  intent.encryptedShares.foldl (fun s encShare => s.addShare intent.intentId encShare)
    { s with intents := OrderedMap.set s.intents intent.intentId intent }

/-- Move to a status. -/
def withStatus (status : SessionStatus) : Session := { s with status := status }

/-! ### Amounts -/

/-- The decrypted share of an intent that belongs to a node. -/
def decryptedShare (intentId nodeId : Text) : Option Plain :=
  (OrderedMap.get s.shares (nodeId, intentId)).bind NodeShareEntry.decryptedShare

/-- The first two decrypted shares of an intent that count as true, in the order of the nodes. -/
def availableShares (nodes : List Text) (intentId : Text) : List Plain :=
  ((nodes.filterMap (s.decryptedShare intentId)).filter Plain.truthy).take 2

end Session

/-- The amount of some shares. It throws if a share has no numbers. -/
def reconstructAmount (decryptedShares : List Plain) : Option ℤ :=
  (decryptedShares.mapM decodeShare).map shamirReconstruct

/-- How a computation of a round goes wrong. -/
inductive RoundError where
  | failed
  | threw
deriving DecidableEq

/-- The amounts of intents, in order. -/
def Session.reconstructAll (s : Session) (nodes : List Text) :
    List (Text × MpcIntent) → Except RoundError (List Intent)
  | [] => .ok []
  | (intentId, intent) :: rest =>
      let available := s.availableShares nodes intentId
      if available.length < 2 then
        .error .failed
      else
        match reconstructAmount available with
        | none => .error .threw
        | some amount =>
            (s.reconstructAll nodes rest).map
              fun is => ⟨intentId, amount, intent.inputAsset, intent.outputAsset⟩ :: is

/-- Forget the decrypted shares of the nodes. -/
def Session.clearShares (s : Session) (nodes : List Text) : Session :=
  { s with
    shares := s.shares.map fun e =>
      if nodes.any fun nodeId => nodeId = e.1.1 then (e.1, { e.2 with decryptedShare := none })
      else e }

/-- Put the amounts together and match the intents. The session fails if there are not enough
shares; if an error is thrown, it is left as it is. -/
def Session.matchAll (sort : List Intent → List Intent) (nodes : List Text) (s : Session) :
    Session × Option (List MatchResult) :=
  match s.reconstructAll nodes s.intents with
  | .error .failed => (s.withStatus .failed, none)
  | .error .threw => (s, none)
  | .ok reconstructed => (s.clearShares nodes, some (matchIntents sort reconstructed))

/-- A batch that is signed. -/
def Session.sign (s : Session) (batchHash : Text) (batchId : Text) (matchList : List MatchResult)
    (signatures : List NodeSignature) : Session × SignedMatchBatch :=
  let batch :=
    { batchId := batchId
      sessionId := s.sessionId
      matchList := matchList
      batchHash := batchHash
      signatures := signatures }
  ({ s with signedBatch := some batch, status := .signed }, batch)

/-! ### The round of the combined server -/

/-- What the nodes and the coordinator compute with their keys. To decrypt a share may throw, and
may give nothing. -/
structure Crypto where
  decryptShare : Text → EncryptedShare → Option (Option Plain)
  signBatch : Text → Text → List MatchResult → NodeSignature
  batchHash : Text → List MatchResult → Text

/-- A node decrypts its shares one after the other, and stops if one cannot be decrypted. -/
def decryptEntries (crypto : Crypto) (nodeId : Text) :
    OrderedMap (Text × Text) NodeShareEntry → OrderedMap (Text × Text) NodeShareEntry × Bool
  | [] => ([], true)
  | (key, entry) :: rest =>
      if key.1 = nodeId then
        match crypto.decryptShare nodeId { entry.encryptedShare with nodeId := nodeId } with
        | none => ((key, entry) :: rest, false)
        | some share =>
            let (rest, done) := decryptEntries crypto nodeId rest
            ((key, { entry with decryptedShare := share }) :: rest, done)
      else
        let (rest, done) := decryptEntries crypto nodeId rest
        ((key, entry) :: rest, done)

/-- The nodes decrypt their shares one after the other. -/
def Session.decryptAll (crypto : Crypto) : List Text → Session → Session × Bool
  | [], s => (s, true)
  | nodeId :: nodes, s =>
      let (shares, done) := decryptEntries crypto nodeId s.shares
      if done then Session.decryptAll crypto nodes { s with shares := shares }
      else ({ s with shares := shares }, false)

/-- A round with at least two intents. -/
def runMatchingRound (crypto : Crypto) (sort : List Intent → List Intent) (nodes : List Text)
    (batchId : Text) (s : Session) : Session × Option SignedMatchBatch :=
  let (decrypted, done) := (s.withStatus .matching).decryptAll crypto nodes
  if done then
    match decrypted.matchAll sort nodes with
    | (matched, none) => (matched, none)
    | (matched, some matchList) =>
        let (signed, batch) := matched.sign (crypto.batchHash batchId matchList) batchId matchList
          (nodes.map fun nodeId => crypto.signBatch nodeId batchId matchList)
        (signed, some batch)
  else (decrypted.withStatus .failed, none)

/-! ### The round of the coordinator -/

/-- How many nodes have to answer. -/
def threshold (n : ℕ) : ℕ := (n * 2 + 2) / 3

/-- What a node answers when it is asked to decrypt its shares. -/
structure DecryptAnswer where
  nodeId : Text
  shares : List (Text × Option Plain)
deriving DecidableEq

/-- Store what a node has decrypted, for the shares it has. -/
def Session.storeAnswer (s : Session) (answer : DecryptAnswer) : Session :=
  { s with
    shares := answer.shares.foldl
      (fun shares x => OrderedMap.modify (fun entry => { entry with decryptedShare := x.2 }) shares
        (answer.nodeId, x.1)) s.shares }

/-- What the coordinator does when the nodes have been asked to decrypt. Nodes that did not answer
are `none`. -/
def afterDecrypt (sort : List Intent → List Intent) (nodes : List Text)
    (answers : List (Option DecryptAnswer)) (s : Session) : Session × Option (List MatchResult) :=
  let responding := answers.filterMap id
  if responding.length < threshold nodes.length then
    (s.withStatus .failed, none)
  else
    (responding.foldl Session.storeAnswer s).matchAll sort nodes

/-- What the coordinator does when the nodes have been asked to sign. -/
def afterSign (crypto : Crypto) (nodes : List Text) (batchId : Text)
    (matchList : List MatchResult) (answers : List (Option NodeSignature)) (s : Session) :
    Session × Option SignedMatchBatch :=
  let signatures := answers.filterMap id
  if signatures.length < threshold nodes.length then
    (s.withStatus .failed, none)
  else
    let (signed, batch) :=
      s.sign (crypto.batchHash batchId matchList) batchId matchList signatures
    (signed, some batch)

end Shade.Committee
