import Shade.Committee.Signing
import Shade.Library.JsonText
import Shade.Library.Machine
import Shade.Library.OrderedMap
import Shade.Library.Table

/-!
# The keys of the committee

A process that runs nodes takes their keys from a table when it starts, and makes those that are
not there. Secret keys are encrypted with a key that the table does not have. Several processes may
start at once: what a process does between two queries is one step, and its random bytes come with
the step that needs them.
-/

namespace Shade.Committee

open Text Solver Table

/-- A row of the table of keys. -/
structure KeyRow where
  nodeId : Text
  encryptionPubkey : Text
  encryptionSecret : Text
  signingPubkey : Text
  signingSecret : Text
deriving DecidableEq

/-- Authenticated encryption: the ciphertext and its tag, and the plaintext, unless the tag is
wrong. -/
structure Gcm where
  encrypt : (key iv plaintext : Bytes) → Bytes × Bytes
  decrypt : (key iv authTag ciphertext : Bytes) → Option Bytes

/-- An initialization vector. -/
abbrev Iv : Type := { iv : Bytes // iv.length = 12 }

/-- The random bytes that the keys of a node are made of. -/
structure NewKeys where
  encryptionPublicKey : Bytes
  encryptionSecretKey : Bytes
  signingPublicKey : Bytes
  signingSecretKey : Bytes
  encryptionIv : Iv
  signingIv : Iv

/-- Make the keys of a node. -/
def generateNodeKeyPair (nodeId : Text) (new : NewKeys) : CommitteeNodeKeyPair where
  nodeId := nodeId
  encryptionPublicKey := new.encryptionPublicKey
  encryptionSecretKey := new.encryptionSecretKey
  signingPublicKey := new.signingPublicKey
  signingSecretKey := new.signingSecretKey

/-- The key that a process encrypts with; throws if the variable has the wrong length. -/
def loadEncryptionKey (hex : Option Text) : Option Bytes :=
  match hex with
  | none => none
  | some hex => if (codeUnits hex).length = 64 then some (fromHex hex) else none

section

variable (gcm : Gcm)

/-- Encrypt a secret; throws if the key has the wrong length. -/
def encryptSecret (plainHex : Text) (key : Bytes) (iv : Iv) : Option Text :=
  if key.length = 32 then
    let (ciphertext, authTag) := gcm.encrypt key iv (fromHex plainHex)
    some (hexBytes (iv ++ authTag ++ ciphertext))
  else
    none

/-- Decrypt a secret. -/
def decryptSecret (encHex : Text) (key : Bytes) : Option Text :=
  let raw := fromHex encHex
  let iv := raw.take 12
  let authTag := (raw.drop 12).take 16
  let ciphertext := raw.drop 28
  if key.length = 32 then
    (gcm.decrypt key iv authTag ciphertext).map hexBytes
  else
    none

/-- The keys in a row. -/
def rowToKeyPair (row : KeyRow) (encKey : Bytes) : Option CommitteeNodeKeyPair := do
  let encryptionSecret ← decryptSecret gcm row.encryptionSecret encKey
  let signingSecret ← decryptSecret gcm row.signingSecret encKey
  return {
    nodeId := row.nodeId
    encryptionPublicKey := fromHex row.encryptionPubkey
    encryptionSecretKey := fromHex encryptionSecret
    signingPublicKey := fromHex row.signingPubkey
    signingSecretKey := fromHex signingSecret }

/-- The row for keys. -/
def keyPairToRow (kp : CommitteeNodeKeyPair) (encKey : Bytes) (encryptionIv signingIv : Iv) :
    Option KeyRow := do
  let encryptionSecret ← encryptSecret gcm (hexBytes kp.encryptionSecretKey) encKey encryptionIv
  let signingSecret ← encryptSecret gcm (hexBytes kp.signingSecretKey) encKey signingIv
  return {
    nodeId := kp.nodeId
    encryptionPubkey := hexBytes kp.encryptionPublicKey
    encryptionSecret := encryptionSecret
    signingPubkey := hexBytes kp.signingPublicKey
    signingSecret := signingSecret }

end

/-! ### Calls -/

/-- What a call waits for: the rows of its nodes, or that the row of the node `id` is inserted, when
it has the keys of the nodes before and `rest` are those after. -/
inductive KeysPhase where
  | select
  | insert (existing : OrderedMap Text CommitteeNodeKeyPair) (id : Text) (rest : List Text)
      (keypairs : List CommitteeNodeKeyPair)
  | returned (keypairs : List CommitteeNodeKeyPair)
  | threw
deriving DecidableEq

/-- A call. -/
structure KeysCall where
  encKey : Bytes
  nodeIds : List Text
  phase : KeysPhase
deriving DecidableEq

/-- Go through the nodes up to the next one that has no row. -/
def nextMissing (existing : OrderedMap Text CommitteeNodeKeyPair) :
    List Text → List CommitteeNodeKeyPair → KeysPhase
  | [], keypairs => .returned keypairs
  | id :: rest, keypairs =>
      match OrderedMap.get existing id with
      | some kp => nextMissing existing rest (keypairs ++ [kp])
      | none => .insert existing id rest keypairs

section

variable (gcm : Gcm)

/-- What a call does with the rows of its nodes. The table has one row for a node at most. -/
def selected (rows : List KeyRow) (encKey : Bytes) (nodeIds : List Text) : KeysPhase :=
  if rows.length = nodeIds.length then
    match nodeIds.mapM fun id => do
        rowToKeyPair gcm (← rows.find? fun row => row.nodeId = id) encKey with
    | some keypairs => .returned keypairs
    | none => .threw
  else
    match rows.mapM fun row => (rowToKeyPair gcm row encKey).map fun kp => (row.nodeId, kp) with
    | some existing => nextMissing existing nodeIds []
    | none => .threw

/-- Insert the row of a node, unless there is one, and go on with the keys that were made. -/
def insertKeys (new : NewKeys) (encKey : Bytes) (table : List KeyRow) :
    KeysPhase → Option (List KeyRow × KeysPhase)
  | .insert existing id rest keypairs =>
      let kp := generateNodeKeyPair id new
      match keyPairToRow gcm kp encKey new.encryptionIv new.signingIv with
      | some row =>
          some (insertOrNothing (fun r => r.nodeId = row.nodeId) row table,
            nextMissing existing rest (keypairs ++ [kp]))
      | none => some (table, .threw)
  | _ => none

/-- The table and the calls. -/
structure KeysWorld where
  table : List KeyRow
  calls : ℕ → Option KeysCall

/-- What happens next. -/
inductive KeysAction where
  | loadOrGenerateKeys (p : ℕ) (encryptionSecret : Option Text) (nodeIds : List Text)
  | select (p : ℕ)
  | insert (p : ℕ) (new : NewKeys)
  | raise (p : ℕ)

/-- A call of a world is replaced. -/
def KeysWorld.move (w : KeysWorld) (p : ℕ) (call : KeysCall) : KeysWorld :=
  { w with calls := Function.update w.calls p (some call) }

/-- The world after an action, if it is possible. A query may raise an error at any time, as the
process may end. -/
def keysStep : KeysAction → KeysWorld → Option KeysWorld
  | .loadOrGenerateKeys p encryptionSecret nodeIds, w =>
      match w.calls p with
      | none => do
          let encKey ← loadEncryptionKey encryptionSecret
          return w.move p ⟨encKey, nodeIds, .select⟩
      | some _ => none
  | .select p, w => do
      let call ← w.calls p
      match call.phase with
      | .select =>
          let rows := w.table.filter fun row => call.nodeIds.contains row.nodeId
          return w.move p { call with phase := selected gcm rows call.encKey call.nodeIds }
      | _ => none
  | .insert p new, w => do
      let call ← w.calls p
      let (table, phase) ← insertKeys gcm new call.encKey w.table call.phase
      return ({ w with table := table }.move p { call with phase := phase })
  | .raise p, w => do
      let call ← w.calls p
      match call.phase with
      | .returned _ => none
      | _ => return w.move p { call with phase := .threw }

end

/-- A table before any call. -/
def KeysWorld.init (table : List KeyRow) : KeysWorld := ⟨table, fun _ => none⟩

/-- What an action may do. -/
inductive KeysChange (gcm : Gcm) (w : KeysWorld) : KeysAction → KeysWorld → Prop where
  | start (p : ℕ) (secret : Option Text) (encKey : Bytes) (nodeIds : List Text)
      (hidle : w.calls p = none) :
      KeysChange gcm w (.loadOrGenerateKeys p secret nodeIds) (w.move p ⟨encKey, nodeIds, .select⟩)
  | select (p : ℕ) (call : KeysCall) (hcall : w.calls p = some call)
      (hphase : call.phase = .select) :
      KeysChange gcm w (.select p) (w.move p { call with
        phase := selected gcm (w.table.filter fun row => call.nodeIds.contains row.nodeId) call.encKey
          call.nodeIds })
  | insert (p : ℕ) (new : NewKeys) (call : KeysCall)
      (existing : OrderedMap Text CommitteeNodeKeyPair) (id : Text) (rest : List Text)
      (keypairs : List CommitteeNodeKeyPair) (row : KeyRow) (hcall : w.calls p = some call)
      (hphase : call.phase = .insert existing id rest keypairs)
      (hrow : keyPairToRow gcm (generateNodeKeyPair id new) call.encKey new.encryptionIv
        new.signingIv = some row) :
      KeysChange gcm w (.insert p new)
        ({ w with table := insertOrNothing (fun r => r.nodeId = row.nodeId) row w.table }.move p
          { call with
            phase := nextMissing existing rest (keypairs ++ [generateNodeKeyPair id new]) })
  | threw (a : KeysAction) (p : ℕ) (call : KeysCall) (hcall : w.calls p = some call) :
      KeysChange gcm w a (w.move p { call with phase := .threw })

/-- Everything that a step may do. -/
theorem keysStep_change {gcm : Gcm} {w w' : KeysWorld} {a : KeysAction}
    (h : keysStep gcm a w = some w') :
  KeysChange gcm w a w'
  := by
  cases a with
  | loadOrGenerateKeys p secret nodeIds =>
      rw [keysStep] at h
      split at h
      · next hidle =>
          obtain ⟨encKey, -, h⟩ := Option.bind_eq_some_iff.mp h
          obtain rfl := Option.some.inj h
          exact .start p secret encKey nodeIds hidle
      · cases h
  | select p =>
      obtain ⟨call, hcall, h⟩ := Option.bind_eq_some_iff.mp h
      split at h
      · next hphase =>
          obtain rfl := Option.some.inj h
          exact .select p call hcall hphase
      · cases h
  | insert p new =>
      obtain ⟨call, hcall, h⟩ := Option.bind_eq_some_iff.mp h
      obtain ⟨⟨table, phase⟩, hinsert, h⟩ := Option.bind_eq_some_iff.mp h
      obtain rfl := Option.some.inj h
      rw [insertKeys.eq_def] at hinsert
      split at hinsert
      · next existing id rest keypairs hphase =>
          dsimp only at hinsert
          split at hinsert
          · next row hrow =>
              obtain ⟨rfl, rfl⟩ := Prod.mk.inj (Option.some.inj hinsert)
              exact .insert p new call existing id rest keypairs row hcall hphase hrow
          · obtain ⟨rfl, rfl⟩ := Prod.mk.inj (Option.some.inj hinsert)
            exact .threw _ p call hcall
      · cases hinsert
  | raise p =>
      obtain ⟨call, hcall, h⟩ := Option.bind_eq_some_iff.mp h
      split at h
      · cases h
      · obtain rfl := Option.some.inj h
        exact .threw _ p call hcall

end Shade.Committee
