import Shade.Api.Fetch
import Shade.Client.NoteVault

/-!
# The pages of vaults

A user creates a vault with the recovery methods that it has chosen, stores the envelope on the
server, and decrypts what the server has stored before it reports the backup as verified. On
another device it fetches the envelope and decrypts it with one of the methods. What the pages
show is left out.
-/

namespace Shade.Client

open Text Api

variable (browser : Browser)

/-! ### Creation -/

/-- A new passkey and its output. -/
structure PasskeyResult where
  credentialId : Text
  prfOutput : Bytes
  backupEligible : Bool
  backupState : Bool

/-- The recovery methods that the user has chosen, with what the passkey and the wallet gave. A
passkey or a wallet that fails is skipped, as if it had not been chosen. -/
structure Selection where
  passkey : Option PasskeyResult
  freighter : Option (Text × Bytes)
  file : Bool
  password : Option Text

/-- What is drawn for a new vault. -/
structure SetupDraws where
  master : Sized 32
  iv : Sized 12
  fileSecret : Sized 32
  passkey : WrapDraws
  freighter : WrapDraws
  file : WrapDraws
  password : WrapDraws

/-- The hash of a text that is reported for a vault. -/
def textHash (t : Text) : Text := "0x".toList ++ sha256Hex (utf8 t)

variable (sel : Selection) (draws : SetupDraws) (now : Text)

/-- The wrapper for the passkey. -/
def passkeyWrapper : Option VaultWrapper := do
  let pk ← sel.passkey
  wrapVaultKeyWithPasskeyPrf browser draws.passkey draws.master.val pk.prfOutput
    [("credential_id_hash".toList, .string (textHash pk.credentialId)),
      ("backup_eligible".toList, .bool pk.backupEligible),
      ("backup_state".toList, .bool pk.backupState)]

/-- The wrapper for the wallet. -/
def freighterWrapper : Option VaultWrapper := do
  let (addr, sig) ← sel.freighter
  wrapVaultKeyWithStellarSignature browser draws.freighter draws.master.val sig
    [("stellar_address".toList, .string addr),
      ("wallet_source".toList, .string "freighter".toList)]

/-- The wrapper for the recovery file. -/
def fileWrapper : Option VaultWrapper :=
  wrapVaultKeyWithRecoveryFileSecret browser draws.file draws.master.val draws.fileSecret.val
    [("device_hint".toList, .string "browser".toList), ("created_at".toList, .string now)]

/-- The wrapper for a password. -/
def passwordWrapper (pw : Text) : Option VaultWrapper :=
  wrapVaultKeyWithRecoveryKitPassword browser draws.password draws.master.val pw
    [("created_at".toList, .string now)]

/-- The wrapper for the recovery file, if that was chosen. -/
def fileWrappers : Option (List VaultWrapper) :=
  if sel.file then (fileWrapper browser draws now).map fun w => [w] else some []

/-- The wrapper for a password, if there is one. -/
def passwordWrappers : Option (List VaultWrapper) :=
  match sel.password with
  | some (c :: pw) => (passwordWrapper browser draws now (c :: pw)).map fun w => [w]
  | _ => some []

/-- The wrappers for the methods that the user has chosen. -/
def chosenWrappers : Option (List VaultWrapper) := do
  let file ← fileWrappers browser sel draws now
  let password ← passwordWrappers browser sel draws now
  return (passkeyWrapper browser sel draws).toList
    ++ (freighterWrapper browser sel draws).toList ++ file ++ password

/-- The wrappers of a new vault, of which there has to be one. -/
def setupWrappers : Option (List VaultWrapper) := do
  let wrappers ← chosenWrappers browser sel draws now
  guard ((wrappers.filter fun w => w.type ≠ .evmSignature).length ≠ 0)
  return wrappers

/-- The recovery file, if that was chosen. -/
def newRecoveryFile (vid : Text) : Option (Option RecoveryFile) :=
  if sel.file then
    (fileWrapper browser draws now).map fun w =>
      some (buildRecoveryFile vid draws.fileSecret.val w now)
  else some none

/-- The envelope of a new vault, and its recovery file. -/
def createVault (vid privyUserId origin : Text) :
    Option (EncryptedVaultEnvelope × Option RecoveryFile) := do
  let wrappers ← setupWrappers browser sel draws now
  let file ← newRecoveryFile browser sel draws now vid
  let envelope ← createVaultEnvelope browser draws.iv (createEmptyNoteVault vid now)
    draws.master.val privyUserId origin wrappers
  return (envelope, file)

/-- The request that stores an envelope. -/
def createVaultRequest (envelope : EncryptedVaultEnvelope) : AccountRequest :=
  .createVault (.object [("envelope".toList, envelope.toJson)])

/-- The report that a vault was decrypted with a method. -/
def verifyBackupRequest (vid : Text) (method : Text) : AccountRequest :=
  .verifyBackup vid (.object [("verification".toList, .object
    [("vault_id".toList, .string vid), ("decrypted_vault_hash".toList, .string (textHash vid)),
      ("commitments_hash".toList, .string (textHash [])), ("method".toList, .string method),
      ("verified_at_client".toList, .string now)])])

/-- Decrypt the envelope that the server has stored, with the recovery file if there is one, and
report it. -/
def confirmBackup (vid : Text) (fetched : EncryptedVaultEnvelope) : Option AccountRequest := do
  let (master, method) ←
    match fetched.wrappers.find? (fun w => w.type = .recoveryFileSecret), sel.file with
    | some w, true =>
        (unwrapVaultKeyWithRecoveryFileSecret browser w draws.fileSecret.val).map fun k =>
          (k, WrapperType.recoveryFileSecret.name)
    | _, _ =>
        some (draws.master.val, (fetched.wrappers.head?.map fun w => w.type.name).getD
          "stellar_ed25519_signature".toList)
  let dec ← decryptEnvelope browser fetched master
  guard ((dec.get? "vault_id".toList).bind Json.asString? = some vid)
  return verifyBackupRequest now vid method

/-! ### Restoration -/

/-- Fetch the envelope of a vault and check it. -/
def fetchEnvelope (auth : PrivyAuth) (vaultId : Text) (s : Accounts) :
    Option EncryptedVaultEnvelope :=
  match fetchVault auth vaultId s with
  | .ok env =>
      match validateVaultEnvelope env with
      | .ok _ => some env
      | .error _ => none
  | .error _ => none

/-- Decrypt the vault of an envelope. Its identifier has to be the one of the envelope. -/
def finish (env : EncryptedVaultEnvelope) (master : Bytes) : Option Json := do
  let vault ← decryptEnvelope browser env master
  guard ((vault.get? "vault_id".toList).bind Json.asString? = some env.vaultId)
  return vault

/-- Restore a vault with a method, from the first wrapper of its type. -/
def restoreBy {Secret : Type} (m : WrapMethod Secret) (secret : Secret)
    (env : EncryptedVaultEnvelope) : Option Json := do
  let w ← env.wrappers.find? fun w => w.type = m.type
  let master ← unwrapVaultKey browser m w secret
  finish browser env master

/-- Restore a vault with a signature of the wallet. -/
def restoreWithFreighter := restoreBy browser (stellarSignature browser)

/-- Restore a vault with a password. -/
def restoreWithPassword := restoreBy browser (recoveryKitPassword browser)

/-- Restore a vault from a recovery file. -/
def restoreFromFile (rf : RecoveryFile) (env : EncryptedVaultEnvelope) : Option Json := do
  let w ← env.wrappers.find? fun w => w.type = .recoveryFileSecret
  let secret ← fromB64 rf.recoveryFileSecret
  let master ← unwrapVaultKeyWithRecoveryFileSecret browser w secret
  finish browser env master

end Shade.Client
