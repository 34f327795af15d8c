import Shade.Api.Envelope
import Shade.Library.Machine
import Shade.Library.Table
import Mathlib.Data.List.MinMax

/-!
# Vaults and wallets

The tables of the note vaults and of the wallets of users, the statements of the store that work
on them, and the routes that run these statements for a user. Times are those of the database,
and `ids` are the keys it makes for the rows that a request inserts. What is written to the log of
activities is left out.
-/

namespace Shade.Api

open Text Table

/-- The key of a row, made by the database. -/
abbrev Uuid : Type := ℕ

/-- The status of the backup of a vault. -/
inductive BackupStatus where
  | created
  | verified
  | restored
  | failed
deriving DecidableEq

/-- What a client reports of the decryption of a vault. -/
structure Verification where
  vaultId : Text
  decryptedVaultHash : Text
  commitmentsHash : Text
  method : WrapperType
  verifiedAtClient : Text
deriving DecidableEq

/-- A row of the table `note_vaults`. -/
structure NoteVault where
  id : Uuid
  userId : Uuid
  privyUserId : Text
  vaultId : Text
  envelope : EncryptedVaultEnvelope
  ciphertext : Text
  aad : Record
  backupStatus : BackupStatus
  recoveryPolicyStatus : RecoveryPolicyStatus
  lastBackupVerifiedAt : Option ℕ
  lastRestoredAt : Option ℕ
  lastBackupVerification : Option Verification
  createdAt : ℕ
  updatedAt : ℕ

/-- A row of the table `note_vault_wrappers`. -/
structure NoteVaultWrapper where
  id : Uuid
  vaultId : Text
  userId : Uuid
  wrapperType : WrapperType
  metadata : Record
  createdAt : ℕ

/-- The two types of wallets. -/
inductive WalletType where
  | evm
  | stellar
deriving DecidableEq

/-- Where a wallet comes from. -/
inductive WalletSource where
  | privyEmbedded
  | external
  | freighter
  | legacy
deriving DecidableEq

/-- A row of the table `user_wallets`. -/
structure UserWallet where
  id : Uuid
  userId : Uuid
  privyUserId : Option Text
  walletType : WalletType
  walletSource : Option WalletSource
  chain : Text
  address : Text
  privyWalletId : Option Text
  isPrimary : Bool
  verifiedAt : Option ℕ
  createdAt : ℕ
deriving DecidableEq

/-- A row of the table `auth_nonces`. -/
structure AuthNonce where
  id : Uuid
  walletType : WalletType
  address : Text
  nonce : Text
  message : Text
  consumedAt : Option ℕ
  expiresAt : ℕ
  createdAt : ℕ
deriving DecidableEq

/-- The tables. -/
structure Accounts where
  noteVaults : List NoteVault
  noteVaultWrappers : List NoteVaultWrapper
  userWallets : List UserWallet
  authNonces : List AuthNonce

/-! ### Statements on vaults -/

/-- The row of a new vault. -/
def newVault (id userId : Uuid) (privyUserId : Text) (env : EncryptedVaultEnvelope)
    (policy : RecoveryPolicyStatus) (now : ℕ) : NoteVault where
  id := id
  userId := userId
  privyUserId := privyUserId
  vaultId := env.vaultId
  envelope := env
  ciphertext := env.ciphertext
  aad := env.aad
  backupStatus := .created
  recoveryPolicyStatus := policy
  lastBackupVerifiedAt := none
  lastRestoredAt := none
  lastBackupVerification := none
  createdAt := now
  updatedAt := now

/-- The row of a vault with another envelope. -/
def NoteVault.withEnvelope (env : EncryptedVaultEnvelope) (policy : RecoveryPolicyStatus)
    (now : ℕ) (v : NoteVault) : NoteVault :=
  { v with
    envelope := env
    ciphertext := env.ciphertext
    aad := env.aad
    recoveryPolicyStatus := policy
    updatedAt := now }

/-- Insert a vault. A row with the identifier of the vault gets the envelope instead. -/
def createNoteVault (id userId : Uuid) (privyUserId : Text) (env : EncryptedVaultEnvelope)
    (policy : RecoveryPolicyStatus) (now : ℕ) : List NoteVault → List NoteVault :=
  insertOrUpdate (fun v => v.vaultId = env.vaultId) (NoteVault.withEnvelope env policy now)
    (newVault id userId privyUserId env policy now)

/-- The vault of a user with an identifier. -/
def getNoteVault (userId : Uuid) (vaultId : Text) (vaults : List NoteVault) : Option NoteVault :=
  vaults.find? fun v => v.userId = userId ∧ v.vaultId = vaultId

/-- Give the vault of a user another envelope. -/
def updateNoteVault (userId : Uuid) (vaultId : Text) (env : EncryptedVaultEnvelope)
    (policy : RecoveryPolicyStatus) (now : ℕ) : List NoteVault → List NoteVault :=
  updateWhere (fun v => v.userId = userId ∧ v.vaultId = vaultId)
    (NoteVault.withEnvelope env policy now)

/-- Write that the vault of a user has been restored. -/
def setVaultRestored (userId : Uuid) (vaultId : Text) (now : ℕ) :
    List NoteVault → List NoteVault :=
  updateWhere (fun v => v.userId = userId ∧ v.vaultId = vaultId) fun v =>
    { v with backupStatus := .restored, lastRestoredAt := some now, updatedAt := now }

/-- Write that the backup of the vault of a user has been verified. -/
def setVaultBackupVerified (userId : Uuid) (vaultId : Text) (verification : Verification)
    (now : ℕ) : List NoteVault → List NoteVault :=
  updateWhere (fun v => v.userId = userId ∧ v.vaultId = vaultId) fun v =>
    { v with
      backupStatus := .verified
      lastBackupVerifiedAt := some now
      lastBackupVerification := some verification
      updatedAt := now }

/-- What the client is told of a vault before a deposit. -/
structure DepositReadiness where
  ready : Bool
  backupStatus : BackupStatus
  recoveryPolicyStatus : RecoveryPolicyStatus
deriving DecidableEq

/-- A backup has been verified, and the vault can be recovered. -/
def NoteVault.DepositReady (v : NoteVault) : Prop :=
  v.backupStatus = .verified
    ∧ (v.recoveryPolicyStatus = .sufficient ∨ v.recoveryPolicyStatus = .strong)

instance (v : NoteVault) : Decidable v.DepositReady :=
  inferInstanceAs (Decidable (_ ∧ _))

/-- Whether the vault of a user is ready for a deposit. -/
def vaultDepositReady (userId : Uuid) (vaultId : Text) (vaults : List NoteVault) :
    Option DepositReadiness :=
  (getNoteVault userId vaultId vaults).map fun v =>
    ⟨decide v.DepositReady, v.backupStatus, v.recoveryPolicyStatus⟩

/-- The vault has a row, as a wrapper has to refer to one. -/
def VaultExists (vaultId : Text) (vaults : List NoteVault) : Prop :=
  ∃ v ∈ vaults, v.vaultId = vaultId

instance (vaultId : Text) (vaults : List NoteVault) : Decidable (VaultExists vaultId vaults) :=
  inferInstanceAs (Decidable (∃ v ∈ vaults, _))

/-! ### Statements on wallets -/

/-- A wallet that Privy has linked to a user. -/
structure LinkedWallet where
  walletType : WalletType
  walletSource : Option WalletSource
  chain : Text
  address : Text
  privyWalletId : Option Text
deriving DecidableEq

/-- The row of a wallet that is linked to a user. -/
def newLinkedWallet (id userId : Uuid) (privyUserId : Text) (l : LinkedWallet) (now : ℕ) :
    UserWallet where
  id := id
  userId := userId
  privyUserId := some privyUserId
  walletType := l.walletType
  walletSource := some (l.walletSource.getD .external)
  chain := l.chain
  address := l.address
  privyWalletId := l.privyWalletId
  isPrimary := false
  verifiedAt := some now
  createdAt := now

/-- The row is the one of a wallet. -/
def UserWallet.Is (w : UserWallet) (walletType : WalletType) (address : Text) : Prop :=
  w.walletType = walletType ∧ w.address = address

instance (w : UserWallet) (walletType : WalletType) (address : Text) :
    Decidable (w.Is walletType address) :=
  inferInstanceAs (Decidable (_ ∧ _))

/-- Insert a wallet that is linked to a user. A row of the wallet goes to the user instead. -/
def syncPrivyWallet (id userId : Uuid) (privyUserId : Text) (now : ℕ) (l : LinkedWallet) :
    List UserWallet → List UserWallet :=
  insertOrUpdate (fun w => w.Is l.walletType l.address)
    (fun w => { w with
      userId := userId
      privyUserId := some privyUserId
      walletSource := some (l.walletSource.getD .external)
      chain := l.chain
      privyWalletId := l.privyWalletId
      verifiedAt := some now })
    (newLinkedWallet id userId privyUserId l now)

/-- Insert all wallets that are linked to a user. -/
def syncPrivyWallets (ids : ℕ → Uuid) (userId : Uuid) (privyUserId : Text) (now : ℕ) :
    List LinkedWallet → List UserWallet → List UserWallet
  | [], wallets => wallets
  | l :: ls, wallets =>
      syncPrivyWallets (fun i => ids (i + 1)) userId privyUserId now ls
        (syncPrivyWallet (ids 0) userId privyUserId now l wallets)

/-- The row of a wallet that a user adds. -/
def newWallet (id userId : Uuid) (walletType : WalletType) (chain address : Text) (now : ℕ) :
    UserWallet where
  id := id
  userId := userId
  privyUserId := none
  walletType := walletType
  walletSource := none
  chain := chain
  address := address
  privyWalletId := none
  isPrimary := false
  verifiedAt := none
  createdAt := now

/-- Insert a wallet of a user. A row of the wallet gets the chain instead. -/
def addWallet (id userId : Uuid) (walletType : WalletType) (chain address : Text) (now : ℕ) :
    List UserWallet → List UserWallet :=
  insertOrUpdate (fun w => w.Is walletType address) (fun w => { w with chain := chain })
    (newWallet id userId walletType chain address now)

/-- The row is one that a user may delete. -/
def UserWallet.Deletable (walletId userId : Uuid) (w : UserWallet) : Prop :=
  w.id = walletId ∧ w.userId = userId ∧ w.isPrimary = false

instance (walletId userId : Uuid) (w : UserWallet) : Decidable (w.Deletable walletId userId) :=
  inferInstanceAs (Decidable (_ ∧ _ ∧ _))

/-- Delete a wallet of a user that is not its primary one. -/
def deleteWallet (userId walletId : Uuid) : List UserWallet → List UserWallet :=
  deleteWhere fun w => w.Deletable walletId userId

/-- The newest nonce for a wallet that is neither consumed nor expired. -/
def currentNonce (walletType : WalletType) (address nonce : Text) (now : ℕ)
    (nonces : List AuthNonce) : Option AuthNonce :=
  (nonces.filter fun n => n.walletType = walletType ∧ n.address = address ∧ n.nonce = nonce
    ∧ n.consumedAt = none ∧ now < n.expiresAt).argmax AuthNonce.createdAt

/-- Consume a nonce. -/
def consumeNonce (n : AuthNonce) (now : ℕ) : List AuthNonce → List AuthNonce :=
  updateWhere (fun m => m.id = n.id) fun m => { m with consumedAt := some now }

/-! ### Requests -/

/-- The libraries that the server calls: the checksummed form of an address, which a text may not
have, and the verification of the signature of a wallet. -/
structure Wallets where
  getAddress : Text → Option Text
  verifyWalletSignature : WalletType → Text → Text → Text → Bool

/-- The user for whom a request is made. -/
structure PrivyAuth where
  userId : Uuid
  privyUserId : Text

/-- A request to the routes of vaults and wallets. -/
inductive AccountRequest where
  | createVault (body : Json)
  | updateVault (vaultId : Text) (body : Json)
  | verifyBackup (vaultId : Text) (body : Json)
  | markRestored (vaultId : Text)
  | addWrapper (vaultId : Text) (body : Json)
  | deleteWrapper (vaultId : Text) (wrapperId : Uuid)
  | syncPrivy (body : Json)
  | addWallet (body : Json)
  | deleteWallet (walletId : Uuid)

/-- An answer. -/
inductive AccountReply where
  | created (vaultId : Text) (policy : RecoveryPolicyStatus)
  | updated (vaultId : Text) (policy : RecoveryPolicyStatus)
  | verified (vaultId : Text) (readiness : Option DepositReadiness)
  | restored (vaultId : Text)
  | wrapperAdded (wrapperId : Uuid) (policy : RecoveryPolicyStatus)
  | synced (count : ℕ)
  | walletAdded (walletId : Option Uuid)
  | ok

/-- The body of a request does not fit its schema. -/
def zodError : ApiError := ⟨400, "invalid request body".toList⟩

/-- Refuse a request whose body does not fit its schema. -/
def parsed {α : Type} (a : Option α) : Except ApiError α :=
  match a with
  | some a => .ok a
  | none => .error zodError

/-- Refuse a request unless a condition holds. -/
def ensure (p : Prop) [Decidable p] (e : ApiError) : Except ApiError Unit :=
  if p then .ok () else .error e

/-- Read the report of a verification. -/
def verifyBackupSchema (body : Json) : Option Verification := do
  let v ← body.get? "verification".toList
  let vaultId ← (← v.get? "vault_id".toList).asNonempty?
  let decryptedVaultHash ← (← v.get? "decrypted_vault_hash".toList).asString?
  guard (8 ≤ (codeUnits decryptedVaultHash).length)
  let commitmentsHash ← (← v.get? "commitments_hash".toList).asNonempty?
  let method ← parseEnum
    [.stellarEd25519Signature, .recoveryFileSecret, .recoveryKitPassword, .passkeyPrf]
    WrapperType.name (← v.get? "method".toList)
  let verifiedAtClient ← (← v.get? "verified_at_client".toList).asNonempty?
  return ⟨vaultId, decryptedVaultHash, commitmentsHash, method, verifiedAtClient⟩

/-- Read a wrapper and an envelope. -/
def addWrapperSchema (body : Json) : Option (VaultWrapper × EncryptedVaultEnvelope) := do
  let wrapper ← vaultWrapperSchema (← body.get? "wrapper".toList)
  let envelope ← encryptedVaultEnvelopeSchema (← body.get? "envelope".toList)
  return (wrapper, envelope)

/-- The name of a type of wallets. -/
def WalletType.name : WalletType → Text
  | .evm => "EVM".toList
  | .stellar => "STELLAR".toList

/-- The name of a source of wallets. -/
def WalletSource.name : WalletSource → Text
  | .privyEmbedded => "privy_embedded".toList
  | .external => "external".toList
  | .freighter => "freighter".toList
  | .legacy => "legacy".toList

/-- The character is a hexadecimal digit. -/
def isHexDigit (c : Char) : Bool :=
  c.isDigit || ('a' ≤ c && c ≤ 'f') || ('A' ≤ c && c ≤ 'F')

/-- The form of the addresses of a type of wallets. -/
def WalletType.admits : WalletType → Text → Bool
  | .evm, t => t.take 2 = "0x".toList && (t.drop 2).length = 40 && (t.drop 2).all isHexDigit
  | .stellar, t =>
      t.take 1 = "G".toList && (t.drop 1).length = 55
        && (t.drop 1).all fun c => ('A' ≤ c && c ≤ 'Z') || ('2' ≤ c && c ≤ '7')

/-- Read a linked wallet. -/
def linkedWalletSchema (v : Json) : Option LinkedWallet := do
  let walletType ← parseEnum [.evm, .stellar] WalletType.name (← v.get? "wallet_type".toList)
  let walletSource ← optionalMember "wallet_source".toList
    (parseEnum [.privyEmbedded, .external, .freighter, .legacy] WalletSource.name) v
  let chain ← (← v.get? "chain".toList).asNonempty?
  let address ← (← v.get? "address".toList).asNonempty?
  let privyWalletId ← optionalMember "privy_wallet_id".toList Json.asString? v
  guard (walletType.admits address)
  return ⟨walletType, walletSource, chain, address, privyWalletId⟩

/-- Read the linked wallets, of which there has to be one. -/
def syncPrivyWalletsSchema (body : Json) : Option (List LinkedWallet) := do
  let wallets ← (← (← body.get? "wallets".toList).asArray?).mapM linkedWalletSchema
  guard (wallets ≠ [])
  return wallets

/-- A request to add a wallet. -/
structure WalletBody where
  walletType : WalletType
  address : Text
  signature : Text
  nonce : Text

/-- Read a request to add a wallet. -/
def addWalletSchema (body : Json) : Option WalletBody := do
  let walletType ← parseEnum [.evm, .stellar] WalletType.name (← body.get? "wallet_type".toList)
  let address ← (← body.get? "address".toList).asNonempty?
  let signature ← (← body.get? "signature".toList).asNonempty?
  let nonce ← (← body.get? "nonce".toList).asNonempty?
  return ⟨walletType, address, signature, nonce⟩

/-- The chain of a type of wallets. -/
def chainFor : WalletType → Text
  | .evm => "arbitrum-sepolia".toList
  | .stellar => "stellar-testnet".toList

variable (lib : Wallets)

/-- An address as it is stored and compared. -/
def normalizeAddress : WalletType → Text → Except ApiError Text
  | .evm, address =>
      match lib.getAddress address with
      | some a => .ok a
      | none => .error ⟨500, "invalid address".toList⟩
  | .stellar, address => .ok address

/-! ### Routes -/

variable (opts : RecoverySettings) (auth : PrivyAuth)

/-- The envelope of a request to create a vault, and its recovery policy. -/
def checkCreate (body : Json) :
    Except ApiError (EncryptedVaultEnvelope × RecoveryPolicyStatus) := do
  assertNoPlaintextNoteFields body
  let env ← parsed ((body.get? "envelope".toList).bind encryptedVaultEnvelopeSchema)
  ensure (env.privyUserId = auth.privyUserId) ⟨403, "envelope privy_user_id mismatch".toList⟩
  let policy ← ingestEnvelope opts env
  return (env, policy)

/-- The envelope of a request to update a vault, and its recovery policy. -/
def checkUpdate (vaultId : Text) (body : Json) :
    Except ApiError (EncryptedVaultEnvelope × RecoveryPolicyStatus) := do
  assertNoPlaintextNoteFields body
  let env ← parsed ((body.get? "envelope".toList).bind encryptedVaultEnvelopeSchema)
  ensure (env.vaultId = vaultId ∧ env.privyUserId = auth.privyUserId)
    ⟨403, "vault id / identity mismatch".toList⟩
  let policy ← ingestEnvelope opts env
  return (env, policy)

/-- The wrapper and the envelope of a request to add a wrapper, and the recovery policy. -/
def checkWrapper (vaultId : Text) (body : Json) :
    Except ApiError (VaultWrapper × EncryptedVaultEnvelope × RecoveryPolicyStatus) := do
  assertNoPlaintextNoteFields body
  let (wrapper, env) ← parsed (addWrapperSchema body)
  ensure (env.vaultId = vaultId) ⟨403, "vault id mismatch".toList⟩
  let policy ← ingestEnvelope opts env
  return (wrapper, env, policy)

/-- The report of a request to verify a backup, if the vault of the user can be recovered. -/
def checkVerification (vaultId : Text) (body : Json) (vaults : List NoteVault) :
    Except ApiError Verification := do
  let verification ← parsed (verifyBackupSchema body)
  ensure (verification.vaultId = vaultId) ⟨400, "verification vault_id mismatch".toList⟩
  match getNoteVault auth.userId vaultId vaults with
  | none => .error ⟨404, "vault not found".toList⟩
  | some v =>
      ensure (v.recoveryPolicyStatus = .sufficient ∨ v.recoveryPolicyStatus = .strong)
        ⟨409, "recovery policy insufficient (insufficient)".toList⟩
      return verification

/-- The body and the address of a request to add a wallet, and the nonce that it consumes. -/
def checkWallet (now : ℕ) (body : Json) (nonces : List AuthNonce) :
    Except ApiError (WalletBody × Text × Option AuthNonce) := do
  let b ← parsed (addWalletSchema body)
  let address ← normalizeAddress lib b.walletType b.address
  return (b, address, currentNonce b.walletType address b.nonce now nonces)

/-- The wallet has signed the message of a nonce. -/
def Signed (b : WalletBody) (address : Text) (n : AuthNonce) : Prop :=
  n.message ≠ [] ∧ lib.verifyWalletSignature b.walletType address n.message b.signature = true

instance (b : WalletBody) (address : Text) (n : AuthNonce) : Decidable (Signed lib b address n) :=
  inferInstanceAs (Decidable (_ ∧ _))

/-- The rows of wrappers, with the keys that the database makes for them. -/
def newWrappers (ids : ℕ → Uuid) (userId : Uuid) (vaultId : Text) (now : ℕ)
    (wrappers : List VaultWrapper) : List NoteVaultWrapper :=
  wrappers.mapIdx fun i w => ⟨ids i, vaultId, userId, w.type, w.metadata, now⟩

/-- The answer to a wallet whose signature is not the one of a nonce. -/
def walletSignatureError : ApiError := ⟨401, "wallet signature verification failed".toList⟩

/-- Answer a request. -/
def handle (now : ℕ) (ids : ℕ → Uuid) :
    AccountRequest → Accounts → Except ApiError AccountReply × Accounts
  | .createVault body, s =>
      match checkCreate opts auth body with
      | .error e => (.error e, s)
      | .ok (env, policy) =>
          (.ok (.created env.vaultId policy),
            { s with
              noteVaults := createNoteVault (ids 0) auth.userId auth.privyUserId env policy now
                s.noteVaults
              noteVaultWrappers := s.noteVaultWrappers
                ++ newWrappers (fun i => ids (i + 1)) auth.userId env.vaultId now env.wrappers })
  | .updateVault vaultId body, s =>
      match checkUpdate opts auth vaultId body with
      | .error e => (.error e, s)
      | .ok (env, policy) =>
          match getNoteVault auth.userId vaultId s.noteVaults with
          | none => (.error ⟨404, "vault not found".toList⟩, s)
          | some _ =>
              (.ok (.updated vaultId policy),
                { s with
                  noteVaults := updateNoteVault auth.userId vaultId env policy now s.noteVaults })
  | .verifyBackup vaultId body, s =>
      match checkVerification auth vaultId body s.noteVaults with
      | .error e => (.error e, s)
      | .ok verification =>
          let vaults := setVaultBackupVerified auth.userId vaultId verification now s.noteVaults
          (.ok (.verified vaultId (vaultDepositReady auth.userId vaultId vaults)),
            { s with noteVaults := vaults })
  | .markRestored vaultId, s =>
      match getNoteVault auth.userId vaultId s.noteVaults with
      | none => (.error ⟨404, "vault not found".toList⟩, s)
      | some _ =>
          (.ok (.restored vaultId),
            { s with noteVaults := setVaultRestored auth.userId vaultId now s.noteVaults })
  | .addWrapper vaultId body, s =>
      match checkWrapper opts vaultId body with
      | .error e => (.error e, s)
      | .ok (wrapper, env, policy) =>
          let s' := { s with
            noteVaults := updateNoteVault auth.userId vaultId env policy now s.noteVaults }
          if VaultExists vaultId s.noteVaults then
            (.ok (.wrapperAdded (ids 0) policy),
              { s' with
                noteVaultWrappers := s.noteVaultWrappers
                  ++ newWrappers ids auth.userId vaultId now [wrapper] })
          else
            (.error ⟨500, "violates foreign key constraint".toList⟩, s')
  | .deleteWrapper vaultId wrapperId, s =>
      if ∃ w ∈ s.noteVaultWrappers,
          w.id = wrapperId ∧ w.vaultId = vaultId ∧ w.userId = auth.userId then
        (.ok .ok,
          { s with
            noteVaultWrappers := deleteWhere
              (fun w => w.id = wrapperId ∧ w.vaultId = vaultId ∧ w.userId = auth.userId)
              s.noteVaultWrappers })
      else
        (.error ⟨404, "wrapper not found".toList⟩, s)
  | .syncPrivy body, s =>
      match parsed (syncPrivyWalletsSchema body) with
      | .error e => (.error e, s)
      | .ok ls =>
          (.ok (.synced ls.length),
            { s with
              userWallets := syncPrivyWallets ids auth.userId auth.privyUserId now ls
                s.userWallets })
  | .addWallet body, s =>
      match checkWallet lib now body s.authNonces with
      | .error e => (.error e, s)
      | .ok (_, _, none) => (.error walletSignatureError, s)
      | .ok (b, address, some n) =>
          let s' := { s with authNonces := consumeNonce n now s.authNonces }
          if Signed lib b address n then
            let wallets := addWallet (ids 0) auth.userId b.walletType (chainFor b.walletType)
              address now s.userWallets
            (.ok (.walletAdded
                ((wallets.find? fun w => w.Is b.walletType address).map UserWallet.id)),
              { s' with userWallets := wallets })
          else
            (.error walletSignatureError, s')
  | .deleteWallet walletId, s =>
      if ∃ w ∈ s.userWallets, w.Deletable walletId auth.userId then
        (.ok .ok, { s with userWallets := deleteWallet auth.userId walletId s.userWallets })
      else
        (.error ⟨409, "cannot delete (not found or primary)".toList⟩, s)

/-! ### Runs -/

/-- A request as the server receives it. -/
structure AccountCall where
  auth : PrivyAuth
  now : ℕ
  ids : ℕ → Uuid
  request : AccountRequest

/-- Answer a request, and keep the tables that it leaves. -/
def AccountCall.answer (c : AccountCall) (s : Accounts) : Except ApiError AccountReply × Accounts :=
  handle lib opts c.auth c.now c.ids c.request s

end Shade.Api
