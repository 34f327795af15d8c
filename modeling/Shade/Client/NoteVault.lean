import Shade.Api.Envelope
import Shade.Host
import Shade.Library.Base64
import Shade.Library.JsonParse
import Shade.Library.Utf8
import Shade.Sha256

/-!
# The note vault of a client

A client encrypts its notes with a master key and wraps the master key with keys that it derives
from the secrets of the recovery methods. The browser gives authenticated encryption, the
derivation of keys and digests; where it would fail, the functions have no value. What it draws at
random is an argument.
-/

namespace Shade.Client

open Text Api

/-! ### Notes -/

/-- The secrets of a note. -/
structure NotePreimage where
  ownerSecret : Text
  spendSecret : Text
  blinding : Text
  nonce : Text
  memoCommitment : Text
  complianceTag : Text
  sourceContext : Text

/-- The status of a note. -/
inductive NoteStatus where
  | prepared
  | active
  | spent
deriving DecidableEq

/-- A note in a vault. -/
structure VaultNote where
  commitment : Text
  assetId : Text
  amount7dp : Text
  notePreimage : NotePreimage
  depositId : Option Text
  status : NoteStatus
  createdAt : Text

/-- A vault. Its version is fixed. -/
structure NoteVault where
  vaultId : Text
  createdAt : Text
  updatedAt : Text
  notes : List VaultNote

/-- The name of a status. -/
def NoteStatus.name : NoteStatus → Text
  | .prepared => "prepared".toList
  | .active => "active".toList
  | .spent => "spent".toList

/-- The secrets of a note as a JSON value. -/
def NotePreimage.toJson (p : NotePreimage) : Json :=
  .object [("owner_secret".toList, .string p.ownerSecret),
    ("spend_secret".toList, .string p.spendSecret), ("blinding".toList, .string p.blinding),
    ("nonce".toList, .string p.nonce), ("memo_commitment".toList, .string p.memoCommitment),
    ("compliance_tag".toList, .string p.complianceTag),
    ("source_context".toList, .string p.sourceContext)]

/-- A note as a JSON value. -/
def VaultNote.toJson (n : VaultNote) : Json :=
  .object ([("commitment".toList, .string n.commitment), ("asset_id".toList, .string n.assetId),
    ("amount_7dp".toList, .string n.amount7dp), ("note_preimage".toList, n.notePreimage.toJson)]
    ++ (n.depositId.map fun d => ("deposit_id".toList, Json.string d)).toList
    ++ [("status".toList, .string n.status.name), ("created_at".toList, .string n.createdAt)])

/-- A vault as a JSON value. -/
def NoteVault.toJson (v : NoteVault) : Json :=
  .object [("version".toList, .string "shade-note-vault-v1".toList),
    ("vault_id".toList, .string v.vaultId), ("created_at".toList, .string v.createdAt),
    ("updated_at".toList, .string v.updatedAt),
    ("notes".toList, .array (v.notes.map VaultNote.toJson))]

/-- A vault without notes. -/
def createEmptyNoteVault (vaultId now : Text) : NoteVault := ⟨vaultId, now, now, []⟩

/-- Add a note to a vault, in place of one with the same commitment. -/
def addNoteToVault (vault : NoteVault) (note : VaultNote) (now : Text) : NoteVault :=
  { vault with
    updatedAt := now
    notes := (vault.notes.filter fun n => n.commitment ≠ note.commitment) ++ [note] }

/-! ### What the browser gives -/

/-- A number of bytes. -/
def Sized (n : ℕ) : Type := { bs : Bytes // bs.length = n }

/-- A key of AES. -/
structure CryptoKey where
  raw : Bytes
  length_raw : raw.length = 16 ∨ raw.length = 24 ∨ raw.length = 32

/-- The parameters of AES-GCM: the initialization vector, and additional data if it is given. -/
structure AesGcmParams where
  iv : Bytes
  additionalData : Option Bytes

/-- What the browser gives: AES-GCM with tags of 128 bits, 256 bits from HKDF and PBKDF2 with
SHA-256, and the numbers that it represents with their texts. -/
structure Browser where
  encrypt : AesGcmParams → CryptoKey → Bytes → Bytes
  decrypt : AesGcmParams → CryptoKey → Bytes → Option Bytes
  hkdfBits : Bytes → Bytes → Bytes → Sized 32
  pbkdf2Bits : Bytes → Bytes → ℕ → Sized 32
  numbers : Set ℚ
  printNumber : ℚ → Text
  readNumber : Text → Option ℚ

/-- The texts of the encodings. -/
def toB64 (bs : Bytes) : Text := Base64.btoa bs

@[inherit_doc toB64]
def fromB64 (t : Text) : Option Bytes := Base64.atob t

@[inherit_doc toB64]
def toHex (bs : Bytes) : Text := hexBytes bs

/-- Use bytes as a key, if their number allows it. -/
def aesKey (raw : Bytes) : Option CryptoKey :=
  if h : raw.length = 16 ∨ raw.length = 24 ∨ raw.length = 32 then some ⟨raw, h⟩ else none

/-- The parameters, with additional data only if it is given. -/
def aesGcmParams (iv : Bytes) (aad : Option Bytes) : AesGcmParams := ⟨iv, aad⟩

variable (browser : Browser)

/-- Encrypt with a drawn initialization vector, which is part of the result. -/
def aesGcmEncrypt (iv : Sized 12) (rawKey plaintext : Bytes) (aad : Option Bytes) :
    Option (Bytes × Bytes) := do
  let key ← aesKey rawKey
  return (iv.val, browser.encrypt (aesGcmParams iv.val aad) key plaintext)

/-- Decrypt. -/
def aesGcmDecrypt (rawKey iv ct : Bytes) (aad : Option Bytes) : Option Bytes := do
  let key ← aesKey rawKey
  browser.decrypt (aesGcmParams iv aad) key ct

/-- Derive a key from a secret with much entropy. -/
def hkdf (ikm salt : Bytes) (info : Text) : Bytes := (browser.hkdfBits ikm salt (utf8 info)).val

/-- Derive a key from a password. -/
def pbkdf2 (password : Text) (salt : Bytes) (iterations : ℕ) : Bytes :=
  (browser.pbkdf2Bits (utf8 password) salt iterations).val

/-- The digest of bytes. -/
def sha256Hex (bs : Bytes) : Text := toHex (sha256 bs).toBytes

/-- The commitment to the secrets of a note by which a client detects changes of its vault. -/
def buildNoteCommitment (preimage : NotePreimage) : Text :=
  "0x".toList ++ sha256Hex (utf8 (Json.stringify browser.printNumber preimage.toJson))

/-! ### Envelopes -/

/-- The additional data of an envelope. -/
structure VaultAad where
  app : Text
  origin : Text
  vaultId : Text
  privyUserId : Text
  vaultVersion : ℕ

/-- The additional data of an envelope as members of an object. -/
def VaultAad.toRecord (aad : VaultAad) : Record :=
  [("app".toList, .string aad.app), ("origin".toList, .string aad.origin),
    ("vault_id".toList, .string aad.vaultId), ("privy_user_id".toList, .string aad.privyUserId),
    ("vault_version".toList, .number aad.vaultVersion)]

/-- The bytes of the additional data. -/
def aadBytes (aad : Record) : Bytes := utf8 (Json.stringify browser.printNumber (.object aad))

/-- Encrypt a vault: the texts of the ciphertext and of the initialization vector. -/
def encryptNoteVault (iv : Sized 12) (vault : NoteVault) (masterKey : Bytes) (aad : Record) :
    Option (Text × Text) := do
  let (iv, ct) ← aesGcmEncrypt browser iv masterKey
    (utf8 (Json.stringify browser.printNumber vault.toJson)) (some (aadBytes browser aad))
  return (toB64 ct, toB64 iv)

/-- Decrypt a vault. -/
def decryptNoteVault (ciphertext iv : Text) (masterKey : Bytes) (aad : Record) : Option Json := do
  let pt ← aesGcmDecrypt browser masterKey (← fromB64 iv) (← fromB64 ciphertext)
    (some (aadBytes browser aad))
  Json.parse browser.readNumber (Utf8.decode pt)

/-- The additional data of the envelope of a vault. -/
def vaultAad (vault : NoteVault) (privyUserId origin : Text) : VaultAad :=
  ⟨"Shade Protocol".toList, origin, vault.vaultId, privyUserId, 1⟩

/-- The envelope of a vault. -/
def createVaultEnvelope (iv : Sized 12) (vault : NoteVault) (masterKey : Bytes)
    (privyUserId origin : Text) (wrappers : List VaultWrapper) :
    Option EncryptedVaultEnvelope := do
  let aad := (vaultAad vault privyUserId origin).toRecord
  let (ciphertext, iv) ← encryptNoteVault browser iv vault masterKey aad
  return ⟨vault.vaultId, privyUserId, iv, aad, ciphertext, wrappers⟩

/-- Decrypt the vault of an envelope. -/
def decryptEnvelope (env : EncryptedVaultEnvelope) (masterKey : Bytes) : Option Json :=
  decryptNoteVault browser env.ciphertext env.iv masterKey env.aad

/-! ### Wrappers -/

/-- Wrap the master key: the initialization vector and the ciphertext. -/
def wrapWithKey (iv : Sized 12) (wrappingKey masterKey : Bytes) : Option Text := do
  let (iv, ct) ← aesGcmEncrypt browser iv wrappingKey masterKey none
  return toB64 (iv ++ ct)

/-- Unwrap the master key. -/
def unwrapWithKey (wrappingKey : Bytes) (wrappedKeyB64 : Text) : Option Bytes := do
  let blob ← fromB64 wrappedKeyB64
  aesGcmDecrypt browser wrappingKey (blob.take 12) (blob.drop 12) none

/-- How a method derives a key from its secret and a salt. -/
structure WrapMethod (Secret : Type) where
  type : WrapperType
  kdf : Kdf
  derive : Secret → Bytes → Bytes

/-- What is drawn for a wrapper. -/
structure WrapDraws where
  salt : Sized 16
  iv : Sized 12
  id : Sized 8

section

variable {Secret : Type} (m : WrapMethod Secret)

/-- Wrap the master key with a method. -/
def wrapVaultKey (draws : WrapDraws) (masterKey : Bytes) (secret : Secret) (metadata : Record) :
    Option VaultWrapper := do
  let wrapped ← wrapWithKey browser draws.iv (m.derive secret draws.salt.val) masterKey
  return ⟨toHex draws.id.val, m.type, .active, m.kdf, toB64 draws.salt.val, wrapped, none, metadata⟩

/-- Unwrap the master key with a method. -/
def unwrapVaultKey (wrapper : VaultWrapper) (secret : Secret) : Option Bytes := do
  let salt ← fromB64 wrapper.salt
  unwrapWithKey browser (m.derive secret salt) wrapper.wrappedKey

end

/-- The output of the passkey for the vault. -/
def passkeyPrf : WrapMethod Bytes where
  type := .passkeyPrf
  kdf := .hkdfSha256
  derive prfOutput salt := hkdf browser prfOutput salt "shade-vault-passkey-prf".toList

/-- A signature of a Stellar wallet over a fixed text. -/
def stellarSignature : WrapMethod Bytes where
  type := .stellarEd25519Signature
  kdf := .hkdfSha256
  derive signature salt := hkdf browser signature salt "shade-vault-stellar-ed25519".toList

/-- The number of iterations for passwords. -/
def pbkdf2Iters : ℕ := 310000

/-- A password. -/
def recoveryKitPassword : WrapMethod Text where
  type := .recoveryKitPassword
  kdf := .pbkdf2Sha256
  derive password salt := pbkdf2 browser password salt pbkdf2Iters

/-- The secret of a recovery file. -/
def recoveryFileSecret : WrapMethod Bytes where
  type := .recoveryFileSecret
  kdf := .hkdfSha256
  derive secret salt := hkdf browser secret salt "shade-vault-recovery-file".toList

/-- A signature of an EVM wallet, of which it is not known that it is the same every time. -/
def evmSignature : WrapMethod Bytes where
  type := .evmSignature
  kdf := .hkdfSha256
  derive signature salt := hkdf browser signature salt "shade-vault-evm-diagnostic".toList

/-- Wrap the master key with the output of a passkey. -/
def wrapVaultKeyWithPasskeyPrf := wrapVaultKey browser (passkeyPrf browser)

/-- Unwrap the master key with the output of a passkey. -/
def unwrapVaultKeyWithPasskeyPrf := unwrapVaultKey browser (passkeyPrf browser)

/-- Wrap the master key with a signature of a Stellar wallet. -/
def wrapVaultKeyWithStellarSignature := wrapVaultKey browser (stellarSignature browser)

/-- Unwrap the master key with a signature of a Stellar wallet. -/
def unwrapVaultKeyWithStellarSignature := unwrapVaultKey browser (stellarSignature browser)

/-- Wrap the master key with a password. -/
def wrapVaultKeyWithRecoveryKitPassword := wrapVaultKey browser (recoveryKitPassword browser)

/-- Unwrap the master key with a password. -/
def unwrapVaultKeyWithRecoveryKitPassword := unwrapVaultKey browser (recoveryKitPassword browser)

/-- Wrap the master key with the secret of a recovery file. -/
def wrapVaultKeyWithRecoveryFileSecret := wrapVaultKey browser (recoveryFileSecret browser)

/-- Unwrap the master key with the secret of a recovery file. -/
def unwrapVaultKeyWithRecoveryFileSecret := unwrapVaultKey browser (recoveryFileSecret browser)

/-- Wrap the master key with a signature of an EVM wallet. The wrapper and its metadata say that
it does not count for a recovery. -/
def diagnosticWrapVaultKeyWithEvmSignature (draws : WrapDraws) (masterKey signature : Bytes)
    (metadata : Record) : Option VaultWrapper := do
  let w ← wrapVaultKey browser (evmSignature browser) draws masterKey signature
    (OrderedMap.set metadata "diagnostic_only".toList (.bool true))
  return { w with diagnosticOnly := some true }

/-- Two signatures are the same. -/
def diagnosticVerifyEvmSignatureStability (sigA sigB : Bytes) : Bool := decide (sigA = sigB)

/-! ### Recovery files -/

/-- A recovery file. Its version, the name of the application and the warning are fixed. -/
structure RecoveryFile where
  vaultId : Text
  createdAt : Text
  recoveryFileSecret : Text
  wrapper : VaultWrapper

/-- The recovery file of a vault. -/
def buildRecoveryFile (vaultId : Text) (secret : Bytes) (wrapper : VaultWrapper) (now : Text) :
    RecoveryFile :=
  ⟨vaultId, now, toB64 secret, wrapper⟩

end Shade.Client
