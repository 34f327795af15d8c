import Shade.Library.Json

/-!
# Encrypted note vaults

The envelope in which a client stores its notes, the schema that reads it from the body of a
request, the check that no names of secrets occur in it, and the recovery policy of its wrappers.
-/

namespace Shade.Api

open Text

/-- What a wrapped key of a vault is wrapped with. -/
inductive WrapperType where
  | passkeyPrf
  | stellarEd25519Signature
  | recoveryFileSecret
  | recoveryKitPassword
  | evmSignature
deriving DecidableEq

/-- The status of a wrapper. -/
inductive WrapperStatus where
  | active
  | revoked
deriving DecidableEq

/-- The derivation of a wrapping key. -/
inductive Kdf where
  | hkdfSha256
  | pbkdf2Sha256
deriving DecidableEq

/-- An object with any members. -/
abbrev Record : Type := List (Text × Json)

/-- A wrapped key of a vault. -/
structure VaultWrapper where
  id : Text
  type : WrapperType
  status : WrapperStatus
  kdf : Kdf
  salt : Text
  wrappedKey : Text
  diagnosticOnly : Option Bool
  metadata : Record

/-- An envelope. Its version, the name of its cipher and the length of the tag are fixed. -/
structure EncryptedVaultEnvelope where
  vaultId : Text
  privyUserId : Text
  iv : Text
  aad : Record
  ciphertext : Text
  wrappers : List VaultWrapper

/-- Whether a vault can be recovered. -/
inductive RecoveryPolicyStatus where
  | insufficient
  | sufficient
  | strong
deriving DecidableEq

/-! ### Names and schemas -/

/-- The name of a type of wrappers. -/
def WrapperType.name : WrapperType → Text
  | .passkeyPrf => "passkey_prf".toList
  | .stellarEd25519Signature => "stellar_ed25519_signature".toList
  | .recoveryFileSecret => "recovery_file_secret".toList
  | .recoveryKitPassword => "recovery_kit_password".toList
  | .evmSignature => "evm_signature".toList

/-- The name of a status of wrappers. -/
def WrapperStatus.name : WrapperStatus → Text
  | .active => "active".toList
  | .revoked => "revoked".toList

/-- The name of a derivation. -/
def Kdf.name : Kdf → Text
  | .hkdfSha256 => "HKDF-SHA256".toList
  | .pbkdf2Sha256 => "PBKDF2-SHA256".toList

/-- The value of an enumeration with a name. -/
def parseEnum {α : Type} (values : List α) (name : α → Text) (v : Json) : Option α :=
  v.asString?.bind fun s => values.find? fun a => name a = s

/-- The types of wrappers that the schema knows. -/
def wrapperTypes : List WrapperType :=
  [.passkeyPrf, .stellarEd25519Signature, .recoveryFileSecret, .recoveryKitPassword, .evmSignature]

/-- The value is a certain text. -/
def literal (t : Text) (v : Json) : Option Unit :=
  v.asString?.bind fun s => if s = t then some () else none

/-- A member that may be absent. -/
def optionalMember {α : Type} (name : Text) (parse : Json → Option α) (v : Json) :
    Option (Option α) :=
  match v.get? name with
  | none => some none
  | some w => (parse w).map some

/-- Read a wrapper. -/
def vaultWrapperSchema (v : Json) : Option VaultWrapper := do
  let id ← (← v.get? "id".toList).asString?
  let type ← parseEnum wrapperTypes WrapperType.name (← v.get? "type".toList)
  let status ← parseEnum [.active, .revoked] WrapperStatus.name (← v.get? "status".toList)
  let kdf ← parseEnum [.hkdfSha256, .pbkdf2Sha256] Kdf.name (← v.get? "kdf".toList)
  let salt ← (← v.get? "salt".toList).asString?
  let wrappedKey ← (← v.get? "wrapped_key".toList).asString?
  let diagnosticOnly ← optionalMember "diagnostic_only".toList Json.asBool? v
  let metadata ← (← v.get? "metadata".toList).asObject?
  return ⟨id, type, status, kdf, salt, wrappedKey, diagnosticOnly, metadata⟩

/-- Read an envelope. -/
def encryptedVaultEnvelopeSchema (v : Json) : Option EncryptedVaultEnvelope := do
  literal "shade-encrypted-vault-v1".toList (← v.get? "version".toList)
  let vaultId ← (← v.get? "vault_id".toList).asNonempty?
  let privyUserId ← (← v.get? "privy_user_id".toList).asNonempty?
  let cipher ← v.get? "cipher".toList
  literal "AES-256-GCM".toList (← cipher.get? "name".toList)
  let iv ← (← cipher.get? "iv".toList).asString?
  let tagLength ← (← cipher.get? "tagLength".toList).asInt?
  guard (tagLength = 128)
  let aad ← (← v.get? "aad".toList).asObject?
  let ciphertext ← (← v.get? "ciphertext".toList).asNonempty?
  let wrappers ← (← (← v.get? "wrappers".toList).asArray?).mapM vaultWrapperSchema
  return ⟨vaultId, privyUserId, iv, aad, ciphertext, wrappers⟩

/-! ### Envelopes as JSON -/

/-- A wrapper as a JSON value. -/
def VaultWrapper.toJson (w : VaultWrapper) : Json :=
  .object ([("id".toList, .string w.id), ("type".toList, .string w.type.name),
    ("status".toList, .string w.status.name), ("kdf".toList, .string w.kdf.name),
    ("salt".toList, .string w.salt), ("wrapped_key".toList, .string w.wrappedKey)]
    ++ (w.diagnosticOnly.map fun b => ("diagnostic_only".toList, Json.bool b)).toList
    ++ [("metadata".toList, .object w.metadata)])

/-- An envelope as a JSON value. -/
def EncryptedVaultEnvelope.toJson (env : EncryptedVaultEnvelope) : Json :=
  .object [("version".toList, .string "shade-encrypted-vault-v1".toList),
    ("vault_id".toList, .string env.vaultId), ("privy_user_id".toList, .string env.privyUserId),
    ("cipher".toList, .object [("name".toList, .string "AES-256-GCM".toList),
      ("iv".toList, .string env.iv), ("tagLength".toList, .number 128)]),
    ("aad".toList, .object env.aad), ("ciphertext".toList, .string env.ciphertext),
    ("wrappers".toList, .array (env.wrappers.map VaultWrapper.toJson))]

/-! ### Checks -/

/-- The names of secrets. -/
def plaintextForbidden : List Text :=
  ["owner_secret".toList, "spend_secret".toList, "blinding".toList, "nonce".toList,
    "note_preimage".toList, "vault_master_key".toList, "raw_signature".toList,
    "private_key".toList, "secret".toList]

/-- The answer to a request that is refused. -/
structure ApiError where
  statusCode : ℕ
  error : Text
deriving DecidableEq

/-- Refuse a value in which the name of a secret occurs. -/
def assertNoPlaintextNoteFields (v : Json) : Except ApiError Unit :=
  match v.findName plaintextForbidden with
  | some k =>
      .error ⟨500, "plaintext note field \"".toList ++ k
        ++ "\" is forbidden in stored/transmitted vault data".toList⟩
  | none => .ok ()

/-- What a log shows in place of a value. -/
def redactedText : Json := .string "[REDACTED]".toList

/-- The value of a member with this name is not shown in a log. -/
def isRedacted (k : Text) : Bool :=
  plaintextForbidden.any (fun n => n = k) || k = "wrapped_key".toList || k = "ciphertext".toList

mutual

/-- Replace the values of members that a log may not show. -/
def redactVaultForLogs : Json → Json
  | .array items => .array (redactItems items)
  | .object fields => .object (redactFields fields)
  | v => v

/-- Replace such values in the items of an array. -/
def redactItems : List Json → List Json
  | [] => []
  | v :: vs => redactVaultForLogs v :: redactItems vs

/-- Replace such values among the members of an object. The assignment of `__proto__` sets the
prototype of the new object and gives it no member. -/
def redactFields : List (Text × Json) → List (Text × Json)
  | [] => []
  | (k, v) :: rest =>
      if isRedacted k then (k, redactedText) :: redactFields rest
      else if k = "__proto__".toList then redactFields rest
      else (k, redactVaultForLogs v) :: redactFields rest

end

/-- Check an envelope that the schema has read. -/
def validateVaultEnvelope (env : EncryptedVaultEnvelope) : Except ApiError Unit :=
  if env.vaultId = [] ∨ env.privyUserId = [] ∨ env.ciphertext = [] then
    .error ⟨500, "malformed envelope".toList⟩
  else
    assertNoPlaintextNoteFields env.toJson

/-- A number that was read from a text of the environment. -/
inductive Setting where
  | finite (q : ℚ)
  | infinity
  | negativeInfinity
  | notANumber

/-- A natural number is less than the number of a setting. -/
def Setting.exceeds : Setting → ℕ → Prop
  | .finite q, n => (n : ℚ) < q
  | .infinity, _ => True
  | .negativeInfinity, _ => False
  | .notANumber, _ => False

instance (m : Setting) (n : ℕ) : Decidable (m.exceeds n) :=
  match m with
  | .finite q => inferInstanceAs (Decidable ((n : ℚ) < q))
  | .infinity => isTrue trivial
  | .negativeInfinity => isFalse id
  | .notANumber => isFalse id

/-- The settings of the recovery policy. -/
structure RecoverySettings where
  mainnet : Bool
  min : Setting
  allowEvmOnly : Bool

/-- Whether wrappers suffice for a recovery. -/
def evaluateRecoveryPolicy (wrappers : List VaultWrapper) (opts : RecoverySettings) :
    RecoveryPolicyStatus :=
  let active := wrappers.filter fun w => w.status = .active
  let nonEvm := active.filter fun w => w.type ≠ .evmSignature ∧ w.diagnosticOnly ≠ some true
  let strong := active.any fun w => w.type = .passkeyPrf ∨ w.type = .stellarEd25519Signature
  if opts.allowEvmOnly = false ∧ nonEvm.length = 0 then .insufficient
  else if opts.min.exceeds nonEvm.length then .insufficient
  else if opts.mainnet then
    if 2 ≤ nonEvm.length ∧ strong then .strong else .insufficient
  else
    if strong ∧ 2 ≤ nonEvm.length then .strong else .sufficient

/-- Check an envelope and evaluate its recovery policy. -/
def ingestEnvelope (opts : RecoverySettings) (env : EncryptedVaultEnvelope) :
    Except ApiError RecoveryPolicyStatus := do
  validateVaultEnvelope env
  assertNoPlaintextNoteFields env.toJson
  return evaluateRecoveryPolicy env.wrappers opts

end Shade.Api
