import Shade.Api.Ids
import Shade.Api.Vaults

/-!
# Requests that are prepared

The routes that insert a row for a request of a user and answer with the key of the row: requests
for proofs, withdrawals, exits to another chain, intents and deposits. Each of the five tables has
a key that is computed from the request, and the idempotency key of the request is unique in it.
What else the routes do once the row is inserted (the log of transitions and activities, the job of
the prover, the link of an intent with a session of the committee) is left out.
-/

namespace Shade.Api

open Text Table

/-! ### Schemas -/

/-- A member of an object in a schema. -/
structure Member where
  name : Text
  required : Bool
  parse : Json → Option Json

/-- Read the members of a schema from an object, and drop all others. -/
def parseMembers (v : Json) : List Member → Option (List (Text × Json))
  | [] => some []
  | m :: ms =>
      match v.get? m.name with
      | none => if m.required then none else parseMembers v ms
      | some w => do
          let w' ← m.parse w
          let rest ← parseMembers v ms
          return (m.name, w') :: rest

/-- Read an object. -/
def objectSchema (members : List Member) (v : Json) : Option Json := do
  let _ ← v.asObject?
  let fields ← parseMembers v members
  return .object fields

/-- A text that is not empty. -/
def nonempty (v : Json) : Option Json := v.asNonempty?.map .string

/-- A text of decimal digits. -/
def decimalDigits (v : Json) : Option Json :=
  (v.asNonempty?.filter fun s => s.all Char.isDigit).map .string

/-- One of several texts. -/
def oneOf (values : List Text) (v : Json) : Option Json :=
  (v.asString?.filter fun s => values.any fun value => value = s).map .string

/-- An integer. -/
def integer (v : Json) : Option Json := v.asInt?.map fun z => .number z

/-- A positive integer. -/
def positiveInteger (v : Json) : Option Json :=
  (v.asInt?.filter fun z => 0 < z).map fun z => .number z

/-- An object with any members. -/
def anyRecord (v : Json) : Option Json := v.asObject?.map .object

/-- An array. -/
def arrayOf (parse : Json → Option Json) (v : Json) : Option Json := do
  let items ← (← v.asArray?).mapM parse
  return .array items

/-- The text `0x` and forty hexadecimal digits. -/
def evmAddress (v : Json) : Option Json :=
  (v.asString?.filter fun s => WalletType.evm.admits s).map .string

/-- The members of a request for a proof. -/
def proofRequestMembers : List Member :=
  [⟨"proof_type".toList, true, oneOf ["deposit_note_mint".toList, "withdraw_public".toList,
      "withdraw_cctp".toList, "rfq_settlement".toList, "private_transfer".toList]⟩,
    ⟨"public_inputs".toList, true, anyRecord⟩,
    ⟨"witness".toList, false, anyRecord⟩]

/-- The members of a withdrawal. -/
def withdrawalMembers : List Member :=
  [⟨"root".toList, true, nonempty⟩,
    ⟨"nullifier".toList, true, nonempty⟩,
    ⟨"asset_id".toList, true, nonempty⟩,
    ⟨"amount_public".toList, true, decimalDigits⟩,
    ⟨"recipient".toList, true, nonempty⟩,
    ⟨"relayer_fee".toList, true, decimalDigits⟩,
    ⟨"deadline_ledger".toList, true, positiveInteger⟩,
    ⟨"policy_id".toList, true, nonempty⟩,
    ⟨"pool_id".toList, true, nonempty⟩,
    ⟨"chain_id".toList, true, nonempty⟩]

/-- The members of an exit. -/
def cctpExitMembers : List Member :=
  [⟨"nullifier".toList, true, nonempty⟩,
    ⟨"destination_domain".toList, true, integer⟩,
    ⟨"destination_recipient".toList, true, nonempty⟩,
    ⟨"amount_usdc_7dp".toList, true, decimalDigits⟩,
    ⟨"relayer_fee".toList, true, decimalDigits⟩]

/-- The members of an encrypted share. -/
def encryptedShareMembers : List Member :=
  [⟨"nodeId".toList, true, nonempty⟩,
    ⟨"ciphertext".toList, true, nonempty⟩,
    ⟨"nonce".toList, true, nonempty⟩,
    ⟨"senderPubkey".toList, true, nonempty⟩]

/-- The members of an intent. -/
def intentMembers : List Member :=
  [⟨"intent_type".toList, true, oneOf ["PRIVATE_RFQ".toList]⟩,
    ⟨"version".toList, true, oneOf ["1.0".toList]⟩,
    ⟨"user_pubkey_commitment".toList, true, nonempty⟩,
    ⟨"input_asset".toList, true, nonempty⟩,
    ⟨"output_asset".toList, true, nonempty⟩,
    ⟨"amount_mode".toList, true, oneOf ["exact_in".toList, "exact_out".toList, "max_in".toList]⟩,
    ⟨"amount_commitment".toList, true, nonempty⟩,
    ⟨"min_output_commitment".toList, true, nonempty⟩,
    ⟨"expiry_ledger".toList, true, positiveInteger⟩,
    ⟨"allowed_solvers_root".toList, true, nonempty⟩,
    ⟨"compliance_policy_id".toList, true, nonempty⟩,
    ⟨"destination_commitment".toList, true, nonempty⟩,
    ⟨"replay_domain".toList, true, oneOf ["shade:stellar:testnet:rfq:v1".toList]⟩,
    ⟨"signature".toList, true, nonempty⟩,
    ⟨"note_nullifier".toList, false, nonempty⟩,
    ⟨"note_commitment".toList, false, nonempty⟩,
    ⟨"recipient_commitment".toList, false, nonempty⟩,
    ⟨"encrypted_shares".toList, false, arrayOf (objectSchema encryptedShareMembers)⟩]

/-- The members of a deposit. -/
def userDepositPrepareMembers : List Member :=
  [⟨"amount_usdc_6dp".toList, true, decimalDigits⟩,
    ⟨"source_chain".toList, true, nonempty⟩,
    ⟨"source_wallet_address".toList, true, evmAddress⟩,
    ⟨"vault_id".toList, true, nonempty⟩,
    ⟨"commitment".toList, true, nonempty⟩,
    ⟨"encrypted_note_payload_hash".toList, true, nonempty⟩,
    ⟨"policy_id".toList, true, nonempty⟩]

/-! ### Tables -/

/-- A row, with the data of a request. -/
structure Row (δ : Type) where
  id : Text
  idempotencyKey : Text
  data : δ
  userId : Option Uuid
  state : Text

/-- The data of a row of `proof_jobs`. -/
structure ProofData where
  proofType : Text
  publicInputsHash : Text
deriving DecidableEq

/-- The data of a row of `withdrawals`. -/
structure WithdrawalData where
  nullifier : Text
  amountUsdc7dp : ℕ
  recipient : Text
  relayerFee : ℕ
  deadlineLedger : ℤ
deriving DecidableEq

/-- The data of a row of `cctp_exits`. -/
structure ExitData where
  nullifier : Text
  destinationDomain : ℤ
  destinationRecipient : Text
  amountUsdc7dp : ℕ
  relayerFee : ℕ
deriving DecidableEq

/-- The data of a row of `intents`. -/
structure IntentData where
  encryptedPayload : Text
  publicCommitment : Json
  expiryLedger : ℤ
  policyId : Text
  userSignature : Text

/-- The data of a row of `cctp_deposits`. -/
structure DepositData where
  sourceChain : Text
  sourceWalletAddress : Text
  vaultId : Text
  sourceDomain : ℕ
  destinationDomain : ℕ
  assetId : Text
  amountUsdc6dp : ℕ
  amountUsdc7dp : ℕ
  commitment : Text
  encryptedNotePayloadHash : Text
  policyId : Text
deriving DecidableEq

/-- The tables, with those of the accounts and the number of the critical findings of the auditor
of roots. -/
structure Requests where
  proofJobs : List (Row ProofData)
  withdrawals : List (Row WithdrawalData)
  cctpExits : List (Row ExitData)
  intents : List (Row IntentData)
  cctpDeposits : List (Row DepositData)
  accounts : Accounts
  criticalRootMismatchCount : ℕ

variable {δ : Type}

/-- Two rows have the same key or the same idempotency key. -/
def Row.Clashes (r s : Row δ) : Prop := s.id = r.id ∨ s.idempotencyKey = r.idempotencyKey

instance (r s : Row δ) : Decidable (r.Clashes s) :=
  inferInstanceAs (Decidable (_ ∨ _))

/-- Insert a row, unless one of its keys is taken. -/
def insertGeneric (r : Row δ) (t : List (Row δ)) : List (Row δ) :=
  insertOrNothing r.Clashes r t

/-- Insert a row, unless its key is taken. If only its idempotency key is taken, the statement
raises an error. -/
def createUserDeposit (r : Row δ) (t : List (Row δ)) : Option (List (Row δ)) :=
  if ∃ s ∈ t, s.id = r.id then some t
  else if ∃ s ∈ t, s.idempotencyKey = r.idempotencyKey then none
  else some (t ++ [r])

/-! ### Routes -/

/-- The number that a text of digits denotes. -/
def digitsValue (t : Text) : ℕ := t.foldl (fun n c => 10 * n + (c.toNat - 48)) 0

/-- The text of a member, empty if there is none. -/
def textOf (name : Text) (body : Json) : Text := ((body.get? name).bind Json.asString?).getD []

/-- The integer of a member, zero if there is none. -/
def intOf (name : Text) (body : Json) : ℤ := ((body.get? name).bind Json.asInt?).getD 0

/-- The idempotency key of a request, from its header. -/
def idem (header : Option Text) : Except ApiError Text :=
  parsed (header.filter fun key => 8 ≤ (codeUnits key).length)

/-- Spends are refused while the auditor of roots has critical findings. -/
def assertRootHealthy (s : Requests) : Except ApiError Unit :=
  ensure (s.criticalRootMismatchCount = 0)
    ⟨409, "ROOT_MISMATCH_CRITICAL: ".toList ++ decimal s.criticalRootMismatchCount
      ++ " unresolved root-audit finding(s); spends are blocked".toList⟩

variable (platform : Platform)

/-- The row of a request for a proof. -/
def proofRow (userId : Uuid) (header : Option Text) (kind : Text) (body : Json) :
    Except ApiError (Row ProofData) := do
  let fields := (body.asObject?.getD []).filter fun f => f.1 ≠ "proof_type".toList
  let body ← parsed (objectSchema proofRequestMembers
    (.object (fields ++ [("proof_type".toList, .string kind)])))
  let key ← idem header
  let proofType := textOf "proof_type".toList body
  let inputsHash := hashJson platform ((body.get? "public_inputs".toList).getD .null)
  return {
    id := deterministicId "proof".toList [key, proofType, inputsHash]
    idempotencyKey := key
    data := ⟨proofType, inputsHash⟩
    userId := some userId
    state := "queued".toList }

/-- The row of a withdrawal. -/
def withdrawalRow (userId : Uuid) (header : Option Text) (body : Json) :
    Except ApiError (Row WithdrawalData) := do
  let body ← parsed (objectSchema withdrawalMembers body)
  let key ← idem header
  let nullifier := textOf "nullifier".toList body
  return {
    id := deterministicId "wd".toList [key, nullifier]
    idempotencyKey := key
    data := {
      nullifier := nullifier
      amountUsdc7dp := digitsValue (textOf "amount_public".toList body)
      recipient := textOf "recipient".toList body
      relayerFee := digitsValue (textOf "relayer_fee".toList body)
      deadlineLedger := intOf "deadline_ledger".toList body }
    userId := some userId
    state := "prepared".toList }

/-- The row of an exit. -/
def exitRow (userId : Uuid) (header : Option Text) (body : Json) :
    Except ApiError (Row ExitData) := do
  let body ← parsed (objectSchema cctpExitMembers body)
  let key ← idem header
  let nullifier := textOf "nullifier".toList body
  return {
    id := deterministicId "exit".toList [key, nullifier]
    idempotencyKey := key
    data := {
      nullifier := nullifier
      destinationDomain := intOf "destination_domain".toList body
      destinationRecipient := textOf "destination_recipient".toList body
      amountUsdc7dp := digitsValue (textOf "amount_usdc_7dp".toList body)
      relayerFee := digitsValue (textOf "relayer_fee".toList body) }
    userId := some userId
    state := "prepared".toList }

/-- The row of an intent. -/
def intentRow (userId : Uuid) (header : Option Text) (body : Json) :
    Except ApiError (Row IntentData) := do
  let body ← parsed (objectSchema intentMembers body)
  let key ← idem header
  return {
    id := hashJson platform body
    idempotencyKey := key
    data := {
      encryptedPayload := object
        [("ciphertext".toList, quote "client-encrypted-payload-required".toList)]
      publicCommitment := body
      expiryLedger := intOf "expiry_ledger".toList body
      policyId := textOf "compliance_policy_id".toList body
      userSignature := textOf "signature".toList body }
    userId := some userId
    state := "INTENT_CREATED".toList }

/-- The user has a wallet with an address. -/
def userOwnsWallet (userId : Uuid) (address : Text) (wallets : List UserWallet) : Bool :=
  wallets.any fun w => w.userId = userId ∧ toLower w.address = toLower address

/-- The row of a deposit, if the user may make it. -/
def depositRow (usdcAddress : Text) (userId : Uuid) (header : Option Text) (body : Json)
    (s : Requests) : Except ApiError (Row DepositData) := do
  let body ← parsed (objectSchema userDepositPrepareMembers body)
  let key ← idem header
  let sourceChain := textOf "source_chain".toList body
  let sourceWalletAddress := textOf "source_wallet_address".toList body
  let vaultId := textOf "vault_id".toList body
  let amount6 := digitsValue (textOf "amount_usdc_6dp".toList body)
  let commitment := textOf "commitment".toList body
  ensure (sourceChain = "arbitrum-sepolia".toList) ⟨400, "unsupported source_chain".toList⟩
  ensure (0 < amount6) ⟨400, "amount must be positive".toList⟩
  ensure (userOwnsWallet userId sourceWalletAddress s.accounts.userWallets = true)
    ⟨403, "source wallet not linked to user".toList⟩
  ensure ((getNoteVault userId vaultId s.accounts.noteVaults).isSome = true)
    ⟨403, "vault not owned by user".toList⟩
  ensure ((vaultDepositReady userId vaultId s.accounts.noteVaults).map DepositReadiness.ready
      = some true)
    ⟨409, "vault not deposit-ready".toList⟩
  assertRootHealthy s
  return {
    id := deterministicId "udep".toList [key, commitment]
    idempotencyKey := key
    data := {
      sourceChain := sourceChain
      sourceWalletAddress := sourceWalletAddress
      vaultId := vaultId
      sourceDomain := 3
      destinationDomain := 27
      assetId := usdcAddress
      amountUsdc6dp := amount6
      amountUsdc7dp := amount6 * 10
      commitment := commitment
      encryptedNotePayloadHash := textOf "encrypted_note_payload_hash".toList body
      policyId := textOf "policy_id".toList body }
    userId := some userId
    state := "prepared".toList }

/-- A request, by its route. -/
inductive PrepareRequest where
  | proof (kind : Text) (body : Json)
  | withdrawal (body : Json)
  | exit (body : Json)
  | intent (body : Json)
  | deposit (body : Json)

/-- A request of a user, with the header of the idempotency key. The database may raise an error
when the row is inserted. -/
structure PrepareCall where
  userId : Uuid
  idempotencyKey : Option Text
  request : PrepareRequest
  raises : Bool

/-- The error of a statement of the database. -/
def databaseError : ApiError := ⟨500, "internal error".toList⟩

/-- Insert the row of a request, and answer with its key. -/
def respond (raises : Bool) (r : Except ApiError (Row δ))
    (insert : Row δ → Option Requests) : Except ApiError (Text × Requests) := do
  let row ← r
  if raises then
    .error databaseError
  else
    match insert row with
    | none => .error databaseError
    | some s => .ok (row.id, s)

/-- Answer a request with the key of its row. -/
def prepare (usdcAddress : Text) (c : PrepareCall) (s : Requests) :
    Except ApiError (Text × Requests) :=
  match c.request with
  | .proof kind body =>
      respond c.raises (proofRow platform c.userId c.idempotencyKey kind body) fun r =>
        some { s with proofJobs := insertGeneric r s.proofJobs }
  | .withdrawal body =>
      respond c.raises (do assertRootHealthy s; withdrawalRow c.userId c.idempotencyKey body)
        fun r => some { s with withdrawals := insertGeneric r s.withdrawals }
  | .exit body =>
      respond c.raises (do assertRootHealthy s; exitRow c.userId c.idempotencyKey body)
        fun r => some { s with cctpExits := insertGeneric r s.cctpExits }
  | .intent body =>
      respond c.raises (intentRow platform c.userId c.idempotencyKey body) fun r =>
        some { s with intents := insertGeneric r s.intents }
  | .deposit body =>
      respond c.raises (depositRow usdcAddress c.userId c.idempotencyKey body s) fun r =>
        (createUserDeposit r s.cctpDeposits).map fun t => { s with cctpDeposits := t }

end Shade.Api
