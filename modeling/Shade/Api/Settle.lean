import Shade.Api.Quotes
import Shade.Committee.Settler

/-!
# Settlements of intents

The route that settles an intent through the lifecycle of a quote, one statement at a time, on the
database on which the settler enqueues jobs for matches. The statements of any number of requests
and polls are interleaved in any way, and any of them may raise an error. Between them intents are
inserted and linked to sessions, and the other requests, the matching rounds and the workers write
what they like. Rows of `intents` are never deleted.

What the route does once the settlement is inserted (the logs, the owner of the row) is left out.
-/

namespace Shade.Api

open Text Table Committee

/-! ### Tables -/

/-- A row of the table `intents`. Columns that do not matter for settlements are left out. -/
structure IntentLink where
  intentHash : Text
  userId : Option Uuid
  mpcSessionId : Option Text
deriving DecidableEq

/-- A row of the table `proof_jobs`. -/
structure ProofStatus where
  proofJobId : Text
  status : Text
deriving DecidableEq

/-- A row of the table `settlements`. -/
structure SettlementRecord where
  settlementId : Text
  intentHash : Text
  quoteId : Text
  fillId : Option Text
  proofJobId : Text
  nullifier : Text
  state : Text
deriving DecidableEq

/-- The other tables that the route reads. Of `root_audit_findings` the number of those that are
critical is read, of `nullifier_spends` the nullifiers, and of `mpc_intents` the identifiers of
those that are matched. -/
structure SettleTables where
  criticalRootMismatchCount : ℕ
  quotes : List Quote
  acceptances : List QuoteAcceptance
  fills : List Fill
  proofJobs : List ProofStatus
  spentNullifiers : List Text
  matchedIntents : List Text

/-! ### Requests -/

/-- A request to settle an intent. -/
structure SettleRequest where
  userId : Uuid
  intentHash : Text
  quoteId : Text
  fillId : Option Text
  fillReceiptHash : Option Text
  proofJobId : Text
  nullifier : Text
deriving DecidableEq

/-- The spends are not blocked by the root auditor. -/
def SettleTables.assertRootHealthy (tables : SettleTables) : Except ApiError Unit :=
  ensure (tables.criticalRootMismatchCount = 0)
    ⟨409, "ROOT_MISMATCH_CRITICAL: ".toList ++ decimal tables.criticalRootMismatchCount
      ++ " unresolved root-audit finding(s); spends are blocked".toList⟩

/-- The intent exists and is one of the user. -/
def checkIntent (r : SettleRequest) : Option IntentLink → Except ApiError Unit
  | none => .error ⟨404, "intent not found".toList⟩
  | some i =>
      ensure (i.userId = none ∨ i.userId = some r.userId)
        ⟨403, "authenticated user does not own this intent".toList⟩

/-- The quote exists and is one for the intent. -/
def checkQuote (r : SettleRequest) : Option Quote → Except ApiError Unit
  | none => .error ⟨404, "quote not found".toList⟩
  | some q => ensure (q.intentHash = r.intentHash) ⟨409, "quote does not belong to intent".toList⟩

/-- The fill exists, is executed, and has the hash of the receipt, if one is given. -/
def checkFill (r : SettleRequest) : Option Fill → Except ApiError Unit
  | none => .error ⟨409, "fill not found for quote".toList⟩
  | some f => do
      ensure (f.state = "EXECUTED".toList) ⟨409, "fill is not executed".toList⟩
      ensure (∀ hash, r.fillReceiptHash = some hash → hash = [] ∨ f.fillReceiptHash = hash)
        ⟨409, "fill receipt hash mismatch".toList⟩

/-- The lifecycle of the quote allows the settlement. -/
def checkSettlement (r : SettleRequest) (intent : Option IntentLink) (quote : Option Quote)
    (accepted : Bool) (fill : Option Fill) : Except ApiError Unit := do
  checkIntent r intent
  checkQuote r quote
  ensure (accepted = true) ⟨409, "quote is not accepted".toList⟩
  checkFill r fill

/-- The proof is ready. -/
def checkProof : Option ProofStatus → Except ApiError Unit
  | none => .error ⟨409, "proof job is not ready".toList⟩
  | some p => ensure (p.status = "ready".toList) ⟨409, "proof job is not ready".toList⟩

/-- The settlement of a request. -/
def SettleRequest.settlement (r : SettleRequest) : SettlementRecord where
  settlementId := deterministicId "settle".toList [r.intentHash, r.quoteId, r.nullifier]
  intentHash := r.intentHash
  quoteId := r.quoteId
  fillId := r.fillId
  proofJobId := r.proofJobId
  nullifier := r.nullifier
  state := "SETTLEMENT_SUBMITTED".toList

/-- Where a request is: the statement that it runs next, and what it has found. -/
inductive SettlePhase where
  | idle
  | countMismatches (r : SettleRequest)
  | selectIntent (r : SettleRequest)
  | selectQuote (r : SettleRequest) (intent : Option IntentLink)
  | selectAccepted (r : SettleRequest) (intent : Option IntentLink) (quote : Option Quote)
  | selectFill (r : SettleRequest) (intent : Option IntentLink) (quote : Option Quote)
      (accepted : Bool)
  | selectProof (r : SettleRequest)
  | selectNullifier (r : SettleRequest)
  | selectLink (r : SettleRequest)
  | selectMatch (r : SettleRequest)
  | insertSettlement (r : SettleRequest)

/-! ### The two paths together -/

/-- The polls of the settler with their database, the other tables, the requests to settle, and
their answers. -/
structure PathsWorld where
  settler : SettlerWorld
  intents : List IntentLink
  tables : SettleTables
  settlements : List SettlementRecord
  requests : ℕ → SettlePhase
  replies : List (SettleRequest × Except ApiError Text)

/-- Nothing has happened yet. -/
def PathsWorld.initial : PathsWorld where
  settler := SettlerWorld.initial
  intents := []
  tables := ⟨0, [], [], [], [], [], []⟩
  settlements := []
  requests := fun _ => .idle
  replies := []

/-- What happens next: a poll or one of the others that use the database of the settler takes a
step, an intent is inserted or linked to a session, the other tables are written, or a request
arrives, runs its next statement, or has this statement raise an error. -/
inductive PathsAction where
  | settler (a : SettlerAction)
  | insertIntent (row : IntentLink)
  | linkIntent (intentHash mpcSessionId : Text)
  | write (tables : SettleTables)
  | receive (k : ℕ) (r : SettleRequest)
  | proceed (k : ℕ)
  | raise (k : ℕ)

namespace PathsWorld

variable (w : PathsWorld)

/-- A request moves to a phase. -/
def move (k : ℕ) (p : SettlePhase) : PathsWorld :=
  { w with requests := Function.update w.requests k p }

/-- A request is answered. -/
def reply (k : ℕ) (r : SettleRequest) (answer : Except ApiError Text) : PathsWorld :=
  { w.move k .idle with replies := w.replies ++ [(r, answer)] }

/-- A request moves to a phase if a check passes. -/
def check (k : ℕ) (r : SettleRequest) (c : Except ApiError Unit) (p : SettlePhase) : PathsWorld :=
  match c with
  | .error e => w.reply k r (.error e)
  | .ok _ => w.move k p

/-- The row of an intent. -/
def findIntent (intentHash : Text) : Option IntentLink :=
  w.intents.find? fun i => i.intentHash = intentHash

/-- The rows to which a settlement has to refer. -/
def Refers (s : SettlementRecord) : Prop :=
  (∃ i ∈ w.intents, i.intentHash = s.intentHash) ∧ (∃ q ∈ w.tables.quotes, q.quoteId = s.quoteId)
    ∧ (∀ fillId, s.fillId = some fillId → ∃ f ∈ w.tables.fills, f.fillId = fillId)
    ∧ ∃ p ∈ w.tables.proofJobs, p.proofJobId = s.proofJobId

instance (s : SettlementRecord) : Decidable (w.Refers s) :=
  inferInstanceAs (Decidable ((∃ i ∈ w.intents, _) ∧ (∃ q ∈ w.tables.quotes, _)
    ∧ (∀ fillId, s.fillId = some fillId → ∃ f ∈ w.tables.fills, _)
    ∧ ∃ p ∈ w.tables.proofJobs, _))

/-- Two settlements have the same key. -/
def SameKey (s t : SettlementRecord) : Prop := t.settlementId = s.settlementId

instance (s t : SettlementRecord) : Decidable (SameKey s t) :=
  inferInstanceAs (Decidable (t.settlementId = s.settlementId))

/-- Insert a settlement, unless its key is taken. The table has no column for the hash of a receipt,
so a request that gives one raises an error. -/
def insertSettlement (k : ℕ) (r : SettleRequest) : PathsWorld :=
  if r.fillReceiptHash = none ∧ ((∃ t ∈ w.settlements, SameKey r.settlement t)
      ∨ w.Refers r.settlement) then
    { w with settlements := insertOrNothing (SameKey r.settlement) r.settlement w.settlements }.reply
      k r (.ok r.settlement.settlementId)
  else
    w.reply k r (.error databaseError)

end PathsWorld

/-- The next statement of a request. -/
def settleProceed (k : ℕ) (w : PathsWorld) : Option PathsWorld :=
  match w.requests k with
  | .idle => none
  | .countMismatches r => some (w.check k r w.tables.assertRootHealthy (.selectIntent r))
  | .selectIntent r => some (w.move k (.selectQuote r (w.findIntent r.intentHash)))
  | .selectQuote r intent =>
      some (w.move k (.selectAccepted r intent
        (w.tables.quotes.find? fun q => q.quoteId = r.quoteId)))
  | .selectAccepted r intent quote =>
      some (w.move k (.selectFill r intent quote
        (w.tables.acceptances.any fun a => a.quoteId = r.quoteId)))
  | .selectFill r intent quote accepted =>
      some (w.check k r
        (checkSettlement r intent quote accepted (lastFill r.quoteId w.tables.fills))
        (.selectProof r))
  | .selectProof r =>
      some (w.check k r
        (checkProof (w.tables.proofJobs.find? fun p => p.proofJobId = r.proofJobId))
        (.selectNullifier r))
  | .selectNullifier r =>
      some (w.check k r
        (ensure (w.tables.spentNullifiers.any (fun n => n = r.nullifier) = false)
          ⟨409, "nullifier already spent".toList⟩)
        (.selectLink r))
  | .selectLink r =>
      match (w.findIntent r.intentHash).bind IntentLink.mpcSessionId with
      | none | some [] => some (w.move k (.insertSettlement r))
      | some _ => some (w.move k (.selectMatch r))
  | .selectMatch r =>
      some (w.check k r
        (ensure (w.tables.matchedIntents.any (fun id => id = r.intentHash) = true)
          ⟨409, "MPC match not yet confirmed — intent is awaiting private committee matching".toList⟩)
        (.insertSettlement r))
  | .insertSettlement r => some (w.insertSettlement k r)

/-- One step. An intent whose key is taken is not inserted. An error counts as no mismatch and as no
spend, and ends the request at any other statement. -/
def pathsStep : PathsAction → PathsWorld → Option PathsWorld
  | .settler (.insertIntent _), _ => none
  | .settler a, w => (settlerStep a w.settler).map fun settler => { w with settler := settler }
  | .insertIntent row, w =>
      if ∃ i ∈ w.intents, i.intentHash = row.intentHash then
        none
      else
        (settlerStep (.insertIntent row.intentHash) w.settler).map fun settler =>
          { w with settler := settler, intents := w.intents ++ [row] }
  | .linkIntent intentHash mpcSessionId, w =>
      some
        { w with
          intents := updateWhere (fun i : IntentLink => i.intentHash = intentHash)
            (fun i => { i with mpcSessionId := some mpcSessionId }) w.intents }
  | .write tables, w => some { w with tables := tables }
  | .receive k r, w =>
      match w.requests k with
      | .idle => some (w.move k (.countMismatches r))
      | _ => none
  | .proceed k, w => settleProceed k w
  | .raise k, w =>
      match w.requests k with
      | .idle => none
      | .countMismatches r => some (w.move k (.selectIntent r))
      | .selectNullifier r => some (w.move k (.selectLink r))
      | _ => some (w.move k .idle)

end Shade.Api
