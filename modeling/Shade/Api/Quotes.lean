import Shade.Api.Prepare

/-!
# Acceptances of quotes

The route by which a user accepts a quote of a solver for an intent. It runs one statement at a
time: the selection of the intent for its owner, the four selections of the lifecycle of the quote,
the insertion of the acceptance and that of the transition. The statements of any number of
requests are interleaved in any way, and any of them may raise an error.
-/

namespace Shade.Api

open Text Table

/-! ### Tables -/

/-- A row of the table `quotes`. -/
structure Quote where
  quoteId : Text
  intentHash : Text
  quoteHash : Text
  solverId : Text
  state : Text
  validUntilLedger : ℤ
deriving DecidableEq

/-- A row of the table `quote_acceptances`. -/
structure QuoteAcceptance where
  acceptanceId : Text
  quoteId : Text
  intentHash : Text
  userSignatureHash : Text
  userId : Uuid
deriving DecidableEq

/-- A row of the table `fills`. -/
structure Fill where
  fillId : Text
  quoteId : Text
  fillReceiptHash : Text
  state : Text
  destinationTxHash : Option Text
  createdAt : ℕ
deriving DecidableEq

/-- A row of the table `state_transitions`. -/
structure StateTransition where
  entityType : Text
  entityId : Text
  toState : Text
deriving DecidableEq

/-- The tables. -/
structure Rfq where
  intents : List (Row IntentData)
  quotes : List Quote
  acceptances : List QuoteAcceptance
  fills : List Fill
  transitions : List StateTransition

/-- The rows to which an acceptance has to refer. -/
def QuoteAcceptance.Refers (a : QuoteAcceptance) (db : Rfq) : Prop :=
  (∃ q ∈ db.quotes, q.quoteId = a.quoteId) ∧ ∃ i ∈ db.intents, i.id = a.intentHash

instance (a : QuoteAcceptance) (db : Rfq) : Decidable (a.Refers db) :=
  inferInstanceAs (Decidable ((∃ q ∈ db.quotes, _) ∧ ∃ i ∈ db.intents, _))

/-- Two acceptances have the same key or are for the same quote. -/
def QuoteAcceptance.Clashes (a b : QuoteAcceptance) : Prop :=
  b.acceptanceId = a.acceptanceId ∨ b.quoteId = a.quoteId

instance (a b : QuoteAcceptance) : Decidable (a.Clashes b) :=
  inferInstanceAs (Decidable (_ ∨ _))

/-- Insert an acceptance, unless its key or its quote is taken. -/
def insertAcceptance (a : QuoteAcceptance) (db : Rfq) : Option Rfq :=
  if (∃ b ∈ db.acceptances, a.Clashes b) ∨ a.Refers db then
    some { db with acceptances := insertOrNothing a.Clashes a db.acceptances }
  else
    none

/-- Insert a transition. -/
def Rfq.log (db : Rfq) (t : StateTransition) : Rfq :=
  { db with transitions := db.transitions ++ [t] }

/-! ### Requests -/

/-- A request to accept a quote. -/
structure AcceptRequest where
  userId : Uuid
  quoteId : Text
  intentHash : Text
  userSignatureHash : Text
deriving DecidableEq

/-- Read a request to accept a quote. -/
def quoteAcceptanceSchema (userId : Uuid) (quoteId : Text) (body : Json) :
    Option AcceptRequest := do
  let intentHash ← (← body.get? "intent_hash".toList).asNonempty?
  let userSignatureHash ← (← body.get? "user_signature_hash".toList).asNonempty?
  return ⟨userId, quoteId, intentHash, userSignatureHash⟩

/-- What the selections of the lifecycle have found. -/
structure RfqLifecycle where
  intent : Option (Row IntentData)
  quote : Option Quote
  accepted : Bool
  fill : Option Fill

/-- The user may use an intent. -/
def requireOwnedIntent (userId : Uuid) (intent : Option (Row IntentData)) :
    Except ApiError Unit :=
  match intent with
  | none => .error ⟨404, "intent not found".toList⟩
  | some i =>
      ensure (i.userId = none ∨ i.userId = some userId) ⟨403, "intent not owned by user".toList⟩

/-- The quote exists, it is one for the intent, and it is not accepted yet. -/
def checkLifecycle (r : AcceptRequest) (lc : RfqLifecycle) : Except ApiError Unit :=
  match lc.quote with
  | none => .error ⟨404, "quote not found".toList⟩
  | some q => do
      ensure (q.intentHash = r.intentHash) ⟨409, "quote does not belong to intent".toList⟩
      ensure (lc.accepted = false)
        ⟨409, "a quote is already accepted for this intent (immutable)".toList⟩

/-- The acceptance of a request. -/
def AcceptRequest.acceptance (r : AcceptRequest) : QuoteAcceptance where
  acceptanceId := deterministicId "accept".toList [r.quoteId, r.userSignatureHash]
  quoteId := r.quoteId
  intentHash := r.intentHash
  userSignatureHash := r.userSignatureHash
  userId := r.userId

/-- Where a request is: the statement that it runs next, and what it has found. -/
inductive AcceptPhase where
  | idle
  | selectOwner (r : AcceptRequest)
  | selectIntent (r : AcceptRequest)
  | selectQuote (r : AcceptRequest) (intent : Option (Row IntentData))
  | selectAccepted (r : AcceptRequest) (intent : Option (Row IntentData)) (quote : Option Quote)
  | selectFill (r : AcceptRequest) (intent : Option (Row IntentData)) (quote : Option Quote)
      (accepted : Bool)
  | insertAcceptance (r : AcceptRequest)
  | insertTransition (r : AcceptRequest)

/-- The tables, the requests that are processed, and the answers. -/
structure AcceptWorld where
  db : Rfq
  requests : ℕ → AcceptPhase
  replies : List (Except ApiError Text)

/-- What happens next: a request arrives, a request runs its next statement, or this statement
raises an error. -/
inductive AcceptAction where
  | receive (k : ℕ) (userId : Uuid) (quoteId : Text) (body : Json)
  | proceed (k : ℕ)
  | raise (k : ℕ)

namespace AcceptWorld

variable (w : AcceptWorld)

/-- A request moves to a phase. -/
def move (k : ℕ) (p : AcceptPhase) : AcceptWorld :=
  { w with requests := Function.update w.requests k p }

/-- Write the rows. -/
def write (db : Rfq) : AcceptWorld :=
  { w with db := db }

/-- A request is answered. -/
def reply (k : ℕ) (answer : Except ApiError Text) : AcceptWorld :=
  { w.move k .idle with replies := w.replies ++ [answer] }

/-- A request moves to a phase if a check passes. -/
def check (k : ℕ) (c : Except ApiError Unit) (p : AcceptPhase) : AcceptWorld :=
  match c with
  | .error e => w.reply k (.error e)
  | .ok _ => w.move k p

end AcceptWorld

/-- The last fill of a quote. -/
def lastFill (quoteId : Text) (fills : List Fill) : Option Fill :=
  (fills.filter fun f => f.quoteId = quoteId).argmax Fill.createdAt

/-- The next statement of a request. -/
def proceed (k : ℕ) (w : AcceptWorld) : Option AcceptWorld :=
  match w.requests k with
  | .idle => none
  | .selectOwner r =>
      some (w.check k
        (requireOwnedIntent r.userId (w.db.intents.find? fun i => i.id = r.intentHash))
        (.selectIntent r))
  | .selectIntent r =>
      some (w.move k (.selectQuote r (w.db.intents.find? fun i => i.id = r.intentHash)))
  | .selectQuote r intent =>
      some (w.move k (.selectAccepted r intent
        (w.db.quotes.find? fun q => q.quoteId = r.quoteId)))
  | .selectAccepted r intent quote =>
      some (w.move k (.selectFill r intent quote
        (w.db.acceptances.any fun a => a.quoteId = r.quoteId)))
  | .selectFill r intent quote accepted =>
      some (w.check k
        (checkLifecycle r ⟨intent, quote, accepted, lastFill r.quoteId w.db.fills⟩)
        (.insertAcceptance r))
  | .insertAcceptance r =>
      match insertAcceptance r.acceptance w.db with
      | none => some (w.reply k (.error databaseError))
      | some db => some ((w.write db).move k (.insertTransition r))
  | .insertTransition r =>
      some ((w.write (w.db.log ⟨"quote".toList, r.quoteId, "QUOTE_ACCEPTED".toList⟩)).reply k
        (.ok r.acceptance.acceptanceId))

/-- One step. -/
def acceptStep : AcceptAction → AcceptWorld → Option AcceptWorld
  | .receive k userId quoteId body, w =>
      match w.requests k with
      | .idle =>
          match quoteAcceptanceSchema userId quoteId body with
          | none => some (w.reply k (.error zodError))
          | some r => some (w.move k (.selectOwner r))
      | _ => none
  | .proceed k, w => proceed k w
  | .raise k, w =>
      match w.requests k with
      | .idle => none
      | _ => some (w.reply k (.error databaseError))

/-- The world after a list of steps. -/
def acceptRun (w : AcceptWorld) (actions : List AcceptAction) : AcceptWorld :=
  Machine.run acceptStep w actions

end Shade.Api
