import Shade.Host
import Shade.Library.Machine
import Shade.Library.Store
import Shade.Library.Text

/-!
# The intent escrow

The contract that keeps the records of a request for quotes: intents, quotes, which quote was
accepted for an intent, locks of solvers and failures. It has an administrator, whom nothing but
the initialization looks at: everybody may call everything else.
-/

namespace Shade.IntentEscrow

open Txn

structure Intent where
  expiryLedger : UInt32
  policyId : Word
  intentCommitment : Word
deriving DecidableEq, Repr

structure Quote where
  solverId : Text
  validUntilLedger : UInt32
deriving DecidableEq, Repr

/-- The storage of the escrow. -/
structure State where
  admin : Option Address
  vault : Option Address
  nullifiers : Option Address
  intents : Store Word Intent
  quotes : Store Word Quote
  accepted : Store Word (Word × Word)
  locks : Store Word Word
  failed : Store Word Word
deriving DecidableEq, Repr

/-- Nothing has been stored. -/
def State.empty : State :=
  ⟨none, none, none, .empty, .empty, .empty, .empty, .empty⟩

inductive Event where
  | intent (intentHash : Word)
  | quote (quoteHash : Word)
  | accept (intentHash quoteHash : Word)
  | lock (quoteHash lockHash : Word)
  | fail (intentHash reasonHash : Word)
deriving DecidableEq, Repr

/-- The escrow, the number of the ledger and the events. -/
structure World where
  escrow : State
  sequence : ℕ
  events : List Event
deriving DecidableEq, Repr

namespace World

variable (w : World)

/-- Change the storage. -/
def mapEscrow (f : State → State) : World := { w with escrow := f w.escrow }

/-- Publish an event. -/
def emit (e : Event) : World := { w with events := w.events ++ [e] }

end World

/-- The invocations of the escrow. -/
abbrev Exec := Txn World Panic

/-- Set the administrator and the addresses, once. -/
def initializeEscrow (auth : Address → Prop) [DecidablePred auth]
    (admin vault nullifierRegistry : Address) : Exec Unit := do
  require ((← read (·.escrow.admin)) = none) (.message "already initialized")
  require (auth admin) (.fault .auth)
  write (·.mapEscrow fun s => { s with
    admin := some admin
    vault := some vault
    nullifiers := some nullifierRegistry })

/-- Register an intent under a hash that is not taken. -/
def registerIntent (intentHash : Word) (intent : Intent) : Exec Unit := do
  require ((← read (·.escrow.intents)).get intentHash = none) (.message "intent exists")
  write (·.mapEscrow fun s => { s with intents := s.intents.set intentHash intent })
  write (·.emit (.intent intentHash))

/-- Register a quote that is still valid under a hash that is not taken. -/
def registerQuote (quoteHash : Word) (quote : Quote) : Exec Unit := do
  require ((← read (·.sequence)) ≤ quote.validUntilLedger.toNat) (.message "expired")
  require ((← read (·.escrow.quotes)).get quoteHash = none) (.message "quote exists")
  write (·.mapEscrow fun s => { s with quotes := s.quotes.set quoteHash quote })
  write (·.emit (.quote quoteHash))

/-- Accept a quote for an intent for which none was accepted. -/
def acceptQuote (intentHash quoteHash userSignatureHash : Word) : Exec Unit := do
  let intent ← unwrap ((← read (·.escrow.intents)).get intentHash) (.fault .unwrap)
  let quote ← unwrap ((← read (·.escrow.quotes)).get quoteHash) (.fault .unwrap)
  let sequence ← read (·.sequence)
  require (sequence ≤ intent.expiryLedger.toNat ∧ sequence ≤ quote.validUntilLedger.toNat)
    (.message "expired")
  require ((← read (·.escrow.accepted)).get intentHash = none) (.message "already accepted")
  write (·.mapEscrow fun s => { s with
    accepted := s.accepted.set intentHash (quoteHash, userSignatureHash) })
  write (·.emit (.accept intentHash quoteHash))

/-- Note a lock for a quote, in place of the one before. -/
def lockSolverInventory (quoteHash lockHash : Word) : Exec Unit := do
  require ((← read (·.escrow.quotes)).get quoteHash ≠ none) (.message "quote missing")
  write (·.mapEscrow fun s => { s with locks := s.locks.set quoteHash lockHash })
  write (·.emit (.lock quoteHash lockHash))

/-- Note a failure for an intent, in place of the one before. -/
def markFailedRecoverable (intentHash reasonHash : Word) : Exec Unit := do
  write (·.mapEscrow fun s => { s with failed := s.failed.set intentHash reasonHash })
  write (·.emit (.fail intentHash reasonHash))

/-! ### Runs -/

/-- A call, with who has authorized it, or the ledger moving on. -/
inductive Action where
  | initializeEscrow (signers : List Address) (admin vault nullifierRegistry : Address)
  | registerIntent (intentHash : Word) (intent : Intent)
  | registerQuote (quoteHash : Word) (quote : Quote)
  | acceptQuote (intentHash quoteHash userSignatureHash : Word)
  | lockSolverInventory (quoteHash lockHash : Word)
  | markFailedRecoverable (intentHash reasonHash : Word)
  | advance (ledgers : ℕ)
deriving DecidableEq, Repr

/-- The world after an action, if it is possible. -/
def step : Action → World → Option World
  | .initializeEscrow signers admin vault nullifierRegistry, w =>
      attempt (initializeEscrow (· ∈ signers) admin vault nullifierRegistry) w
  | .registerIntent intentHash intent, w => attempt (registerIntent intentHash intent) w
  | .registerQuote quoteHash quote, w => attempt (registerQuote quoteHash quote) w
  | .acceptQuote intentHash quoteHash userSignatureHash, w =>
      attempt (acceptQuote intentHash quoteHash userSignatureHash) w
  | .lockSolverInventory quoteHash lockHash, w => attempt (lockSolverInventory quoteHash lockHash) w
  | .markFailedRecoverable intentHash reasonHash, w =>
      attempt (markFailedRecoverable intentHash reasonHash) w
  | .advance ledgers, w => some { w with sequence := w.sequence + ledgers }

/-- A fresh escrow in a ledger. -/
def World.init (sequence : ℕ) : World := ⟨.empty, sequence, []⟩

/-- The world after some actions. -/
abbrev run (w : World) (actions : List Action) : World := Machine.run step w actions

/-- What an action may do to the records that are made once. -/
inductive Change (w : World) : Action → World → Prop where
  | intent (intentHash : Word) (intent : Intent) (events : List Event)
      (hfresh : w.escrow.intents.get intentHash = none) :
      Change w (.registerIntent intentHash intent)
        ⟨{ w.escrow with intents := w.escrow.intents.set intentHash intent }, w.sequence, events⟩
  | quote (quoteHash : Word) (quote : Quote) (events : List Event)
      (hfresh : w.escrow.quotes.get quoteHash = none)
      (hvalid : w.sequence ≤ quote.validUntilLedger.toNat) :
      Change w (.registerQuote quoteHash quote)
        ⟨{ w.escrow with quotes := w.escrow.quotes.set quoteHash quote }, w.sequence, events⟩
  | accept (intentHash quoteHash userSignatureHash : Word) (intent : Intent) (quote : Quote)
      (events : List Event) (hfresh : w.escrow.accepted.get intentHash = none)
      (hintent : w.escrow.intents.get intentHash = some intent)
      (hquote : w.escrow.quotes.get quoteHash = some quote)
      (hexpiry : w.sequence ≤ intent.expiryLedger.toNat)
      (hvalid : w.sequence ≤ quote.validUntilLedger.toNat) :
      Change w (.acceptQuote intentHash quoteHash userSignatureHash)
        ⟨{ w.escrow with
            accepted := w.escrow.accepted.set intentHash (quoteHash, userSignatureHash) },
          w.sequence, events⟩
  | other (a : Action) (w' : World) (hle : w.sequence ≤ w'.sequence)
      (hintents : w'.escrow.intents = w.escrow.intents)
      (hquotes : w'.escrow.quotes = w.escrow.quotes)
      (haccepted : w'.escrow.accepted = w.escrow.accepted)
      (hlocks : ∀ q l, w'.escrow.locks.get q = some l →
        w.escrow.locks.get q = some l ∨ w.escrow.quotes.get q ≠ none)
      (ha : ∀ i q s, a ≠ .acceptQuote i q s) : Change w a w'

/-- Everything that a step may do. -/
theorem step_change {w w' : World} {a : Action} (h : step a w = some w') :
  Change w a w'
  := by
  cases a with
  | initializeEscrow signers admin vault nullifierRegistry =>
      obtain ⟨u, h⟩ := attempt_eq_some.mp h
      simp only [initializeEscrow, read_bind_ok, require_bind_ok, write_ok] at h
      obtain ⟨-, -, rfl⟩ := h
      exact Change.other _ _ le_rfl rfl rfl rfl (fun _ _ => .inl) (by simp)
  | registerIntent intentHash intent =>
      obtain ⟨u, h⟩ := attempt_eq_some.mp h
      simp only [registerIntent, read_bind_ok, require_bind_ok, write_bind_ok, write_ok] at h
      obtain ⟨hfresh, rfl⟩ := h
      exact Change.intent intentHash intent _ hfresh
  | registerQuote quoteHash quote =>
      obtain ⟨u, h⟩ := attempt_eq_some.mp h
      simp only [registerQuote, read_bind_ok, require_bind_ok, write_bind_ok, write_ok] at h
      obtain ⟨hvalid, hfresh, rfl⟩ := h
      exact Change.quote quoteHash quote _ hfresh hvalid
  | acceptQuote intentHash quoteHash userSignatureHash =>
      obtain ⟨u, h⟩ := attempt_eq_some.mp h
      simp only [acceptQuote, read_bind_ok, unwrap_bind_ok, require_bind_ok, write_bind_ok,
        write_ok] at h
      obtain ⟨intent, hintent, quote, hquote, ⟨hexpiry, hvalid⟩, hfresh, rfl⟩ := h
      exact Change.accept intentHash quoteHash userSignatureHash intent quote _ hfresh hintent
        hquote hexpiry hvalid
  | lockSolverInventory quoteHash lockHash =>
      obtain ⟨u, h⟩ := attempt_eq_some.mp h
      simp only [lockSolverInventory, read_bind_ok, require_bind_ok, write_bind_ok, write_ok] at h
      obtain ⟨hquote, rfl⟩ := h
      refine Change.other _ _ le_rfl rfl rfl rfl ?_ (by simp)
      intro q l hl
      change (w.escrow.locks.set quoteHash lockHash).get q = some l at hl
      rw [Store.get_set] at hl
      split at hl
      · next heq =>
          subst heq
          exact .inr hquote
      · exact .inl hl
  | markFailedRecoverable intentHash reasonHash =>
      change attempt (markFailedRecoverable intentHash reasonHash) w = some w' at h
      obtain ⟨u, h⟩ := attempt_eq_some.mp h
      simp only [markFailedRecoverable, write_bind_ok, write_ok] at h
      subst h
      exact Change.other _ _ le_rfl rfl rfl rfl (fun _ _ => .inl) (by simp)
  | advance ledgers =>
      obtain rfl := Option.some.inj h
      exact Change.other _ _ (Nat.le_add_right ..) rfl rfl rfl (fun _ _ => .inl) (by simp)

end Shade.IntentEscrow
