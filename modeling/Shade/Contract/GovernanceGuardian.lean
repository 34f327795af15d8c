import Shade.Host
import Shade.Library.Store

/-!
# The governance guardian

The contract that pauses and upgrades other contracts on behalf of a set of guardians. A pause
takes effect as soon as it has as many approvals as the threshold says; an upgrade has to wait
for a number of ledgers after that, and can be cancelled until it is executed.

The contracts the guardian calls are not fixed: they are states of a type `Outside`, and
`invoke` is what a call by the guardian does to them, or `none` if it aborts. `World` keeps,
for reference, the calls the guardian has made and the events it has published.
-/

namespace Shade.GovernanceGuardian

open Txn

/-- The sum of two 32-bit numbers, if it is one. -/
def checkedAdd (m n : UInt32) : Option UInt32 :=
  if m.toNat + n.toNat < 2 ^ 32 then some (m + n) else none

theorem checkedAdd_eq_some {m n k : UInt32} :
  checkedAdd m n = some k ↔ m.toNat + n.toNat = k.toNat
  := by
  unfold checkedAdd
  split
  · next h =>
      rw [Option.some.injEq, ← UInt32.toNat_inj, UInt32.toNat_add, Nat.mod_eq_of_lt h]
  · next h =>
      constructor
      · intro hk
        cases hk
      · intro hk
        exact absurd (hk ▸ k.toNat_lt) h

/-- The errors of the guardian. -/
inductive Error where
  | notInitialized
  | notGuardian
  | alreadyApproved
  | proposalNotFound
  | thresholdNotMet
  | timelockNotElapsed
  | alreadyExecuted
  | invalidThreshold
deriving DecidableEq, Repr

/-- The code of an error: its position in the list above, from `1`. -/
def Error.code (e : Error) : ℕ := e.ctorIdx + 1

/-- The panic with the code of an error. -/
def panicErr (e : Error) : Panic := .error e.code

/-! ### Storage -/

/-- A proposal to pause a contract, or to unpause it. -/
structure PauseProposal where
  contractId : Address
  reasonHash : Word
  unpause : Bool
  approvals : List Address
  executed : Bool
deriving DecidableEq, Repr

/-- A proposal to upgrade a contract. The timelock counts from the ledger at which the quorum
is recorded. -/
structure UpgradeProposal where
  contractId : Address
  newWasmHash : Word
  approvals : List Address
  quorumAtLedger : Option UInt32
  executed : Bool
  cancelled : Bool
deriving DecidableEq, Repr

/-- The storage of the guardian. The maps are its persistent entries. -/
structure State where
  admin : Option Address
  guardians : Option (List Address)
  thresh : Option UInt32
  updelay : Option UInt32
  nextpid : Option UInt32
  pauseProposal : Store UInt32 PauseProposal
  upgradeProposal : Store UInt32 UpgradeProposal
deriving DecidableEq

/-- The storage after an initialization. -/
def State.initialized (s : State) (admin : Address) (guardians : List Address)
    (threshold upgradeDelayLedgers : UInt32) : State :=
  { s with
    admin := some admin
    guardians := some guardians
    thresh := some threshold
    updelay := some upgradeDelayLedgers
    nextpid := some 0 }

/-- A pause proposal as it is made, with the approval of the guardian that makes it. -/
def PauseProposal.proposed (guardian contractId : Address) (reasonHash : Word)
    (unpause : Bool) : PauseProposal where
  contractId := contractId
  reasonHash := reasonHash
  unpause := unpause
  approvals := [guardian]
  executed := false

/-- An upgrade proposal as it is made, with the approval of the guardian that makes it. -/
def UpgradeProposal.proposed (guardian contractId : Address) (newWasmHash : Word) :
    UpgradeProposal where
  contractId := contractId
  newWasmHash := newWasmHash
  approvals := [guardian]
  quorumAtLedger := none
  executed := false
  cancelled := false

/-- The functions the guardian calls, with their arguments. -/
inductive Method where
  | pause (reasonHash : Word)
  | unpause
  | upgrade (newWasmHash : Word)
deriving DecidableEq, Repr

/-- A call the guardian makes. -/
structure Invocation where
  contractId : Address
  method : Method
deriving DecidableEq, Repr

/-- The events of the guardian, with their topics and data. -/
inductive Event where
  | pause (id : UInt32) (contractId : Address) (unpause : Bool)
  | upquorum (id : UInt32) (contractId : Address)
  | upcancel (id : UInt32) (guardian : Address)
  | upgraded (id : UInt32) (contractId : Address)
deriving DecidableEq, Repr

/-- The guardian and what surrounds it. -/
structure World (Outside : Type) where
  state : State
  sequence : UInt32
  outside : Outside
  invocations : List Invocation
  events : List Event

/-- The invocations of the guardian. -/
abbrev Exec (Outside : Type) := Txn (World Outside) Panic

namespace World

variable {Outside : Type} (w : World Outside)

/-- The world of a guardian that has just been deployed. -/
def deployed (sequence : UInt32) (outside : Outside) : World Outside where
  state :=
    { admin := none
      guardians := none
      thresh := none
      updelay := none
      nextpid := none
      pauseProposal := Store.empty
      upgradeProposal := Store.empty }
  sequence := sequence
  outside := outside
  invocations := []
  events := []

def guardians : List Address := w.state.guardians.getD []

def threshold : UInt32 := w.state.thresh.getD 1

def upgradeDelay : UInt32 := w.state.updelay.getD 0

def nextProposalId : UInt32 := w.state.nextpid.getD 0

def getPauseProposal (id : UInt32) : Option PauseProposal := w.state.pauseProposal.get id

def getUpgradeProposal (id : UInt32) : Option UpgradeProposal := w.state.upgradeProposal.get id

/-- Change the storage of the guardian. -/
@[simps]
def mapState (f : State → State) : World Outside :=
  { w with state := f w.state }

/-- Write a pause proposal. -/
@[simps!]
def setPause (id : UInt32) (p : PauseProposal) : World Outside :=
  w.mapState fun s => { s with pauseProposal := s.pauseProposal.set id p }

/-- Write an upgrade proposal. -/
@[simps!]
def setUpgrade (id : UInt32) (p : UpgradeProposal) : World Outside :=
  w.mapState fun s => { s with upgradeProposal := s.upgradeProposal.set id p }

/-- Set the id of the next proposal. -/
@[simps!]
def countProposal (next : UInt32) : World Outside :=
  w.mapState fun s => { s with nextpid := some next }

/-- Note down a call that leaves the other contracts in the given state. -/
@[simps]
def invoked (i : Invocation) (outside : Outside) : World Outside :=
  { w with outside := outside, invocations := w.invocations ++ [i] }

/-- Publish an event. -/
@[simps]
def emit (e : Event) : World Outside :=
  { w with events := w.events ++ [e] }

end World

/-! ### The contract -/

section

variable {Outside : Type} (invoke : List Address → Invocation → Outside → Option Outside)
  (auth : List Address)

/-- Call another contract. -/
def invokeContract (i : Invocation) : Exec Outside Unit := do
  let outside ← unwrap (invoke auth i (← read World.outside)) (.fault .callee)
  write (·.invoked i outside)

def requireAdmin : Exec Outside Unit := do
  let admin ← unwrap (← read (·.state.admin)) (panicErr .notInitialized)
  require (admin ∈ auth) (.fault .auth)

def requireIsGuardian (guardian : Address) : Exec Outside Unit := do
  require (guardian ∈ (← read World.guardians)) (panicErr .notGuardian)

/-- Abort unless the address is a guardian and authorizes the call. -/
def requireGuardianAuth (guardian : Address) : Exec Outside Unit := do
  requireIsGuardian guardian
  require (guardian ∈ auth) (.fault .auth)

/-- The id of the next proposal, which is then used up. -/
def nextId : Exec Outside UInt32 := do
  let id ← read World.nextProposalId
  let next ← unwrap (checkedAdd id 1) (.fault .overflow)
  write (·.countProposal next)
  pure id

/-- Set the administrator, the guardians, the threshold and the delay of upgrades, once. -/
def initializeGuardian (admin : Address) (guardians : List Address)
    (threshold upgradeDelayLedgers : UInt32) : Exec Outside Unit := do
  require ((← read (·.state.admin)) = none) (.message "already initialized")
  require (admin ∈ auth) (.fault .auth)
  require (0 < threshold.toNat ∧ threshold.toNat ≤ guardians.length)
    (panicErr .invalidThreshold)
  write (·.mapState (·.initialized admin guardians threshold upgradeDelayLedgers))

/-- Add a guardian, unless it is one. -/
def addGuardian (guardian : Address) : Exec Outside Unit := do
  requireAdmin auth
  let guardians ← read World.guardians
  if guardian ∈ guardians then
    pure ()
  else
    write (·.mapState fun s => { s with guardians := some (guardians ++ [guardian]) })

/-- Remove a guardian, if enough of them are left for the threshold. -/
def removeGuardian (guardian : Address) : Exec Outside Unit := do
  requireAdmin auth
  let kept := (← read World.guardians).filter (· ≠ guardian)
  require ((← read World.threshold).toNat ≤ kept.length) (panicErr .invalidThreshold)
  write (·.mapState fun s => { s with guardians := some kept })

/-- Set the threshold. -/
def setThreshold (threshold : UInt32) : Exec Outside Unit := do
  requireAdmin auth
  let guardians ← read World.guardians
  require (0 < threshold.toNat ∧ threshold.toNat ≤ guardians.length)
    (panicErr .invalidThreshold)
  write (·.mapState fun s => { s with thresh := some threshold })

/-- The call that a pause proposal asks for. -/
def PauseProposal.invocation (p : PauseProposal) : Invocation where
  contractId := p.contractId
  method := if p.unpause then .unpause else .pause p.reasonHash

/-- Execute a pause proposal if it has enough approvals. -/
def tryExecutePause (id : UInt32) (proposal : PauseProposal) : Exec Outside Unit := do
  if proposal.approvals.length < (← read World.threshold).toNat then
    pure ()
  else do
    invokeContract invoke auth proposal.invocation
    write (·.setPause id { proposal with executed := true })
    write (·.emit (.pause id proposal.contractId proposal.unpause))

def proposePause (guardian contractId : Address) (reasonHash : Word) (unpause : Bool) :
    Exec Outside UInt32 := do
  requireGuardianAuth auth guardian
  let id ← nextId
  let proposal := PauseProposal.proposed guardian contractId reasonHash unpause
  write (·.setPause id proposal)
  tryExecutePause invoke auth id proposal
  pure id

def approvePause (guardian : Address) (proposalId : UInt32) : Exec Outside Unit := do
  requireGuardianAuth auth guardian
  let proposal ← unwrap (← read (·.getPauseProposal proposalId)) (panicErr .proposalNotFound)
  require (proposal.executed = false) (panicErr .alreadyExecuted)
  require (guardian ∉ proposal.approvals) (panicErr .alreadyApproved)
  let proposal := { proposal with approvals := proposal.approvals ++ [guardian] }
  write (·.setPause proposalId proposal)
  tryExecutePause invoke auth proposalId proposal

/-- Record the quorum of an upgrade proposal as soon as it has enough approvals. -/
def checkUpgradeQuorum (id : UInt32) (proposal : UpgradeProposal) : Exec Outside Unit := do
  if proposal.quorumAtLedger = none
      ∧ (← read World.threshold).toNat ≤ proposal.approvals.length then do
    let sequence ← read World.sequence
    write (·.setUpgrade id { proposal with quorumAtLedger := some sequence })
    write (·.emit (.upquorum id proposal.contractId))
  else
    pure ()

def proposeUpgrade (guardian contractId : Address) (newWasmHash : Word) :
    Exec Outside UInt32 := do
  requireGuardianAuth auth guardian
  let id ← nextId
  let proposal := UpgradeProposal.proposed guardian contractId newWasmHash
  write (·.setUpgrade id proposal)
  checkUpgradeQuorum id proposal
  pure id

def approveUpgrade (guardian : Address) (proposalId : UInt32) : Exec Outside Unit := do
  requireGuardianAuth auth guardian
  let proposal ← unwrap (← read (·.getUpgradeProposal proposalId)) (panicErr .proposalNotFound)
  require (proposal.executed = false ∧ proposal.cancelled = false) (panicErr .alreadyExecuted)
  require (guardian ∉ proposal.approvals) (panicErr .alreadyApproved)
  let proposal := { proposal with approvals := proposal.approvals ++ [guardian] }
  write (·.setUpgrade proposalId proposal)
  checkUpgradeQuorum proposalId proposal

/-- Cancel an upgrade that is not executed. -/
def cancelUpgrade (guardian : Address) (proposalId : UInt32) : Exec Outside Unit := do
  requireGuardianAuth auth guardian
  let proposal ← unwrap (← read (·.getUpgradeProposal proposalId)) (panicErr .proposalNotFound)
  require (proposal.executed = false) (panicErr .alreadyExecuted)
  write (·.setUpgrade proposalId { proposal with cancelled := true })
  write (·.emit (.upcancel proposalId guardian))

/-- Execute an upgrade whose quorum is recorded and whose timelock has elapsed. Anyone can. -/
def executeUpgrade (proposalId : UInt32) : Exec Outside Unit := do
  let proposal ← unwrap (← read (·.getUpgradeProposal proposalId)) (panicErr .proposalNotFound)
  require (proposal.executed = false ∧ proposal.cancelled = false) (panicErr .alreadyExecuted)
  let quorumLedger ← unwrap proposal.quorumAtLedger (panicErr .thresholdNotMet)
  let unlocked ← unwrap (checkedAdd quorumLedger (← read World.upgradeDelay)) (.fault .overflow)
  require (unlocked ≤ (← read World.sequence)) (panicErr .timelockNotElapsed)
  invokeContract invoke auth ⟨proposal.contractId, .upgrade proposal.newWasmHash⟩
  write (·.setUpgrade proposalId { proposal with executed := true })
  write (·.emit (.upgraded proposalId proposal.contractId))

end

/-! ### What the steps of a call check -/

section

variable {Outside α : Type} {invoke : List Address → Invocation → Outside → Option Outside}
  {auth : List Address} {w w' : World Outside} {b : α}

/-- The administrator is known and authorizes the call. -/
def World.AdminAuth (w : World Outside) (auth : List Address) : Prop :=
  ∃ admin, w.state.admin = some admin ∧ admin ∈ auth

theorem requireAdmin_bind_ok {f : Unit → Exec Outside α} :
  (requireAdmin auth >>= f).run w = .ok (b, w')
    ↔ w.AdminAuth auth ∧ (f ()).run w = .ok (b, w')
  := by
  simp only [requireAdmin, bind_assoc, read_bind_ok, unwrap_bind_ok, require_bind_ok,
    World.AdminAuth]
  tauto

theorem requireGuardianAuth_bind_ok {guardian : Address} {f : Unit → Exec Outside α} :
  (requireGuardianAuth auth guardian >>= f).run w = .ok (b, w')
    ↔ (guardian ∈ w.guardians ∧ guardian ∈ auth) ∧ (f ()).run w = .ok (b, w')
  := by
  simp only [requireGuardianAuth, requireIsGuardian, bind_assoc, read_bind_ok, require_bind_ok]
  tauto

theorem nextId_bind_ok {f : UInt32 → Exec Outside α} :
  (nextId >>= f).run w = .ok (b, w')
    ↔ ∃ next : UInt32, w.nextProposalId.toNat + 1 = next.toNat
      ∧ (f w.nextProposalId).run (w.countProposal next) = .ok (b, w')
  := by
  simp only [nextId, bind_assoc, read_bind_ok, unwrap_bind_ok, write_bind_ok, pure_bind,
    checkedAdd_eq_some]
  rfl

theorem invokeContract_bind_ok {i : Invocation} {f : Unit → Exec Outside α} :
  (invokeContract invoke auth i >>= f).run w = .ok (b, w')
    ↔ ∃ outside, invoke auth i w.outside = some outside
      ∧ (f ()).run (w.invoked i outside) = .ok (b, w')
  := by
  simp only [invokeContract, bind_assoc, read_bind_ok, unwrap_bind_ok, write_bind_ok]

/-- What becomes of a pause proposal with its approvals: it waits for more of them, or it is
executed. -/
inductive PauseAttempt (invoke : List Address → Invocation → Outside → Option Outside)
    (auth : List Address) (w : World Outside) (id : UInt32) (p : PauseProposal) :
    World Outside → Prop
  | waits (hfew : p.approvals.length < w.threshold.toNat) : PauseAttempt invoke auth w id p w
  | executes (outside : Outside) (hquorum : w.threshold.toNat ≤ p.approvals.length)
      (hinvoke : invoke auth p.invocation w.outside = some outside) :
      PauseAttempt invoke auth w id p
        (((w.invoked p.invocation outside).setPause id { p with executed := true }).emit
          (.pause id p.contractId p.unpause))

theorem tryExecutePause_ok {id : UInt32} {p : PauseProposal} {u : Unit} :
  (tryExecutePause invoke auth id p).run w = .ok (u, w') ↔ PauseAttempt invoke auth w id p w'
  := by
  rw [tryExecutePause, read_bind_ok]
  split
  · next hfew =>
      rw [pure_ok]
      constructor
      · rintro ⟨-, rfl⟩
        exact .waits hfew
      · rintro (hfew' | ⟨outside, hquorum, -⟩)
        · exact ⟨rfl, rfl⟩
        · omega
  · next hfew =>
      rw [invokeContract_bind_ok]
      constructor
      · rintro ⟨outside, hinvoke, h⟩
        rw [write_bind_ok, write_ok] at h
        rw [h]
        exact .executes outside (by omega) hinvoke
      · rintro (hfew' | ⟨outside, hquorum, hinvoke⟩)
        · omega
        · exact ⟨outside, hinvoke, rfl⟩

/-- The world after the quorum of an upgrade proposal is checked. -/
def World.recordQuorum (w : World Outside) (id : UInt32) (p : UpgradeProposal) : World Outside :=
  if p.quorumAtLedger = none ∧ w.threshold.toNat ≤ p.approvals.length then
    (w.setUpgrade id { p with quorumAtLedger := some w.sequence }).emit
      (.upquorum id p.contractId)
  else
    w

theorem checkUpgradeQuorum_ok {id : UInt32} {p : UpgradeProposal} {u : Unit} :
  (checkUpgradeQuorum id p).run w = .ok (u, w') ↔ w' = w.recordQuorum id p
  := by
  rw [checkUpgradeQuorum, read_bind_ok, World.recordQuorum]
  split
  · rw [read_bind_ok, write_bind_ok, write_ok]
  · rw [pure_ok]
    simp [eq_comm]

end

end Shade.GovernanceGuardian
