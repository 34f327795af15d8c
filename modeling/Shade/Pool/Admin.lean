import Shade.Pool.Internal

/-!
# Administration

The entry points only the administrator can use: they configure the verifiers, the
messenger, the committee, the solvers and the assets of the pool, pause it, and hand it
over.
-/

namespace Shade.Pool

open Txn

section

variable (tx : Tx)

/-- Change the storage of the pool in the name of the administrator. -/
def adminSet (f : State → State) : Exec Unit := do
  requireAdmin tx
  write (·.mapPool f)

/-- Set the messenger used for exits. -/
def setCctpMessenger (tokenMessengerMinter : Address) : Exec Unit :=
  adminSet tx fun s => { s with tmm := some tokenMessengerMinter }

/-- Set the verifier of private transfers. -/
def setTransferVerifier (verifier : Address) : Exec Unit :=
  adminSet tx fun s => { s with xverifier := some verifier }

/-- Set the verifier of deposits. -/
def setDepositVerifier (verifier : Address) : Exec Unit :=
  adminSet tx fun s => { s with depVerifier := some verifier }

/-- Authorize or revoke a solver key. -/
def setAuthorizedSolver (solverPubkey : Word) (allowed : Bool) : Exec Unit :=
  adminSet tx fun s => { s with solver := s.solver.set solverPubkey allowed }

/-- Set the association root that spends must carry. -/
def setAssociationRoot (associationRoot : Word) : Exec Unit :=
  adminSet tx fun s => { s with assocRoot := some associationRoot }

/-- Set the keys of the committee. -/
def setCommittee (pubkeys : List Word) : Exec Unit :=
  adminSet tx fun s => { s with mpcCmte := some pubkeys }

/-- Set the verifier of committee settlements. -/
def setMpcVerifier (verifier : Address) : Exec Unit :=
  adminSet tx fun s => { s with mpcVerifier := some verifier }

/-- Set the verifier of priced committee settlements. -/
def setMpcPricedVerifier (verifier : Address) : Exec Unit :=
  adminSet tx fun s => { s with mpcPverifier := some verifier }

/-- Replace the code of the pool. -/
def upgrade (newWasmHash : Word) : Exec Unit :=
  adminSet tx fun s => { s with wasm := some newWasmHash }

def pause : Exec Unit :=
  adminSet tx fun s => { s with paused := true }

def unpause : Exec Unit :=
  adminSet tx fun s => { s with paused := false }

/-- Hand the pool over to another administrator. -/
def transferAdmin (newAdmin : Address) : Exec Unit :=
  adminSet tx fun s => { s with admin := newAdmin }

/-- Register the token of an asset, once, with the note supply zero. -/
def registerAsset (assetId : Word) (token : Address) : Exec Unit := do
  requireAdmin tx
  require ((← read (·.pool.assetToken)).get assetId = none) (panicErr .assetAlreadyRegistered)
  write (·.mapPool fun s => { s with assetToken := s.assetToken.set assetId token })
  write (·.setSupply assetId ⟨0, by decide, by decide⟩)
  write (·.emit (.regasset assetId token))

end

variable {tx : Tx} {w w' : World}

theorem adminSet_ok {f : State → State} {u : Unit} :
  (adminSet tx f).run w = .ok (u, w') ↔ w.pool.admin ∈ tx.auth ∧ w' = w.mapPool f
  := by
  simp only [adminSet, requireAdmin_bind_ok, write_ok]

/-- A registration is of an asset that had no token, and sets its supply to zero. -/
theorem registerAsset_ok {assetId : Word} {token : Address} {u : Unit} :
  (registerAsset tx assetId token).run w = .ok (u, w')
    ↔ w.pool.admin ∈ tx.auth ∧ w.pool.assetToken.get assetId = none
      ∧ w' = ((w.mapPool fun s => { s with assetToken := s.assetToken.set assetId token }).setSupply
          assetId ⟨0, by decide, by decide⟩).emit (.regasset assetId token)
  := by
  simp only [registerAsset, requireAdmin_bind_ok, read_bind_ok, require_bind_ok, write_bind_ok,
    write_ok]

end Shade.Pool
