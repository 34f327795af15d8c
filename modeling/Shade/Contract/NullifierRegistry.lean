import Shade.Host
import Shade.Library.Store

/-!
# The nullifier registry

The contract that records which nullifiers are spent, on behalf of the contracts its
administrator authorizes. A nullifier is the raw 32-byte word it is handed; once recorded
it stays recorded.
-/

namespace Shade.NullifierRegistry

open Txn

/-- The storage of the registry. -/
structure State where
  admin : Option Address
  paused : Bool
  authorized : Store Address Bool
  spent : Store Word Bool
deriving DecidableEq, Repr

/-- The invocations of the registry, given which addresses authorize them. -/
abbrev Exec := Txn State Panic

section

variable (auth : Address → Prop) [DecidablePred auth]

/-- Set the administrator, once. -/
def initializeRegistry (admin : Address) : Exec Unit := do
  require ((← read State.admin) = none) (.message "already initialized")
  require (auth admin) (.fault .auth)
  write fun s => { s with admin := some admin, paused := false }

def requireAdmin : Exec Unit := do
  let admin ← unwrap (← read State.admin) (.fault .unwrap)
  require (auth admin) (.fault .auth)

def requireNotPaused : Exec Unit := do
  require ((← read State.paused) = false) (.message "paused")

/-- Grant or revoke a contract the right to spend nullifiers. -/
def setAuthorizedSpender (spender : Address) (allowed : Bool) : Exec Unit := do
  requireAdmin auth
  if allowed then
    write fun s => { s with authorized := s.authorized.set spender true }
  else
    write fun s => { s with authorized := s.authorized.remove spender }

/-- The nullifier is recorded as spent. -/
def State.isSpent (s : State) (nullifier : Word) : Bool :=
  (s.spent.get nullifier).getD false

/-- Spend a nullifier exactly once. -/
def spend (caller : Address) (nullifier : Word) : Exec Bool := do
  requireNotPaused
  require (auth caller) (.fault .auth)
  require (((← read State.authorized).get caller).getD false) (.message "unauthorized spender")
  let spent ← read fun s => s.isSpent nullifier
  require (spent = false) (.message "nullifier spent")
  write fun s => { s with spent := s.spent.set nullifier true }
  pure true

def pause : Exec Unit := do
  requireAdmin auth
  write fun s => { s with paused := true }

def unpause : Exec Unit := do
  requireAdmin auth
  write fun s => { s with paused := false }

end

/-! ### What a spend does -/

/-- The registry lets a caller spend a nullifier. -/
def State.Admits (s : State) (caller : Address) (nullifier : Word) : Prop :=
  s.paused = false ∧ (s.authorized.get caller).getD false = true ∧ s.isSpent nullifier = false

/-- A spend returns exactly if the caller authorizes it and the registry admits it, and it
records the nullifier; nothing else changes. -/
theorem spend_ok {auth : Address → Prop} [DecidablePred auth] {caller : Address}
    {nullifier : Word} {s s' : State} {b : Bool} :
  (spend auth caller nullifier).run s = .ok (b, s')
    ↔ auth caller ∧ s.Admits caller nullifier ∧ b = true
      ∧ s' = { s with spent := s.spent.set nullifier true }
  := by
  simp only [spend, requireNotPaused, bind_assoc, read_bind_ok, require_bind_ok, write_bind_ok,
    pure_ok, State.Admits]
  tauto

theorem isSpent_set (s : State) (n n' : Word) :
  State.isSpent { s with spent := s.spent.set n true } n' = (decide (n = n') || s.isSpent n')
  := by
  simp only [State.isSpent, Store.get_set]
  by_cases h : n = n'
  · simp [h]
  · simp [h]

end Shade.NullifierRegistry
