import Shade.Contract.GuardianRun
import Shade.Pool.Run

/-!
# The pool and the guardian

A pool and a governance guardian on one ledger, with the other contracts around them. The
guardian's calls of the pool go through the pool's exported functions, with the guardian as the
direct caller; its calls of other contracts may lead to further calls of the pool, of which the
guardian is not the direct caller. The address of the guardian authorizes a call of the pool
only where the guardian is the direct caller.

Every run of the two is a run of the guardian with the pool as what surrounds it.
-/

namespace Shade.Governed

open GovernanceGuardian (Invocation Method)

/-- The guardian together with the pool. -/
abbrev Joint := GovernanceGuardian.World Pool.World

/-- The name of the function the guardian calls. -/
def symbol : Method → String
  | .pause _ => "pause"
  | .unpause => "unpause"
  | .upgrade _ => "upgrade"

/-- The arguments the guardian calls the function with. -/
def arguments : Method → List Word
  | .pause reasonHash => [reasonHash]
  | .unpause => []
  | .upgrade newWasmHash => [newWasmHash]

/-- The function the pool exports under a name with a number of arguments, among those whose
names the guardian uses. -/
def exported : String → List Word → Option Pool.Config
  | "pause", [] => some .pause
  | "unpause", [] => some .unpause
  | "upgrade", [newWasmHash] => some (.upgrade newWasmHash)
  | _, _ => none

section

variable (host : Host) (guardian : Address)
  (others : List Address → Invocation → Pool.World → Option (List Pool.Action))

/-- An action in which the guardian is not the direct caller of the pool, and during which the
ledger does not move on. -/
def outsiderStep : Pool.Action → Pool.World → Option Pool.World
  | .call tx c, w => if guardian ∈ tx.auth then none else Pool.step host (.call tx c) w
  | .advance _, _ => none
  | a, w => Pool.step host a w

/-- What a call by the guardian does to the pool. The other contracts may abort the call; else
they act on the pool, each action taking effect if it is accepted. -/
def invoke (auth : List Address) (i : Invocation) (w : Pool.World) : Option Pool.World :=
  if i.contractId = host.self then do
    let c ← exported (symbol i.method) (arguments i.method)
    Pool.step host (.call ⟨guardian :: auth, none⟩ (.config c)) w
  else
    (others auth i w).map (Machine.run (outsiderStep host guardian) w)

/-- What can happen: a call of the guardian, something that happens to the pool without it, and
the ledger moving on. -/
inductive Action where
  | guardian (auth : List Address) (c : GovernanceGuardian.Call)
  | pool (a : Pool.Action)
  | advance (ledgers : ℕ)

/-- The ledger has moved on, for the guardian and for the pool. -/
def advanced (ledgers : ℕ) (w : Joint) : Joint :=
  { w with
    sequence := .ofNat (w.sequence.toNat + ledgers)
    outside := { w.outside with sequence := w.outside.sequence + ledgers } }

/-- The state after an action, if it is possible. -/
def step : Action → Joint → Option Joint
  | .guardian auth c, w =>
      if guardian ∈ auth then none else c.exec (invoke host guardian others) auth w
  | .pool a, w => (outsiderStep host guardian a w.outside).map fun o => { w with outside := o }
  | .advance ledgers, w =>
      if w.sequence.toNat + ledgers < 2 ^ 32 then some (advanced ledgers w) else none

/-- The state after a list of actions. -/
abbrev run (w : Joint) (actions : List Action) : Joint :=
  Machine.run (step host guardian others) w actions

/-! ### Runs of the guardian alone -/

/-- The actions of the guardian alone that do what an action does. -/
def trail (w : Joint) (a : Action) : List (GovernanceGuardian.Action Pool.World) :=
  match step host guardian others a w with
  | none => []
  | some w' =>
      match a with
      | .guardian auth c => [.call auth c]
      | .pool _ => [.elsewhere w'.outside]
      | .advance _ => [.advance w'.sequence, .elsewhere w'.outside]

/-- The actions of the guardian alone that do what a list of actions does. -/
abbrev trails (w : Joint) (actions : List Action) : List (GovernanceGuardian.Action Pool.World) :=
  Machine.trails (step host guardian others) (trail host guardian others) w actions

end

variable {host : Host} {guardian : Address}
  {others : List Address → Invocation → Pool.World → Option (List Pool.Action)}
  {w w' : Joint} {a : Action}

theorem run_concat (w : Joint) (actions : List Action) (a : Action) :
  run host guardian others w (actions ++ [a])
    = Machine.next (step host guardian others) (run host guardian others w actions) a
  := Machine.run_concat w actions a

theorem run_append (w : Joint) (before after : List Action) :
  run host guardian others w (before ++ after)
    = run host guardian others (run host guardian others w before) after
  := Machine.run_append w before after

theorem toNat_advanced {ledgers : ℕ} (h : w.sequence.toNat + ledgers < 2 ^ 32) :
  (advanced ledgers w).sequence.toNat = w.sequence.toNat + ledgers
  := UInt32.toNat_ofNat_of_lt' h

/-- A call that the guardian accepts is one that the guardian alone accepts. -/
theorem step_guardian {auth : List Address} {c : GovernanceGuardian.Call}
    (h : step host guardian others (.guardian auth c) w = some w') :
  c.exec (invoke host guardian others) auth w = some w'
  := by
  rw [step] at h
  split at h
  · cases h
  · exact h

/-- The ledger moves on as long as its number fits in 32 bits. -/
theorem step_advance {ledgers : ℕ}
    (h : step host guardian others (.advance ledgers) w = some w') :
  w.sequence.toNat + ledgers < 2 ^ 32 ∧ w' = advanced ledgers w
  := by
  rw [step] at h
  split at h
  · next hlt => exact ⟨hlt, (Option.some.inj h).symm⟩
  · cases h

/-- An action does what its trail does. -/
theorem next_eq_run_trail (w : Joint) (a : Action) :
  Machine.next (step host guardian others) w a
    = GovernanceGuardian.run (invoke host guardian others) w (trail host guardian others w a)
  := by
  cases h : step host guardian others a w with
  | none =>
      rw [Machine.next_of_none h, trail, h]
      rfl
  | some w' =>
      rw [Machine.next_of_some h, trail, h]
      cases a with
      | guardian auth c =>
          symm
          apply Machine.next_of_some (step_guardian h)
      | pool a =>
          obtain ⟨o, -, rfl⟩ := Option.map_eq_some_iff.mp h
          rfl
      | advance ledgers =>
          obtain ⟨hlt, rfl⟩ := step_advance h
          have hle : w.sequence ≤ (advanced ledgers w).sequence := by
            rw [UInt32.le_iff_toNat_le, toNat_advanced hlt]
            apply Nat.le_add_right _ _
          have hadvance : GovernanceGuardian.step (invoke host guardian others)
              (.advance (advanced ledgers w).sequence) w
              = some { w with sequence := (advanced ledgers w).sequence } := by
            rw [GovernanceGuardian.step, if_pos hle]
          rw [GovernanceGuardian.run, Machine.run, Machine.next_of_some hadvance]
          rfl

/-- Every run of the guardian and the pool is a run of the guardian, with the pool as what
surrounds it. -/
theorem run_eq_run_trails (w : Joint) (actions : List Action) :
  run host guardian others w actions
    = GovernanceGuardian.run (invoke host guardian others) w
        (trails host guardian others w actions)
  := Machine.run_eq_run_trails next_eq_run_trail w actions

end Shade.Governed
