import Shade.Library.Machine
import Shade.Library.Text

/-!
# Inbound transfers

The flows by which a relayer completes a burn on the other chain: once the burn is attested, a flow
reads the balance of a contract, mints what the message of the burn says, reads the balance again
until it has grown, and registers the difference as a deposit. Any number of flows run at the same
time, their calls are interleaved with each other and with payments of the contracts, and any call
may fail. A read returns the balance at that moment.

`others` keeps, for reference, what others than the flow have added to the balance since it was
read first, up to the last time the flow reads it.
-/

namespace Shade.Cctp

/-- The two flows: the relayer has burnt itself, or a user has. -/
inductive FlowKind where
  | inbound
  | postUserBurn
deriving DecidableEq

/-- A flow. The hook of the burn forwards what is minted to `vault`. The value of the note is known
if the flow can prove the deposit. The legacy vault takes deposits without a proof. -/
structure Flow where
  kind : FlowKind
  vault : Text
  shielded : Bool
  amount6 : ℕ
  message : ℕ
  minted : ℕ
  coin : Option ℕ
deriving DecidableEq

/-- Where a flow is, and what it has read. -/
inductive FlowPhase where
  | attested
  | mint (before : ℤ)
  | readAfter (before : ℤ) (reads : ℕ)
  | prove (amount7 : ℤ)
  | register (amount7 : ℤ)
  | registered
  | failed
deriving DecidableEq

/-- The balances of the contracts, the messages that have been minted, the flows, and the deposits
that they have registered. -/
structure Relay where
  balances : Text → ℤ
  used : List ℕ
  phases : ℕ → FlowPhase
  deposits : List (ℕ × ℤ)
  others : ℕ → ℤ

/-- What happens next. -/
inductive RelayAction where
  | readBefore (k : ℕ)
  | mintAndForward (k : ℕ)
  | readAfter (k : ℕ)
  | prove (k : ℕ)
  | receiveCctpDeposit (k : ℕ)
  | raise (k : ℕ)
  | payout (contract : Text) (amount : ℕ)
  | transferIn (contract : Text) (amount : ℕ)

/-- An amount with seven decimals, of one with six. -/
def usdc6ToStellar7 (amount6 : ℕ) : ℕ := amount6 * 10

/-- The number of times that the balance is read again. -/
def rereads : ℕ := 10

/-- The flow has read the balance, and is going to read it again. -/
def FlowPhase.Between : FlowPhase → Prop
  | .mint _ => True
  | .readAfter _ _ => True
  | _ => False

instance : (p : FlowPhase) → Decidable p.Between
  | .mint _ => isTrue trivial
  | .readAfter _ _ => isTrue trivial
  | .attested => isFalse id
  | .prove _ => isFalse id
  | .register _ => isFalse id
  | .registered => isFalse id
  | .failed => isFalse id

variable (flows : ℕ → Flow) (locallyVerified : ℕ → ℤ → Bool)

namespace Relay

variable (w : Relay)

/-- A flow moves to a phase. -/
def move (k : ℕ) (p : FlowPhase) : Relay :=
  { w with phases := Function.update w.phases k p }

/-- The balance of a contract changes by what a flow, or somebody else, adds to it. -/
def change (source : Option ℕ) (contract : Text) (amount : ℤ) : Relay :=
  { w with
    balances := Function.update w.balances contract (w.balances contract + amount)
    others := fun k =>
      if some k ≠ source ∧ (flows k).vault = contract ∧ (w.phases k).Between then
        w.others k + amount
      else
        w.others k }

end Relay

/-- The flow accepts a difference of the balances. -/
def Flow.AcceptsDelta (f : Flow) (delta : ℤ) : Prop :=
  0 < delta ∧ (f.kind = .inbound → delta ≤ usdc6ToStellar7 f.amount6)

instance (f : Flow) (delta : ℤ) : Decidable (f.AcceptsDelta delta) :=
  inferInstanceAs (Decidable (_ ∧ _))

/-- The flow can prove the deposit of an amount, or does not have to. -/
def Flow.Proves (f : Flow) (amount7 : ℤ) : Prop :=
  (f.kind = .inbound ∧ f.shielded = false)
    ∨ f.coin.any (fun value => locallyVerified value amount7) = true

instance (f : Flow) (amount7 : ℤ) : Decidable (f.Proves locallyVerified amount7) :=
  inferInstanceAs (Decidable (_ ∨ _))

/-- One step. -/
def relayStep : RelayAction → Relay → Option Relay
  | .readBefore k, w =>
      match w.phases k with
      | .attested =>
          some { w.move k (.mint (w.balances (flows k).vault)) with
            others := Function.update w.others k 0 }
      | _ => none
  | .mintAndForward k, w =>
      match w.phases k with
      | .mint before =>
          if (flows k).message ∈ w.used then
            some (w.move k .failed)
          else
            some { (w.change flows (some k) (flows k).vault (flows k).minted).move k
                (.readAfter before 0) with
              used := w.used ++ [(flows k).message] }
      | _ => none
  | .readAfter k, w =>
      match w.phases k with
      | .readAfter before reads =>
          let after := w.balances (flows k).vault
          if after ≤ before ∧ reads < rereads then
            some (w.move k (.readAfter before (reads + 1)))
          else if (flows k).AcceptsDelta (after - before) then
            some (w.move k (.prove (after - before)))
          else
            some (w.move k .failed)
      | _ => none
  | .prove k, w =>
      match w.phases k with
      | .prove amount7 =>
          if (flows k).Proves locallyVerified amount7 then
            some (w.move k (.register amount7))
          else
            some (w.move k .failed)
      | _ => none
  | .receiveCctpDeposit k, w =>
      match w.phases k with
      | .register amount7 =>
          some { w.move k .registered with deposits := w.deposits ++ [(k, amount7)] }
      | _ => none
  | .raise k, w =>
      match w.phases k with
      | .registered => none
      | _ => some (w.move k .failed)
  | .payout contract amount, w =>
      if (amount : ℤ) ≤ w.balances contract then
        some (w.change flows none contract (-amount))
      else
        none
  | .transferIn contract amount, w => some (w.change flows none contract amount)

/-- The world after a list of steps. -/
def relayRun (w : Relay) (actions : List RelayAction) : Relay :=
  Machine.run (relayStep flows locallyVerified) w actions

/-- No flow has read a balance, and no deposit is registered. -/
structure Relay.Initial (w : Relay) : Prop where
  attested : ∀ k, w.phases k = .attested
  deposits : w.deposits = []

end Shade.Cctp
