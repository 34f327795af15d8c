import Shade.Host
import Shade.Library.Store

/-!
# Tokens

The balances and allowances of standard SEP-41 tokens, for all token contracts at once. A
balance belongs to a token and a holder; an allowance to a token, an owner and a spender,
and it lapses after its expiration ledger.
-/

namespace Shade.Token

open Txn

/-- The balances and allowances of all tokens. -/
structure Ledger where
  balances : Store (Address × Address) ℕ
  allowances : Store (Address × Address × Address) (ℕ × ℕ)
deriving DecidableEq, Repr

namespace Ledger

def balance (l : Ledger) (token holder : Address) : ℕ :=
  (l.balances.get (token, holder)).getD 0

/-- The allowance in force at a ledger sequence. -/
def allowance (l : Ledger) (sequence : ℕ) (token owner spender : Address) : ℕ :=
  match l.allowances.get (token, owner, spender) with
  | some (amount, expiration) => if expiration < sequence then 0 else amount
  | none => 0

/-- Set a balance. -/
def setBalance (l : Ledger) (token holder : Address) (n : ℕ) : Ledger :=
  { l with balances := l.balances.set (token, holder) n }

/-- Take an amount from a holder and give it to another. -/
def move (l : Ledger) (token source target : Address) (n : ℕ) : Ledger :=
  let debited := l.setBalance token source (l.balance token source - n)
  debited.setBalance token target (debited.balance token target + n)

/-- Create an amount for a holder. -/
def mint (l : Ledger) (token holder : Address) (n : ℕ) : Ledger :=
  l.setBalance token holder (l.balance token holder + n)

/-- Set an allowance. -/
def setAllowance (l : Ledger) (token owner spender : Address) (n expiration : ℕ) : Ledger :=
  { l with allowances := l.allowances.set (token, owner, spender) (n, expiration) }

@[simp]
theorem balance_setAllowance (l : Ledger) (token owner spender : Address) (n expiration : ℕ)
    (token' holder : Address) :
  (l.setAllowance token owner spender n expiration).balance token' holder
    = l.balance token' holder
  := rfl

theorem allowance_setAllowance_self (l : Ledger) {sequence expiration : ℕ}
    (h : sequence ≤ expiration) (token owner spender : Address) (n : ℕ) :
  (l.setAllowance token owner spender n expiration).allowance sequence token owner spender = n
  := by
  simp only [allowance, setAllowance, Store.get_set_self]
  rw [if_neg (by omega)]

theorem balance_setBalance (l : Ledger) (token holder : Address) (n : ℕ)
    (token' holder' : Address) :
  (l.setBalance token holder n).balance token' holder'
    = if token = token' ∧ holder = holder' then n else l.balance token' holder'
  := by
  simp only [balance, setBalance, Store.get_set, Prod.mk.injEq]
  split
  · rfl
  · rfl

theorem balance_mint (l : Ledger) (token holder : Address) (n : ℕ) (token' holder' : Address) :
  (l.mint token holder n).balance token' holder'
    = l.balance token' holder' + if token = token' ∧ holder = holder' then n else 0
  := by
  rw [mint, balance_setBalance]
  split
  · next h =>
      obtain ⟨rfl, rfl⟩ := h
      rfl
  · rfl

/-- A movement that is covered takes its amount from the source and gives it to the
target. -/
theorem balance_move {l : Ledger} {token source : Address} {n : ℕ}
    (hn : n ≤ l.balance token source) (target token' holder : Address) :
  ((l.move token source target n).balance token' holder : ℤ)
    = l.balance token' holder - (if token = token' ∧ source = holder then (n : ℤ) else 0)
      + if token = token' ∧ target = holder then (n : ℤ) else 0
  := by
  rw [move, balance_setBalance, balance_setBalance, balance_setBalance]
  by_cases htoken : token = token'
  · subst htoken
    by_cases hsource : source = holder
    · subst hsource
      by_cases htarget : target = source
      · simp [htarget]
        omega
      · simp [htarget]
        omega
    · by_cases htarget : target = holder
      · subst htarget
        simp [hsource]
      · simp [hsource, htarget]
  · simp [htoken]

/-- A movement that is covered takes its amount from the source at most, in its own token,
and nothing if the source is also the target. -/
theorem le_balance_move {l : Ledger} {token source : Address} {n : ℕ}
    (hn : n ≤ l.balance token source) (target token' : Address) :
  l.balance token' source
    ≤ (l.move token source target n).balance token' source
      + if token = token' ∧ target ≠ source then n else 0
  := by
  have hmove := balance_move hn target token' source
  by_cases htoken : token = token'
  · by_cases htarget : target = source
    · simp [htoken, htarget] at hmove ⊢
      omega
    · simp [htoken, htarget] at hmove ⊢
      omega
  · simp [htoken] at hmove ⊢
    omega

end Ledger

/-- The invocations of the tokens. -/
abbrev Exec := Txn Ledger Panic

/-- The largest balance. -/
def maxBalance : ℕ := 2 ^ 127 - 1

/-- Move an amount between two holders; refused if it is negative or not covered, or if the
target would hold more than a balance can. -/
def transfer (token source target : Address) (amount : I128) : Exec Unit := do
  require (0 ≤ amount.val) (.fault .token)
  require (amount.val ≤ (← read (·.balance token source))) (.fault .token)
  require ((← read (·.balance token target)) + amount.val ≤ maxBalance) (.fault .token)
  write (·.move token source target amount.val.toNat)

/-- Allow a spender an amount until a ledger sequence. -/
def approve (sequence : ℕ) (token owner spender : Address) (amount : I128) (expiration : ℕ) :
    Exec Unit := do
  require (0 ≤ amount.val) (.fault .token)
  require (amount.val = 0 ∨ sequence ≤ expiration) (.fault .token)
  write (·.setAllowance token owner spender amount.val.toNat expiration)

/-- Move an amount of an owner's out of a spender's allowance. -/
def transferFrom (sequence : ℕ) (token spender owner target : Address) (amount : I128) :
    Exec Unit := do
  require (0 ≤ amount.val) (.fault .token)
  let allowance ← read (·.allowance sequence token owner spender)
  require (amount.val ≤ allowance) (.fault .token)
  let entry ← read (·.allowances.get (token, owner, spender))
  write (·.setAllowance token owner spender (allowance - amount.val.toNat)
    ((entry.map Prod.snd).getD 0))
  transfer token owner target amount

/-! ### What the invocations do to balances -/

/-- A holder can pay an amount to another. -/
def Ledger.CanPay (l : Ledger) (token source target : Address) (amount : I128) : Prop :=
  0 ≤ amount.val ∧ amount.val ≤ l.balance token source
    ∧ l.balance token target + amount.val ≤ maxBalance

theorem transfer_ok {token source target : Address} {amount : I128} {l l' : Ledger} {u : Unit} :
  (transfer token source target amount).run l = .ok (u, l')
    ↔ l.CanPay token source target amount ∧ l' = l.move token source target amount.val.toNat
  := by
  simp only [transfer, read_bind_ok, require_bind_ok, write_ok, Ledger.CanPay, and_assoc]

theorem approve_ok {sequence : ℕ} {token owner spender : Address} {amount : I128}
    {expiration : ℕ} {l l' : Ledger} {u : Unit} :
  (approve sequence token owner spender amount expiration).run l = .ok (u, l')
    ↔ 0 ≤ amount.val ∧ (amount.val = 0 ∨ sequence ≤ expiration)
      ∧ l' = l.setAllowance token owner spender amount.val.toNat expiration
  := by
  simp only [approve, require_bind_ok, write_ok]

/-- A transfer out of an allowance moves an amount that is allowed and covered. -/
theorem transferFrom_ok {sequence : ℕ} {token spender owner target : Address} {amount : I128}
    {l l' : Ledger} {u : Unit}
    (h : (transferFrom sequence token spender owner target amount).run l = .ok (u, l')) :
  0 ≤ amount.val ∧ amount.val ≤ l.allowance sequence token owner spender
    ∧ amount.val ≤ l.balance token owner
    ∧ ∃ n expiration, l' = (l.setAllowance token owner spender n expiration).move token owner
        target amount.val.toNat
  := by
  simp only [transferFrom, read_bind_ok, require_bind_ok, write_bind_ok] at h
  obtain ⟨hpos, hallowed, htransfer⟩ := h
  obtain ⟨⟨-, hcovered, -⟩, hl'⟩ := transfer_ok.mp htransfer
  exact ⟨hpos, hallowed, hcovered, _, _, hl'⟩

end Shade.Token
