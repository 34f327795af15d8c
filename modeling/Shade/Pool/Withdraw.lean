import Shade.Pool.Internal

/-!
# Withdrawals

The entry points that take a note out of the pool: `withdraw` pays its value out to an
account, `withdrawCctp` burns it through the messenger towards another chain. Both verify a
proof of the withdraw circuit, as the RFQ settlements do; `SpendChecked` collects what all
four check alike.
-/

namespace Shade.Pool

open Txn

def opWithdrawPublic : ℤ := 1

def opWithdrawCctp : ℤ := 2

/-- The only supported outbound CCTP domain. -/
def arbitrumSepoliaDomain : UInt32 := 3

structure WithdrawArgs where
  target : Address
  proofBytes : Bytes
  pubSignalsBytes : Bytes
deriving DecidableEq

structure WithdrawCctpArgs where
  target : Address
  proofBytes : Bytes
  pubSignalsBytes : Bytes
  destinationDomain : UInt32
  destinationRecipient : Word
  maxFee : I128
  minFinalityThreshold : UInt32
deriving DecidableEq

/-- The arguments of the burn an exit asks for. -/
def WithdrawCctpArgs.burn (args : WithdrawCctpArgs) (host : Host) (usdc : Address)
    (amount : I128) : BurnArgs where
  caller := host.self
  amount := amount
  destinationDomain := args.destinationDomain
  mintRecipient := args.destinationRecipient
  burnToken := usdc
  destinationCaller := 0
  maxFee := args.maxFee
  minFinalityThreshold := args.minFinalityThreshold

section

variable (host : Host) (tx : Tx)

/-- Withdraw a note: pay its value less the relayer's fee to the recipient the proof
names. -/
def withdraw (args : WithdrawArgs) : Exec Unit := do
  requireNotPaused
  requireAuth tx args.target
  let signals ← parseSignals args.pubSignalsBytes
  let opType := fr32ToI128 (← signal signals 1)
  let nullifierHash ← signal signals 0
  let withdrawnValue := fr32ToI128 (← signal signals 2)
  let proofRecipient ← signal signals 3
  let relayerFee := fr32ToI128 (← signal signals 4)
  let deadlineLedger := fr32ToI128 (← signal signals 5)
  let stateRoot ← signal signals 6
  let assetId ← signal signals 17
  require (opType.val = opWithdrawPublic) (panicErr .wrongOperation)
  require (0 < withdrawnValue.val ∧ 0 ≤ relayerFee.val ∧ relayerFee.val ≤ withdrawnValue.val)
    (panicErr .badAmount)
  require ((← read (·.sequence)) ≤ deadlineLedger.val) (panicErr .expired)
  require (proofRecipient = recipientHash host args.target) (panicErr .wrongRecipient)
  checkDomainCompliance signals
  requireKnownRoot stateRoot
  requireProof host (← read (·.pool.verifier)) args.proofBytes args.pubSignalsBytes .proofInvalid
  spendNullifier host tx nullifierHash
  let net ← checked (withdrawnValue.val - relayerFee.val)
  let token ← getAssetToken assetId
  release host token args.target net
  adjustNoteSupply host assetId (-withdrawnValue.val)
  write (·.emit (.withdraw args.target nullifierHash net relayerFee))

/-- Let the messenger spend an amount of the pool's tokens. -/
def approveMessenger (token spender : Address) (amount : I128) (expiration : ℕ) : Exec Unit := do
  let sequence ← read (·.sequence)
  zoom World.tokens (fun l w => { w with tokens := l })
    (Token.approve sequence token host.self spender amount expiration)
  write (·.record (.approve token spender amount expiration))

/-- Call the messenger, which pulls what the transaction says out of its allowance. -/
def depositForBurn (messenger : Address) (burn : BurnArgs) : Exec Unit := do
  let amount ← unwrap tx.pull (.fault .callee)
  let sequence ← read (·.sequence)
  zoom World.tokens (fun l w => { w with tokens := l })
    (Token.transferFrom sequence burn.burnToken messenger host.self messenger amount)
  write (·.record (.depositForBurn messenger burn))

/-- Withdraw a USDC note to another chain: burn its value through the messenger. -/
def withdrawCctp (args : WithdrawCctpArgs) : Exec I128 := do
  requireNotPaused
  requireAuth tx args.target
  let signals ← parseSignals args.pubSignalsBytes
  let opType := fr32ToI128 (← signal signals 1)
  let nullifierHash ← signal signals 0
  let amount := fr32ToI128 (← signal signals 2)
  let deadlineLedger := fr32ToI128 (← signal signals 5)
  let stateRoot ← signal signals 6
  let assetId ← signal signals 17
  require (0 < amount.val) (panicErr .badAmount)
  require (opType.val = opWithdrawCctp) (panicErr .wrongOperation)
  let usdcAddr ← read (·.pool.usdc)
  require (assetId = recipientHash host usdcAddr) (panicErr .unknownAsset)
  require ((← read (·.sequence)) ≤ deadlineLedger.val) (panicErr .expired)
  require (args.destinationDomain = arbitrumSepoliaDomain) (panicErr .unsupportedDomain)
  require ((fr32ToI128 (← signal signals 13)).val = args.destinationDomain.toNat)
    (panicErr .wrongDestDomain)
  require ((← signal signals 14) = args.destinationRecipient) (panicErr .wrongDestRecipient)
  require (fr32ToI128 (← signal signals 15) = args.maxFee) (panicErr .wrongMaxFee)
  require ((fr32ToI128 (← signal signals 16)).val = args.minFinalityThreshold.toNat)
    (panicErr .wrongFinality)
  checkDomainCompliance signals
  requireKnownRoot stateRoot
  requireProof host (← read (·.pool.verifier)) args.proofBytes args.pubSignalsBytes .proofInvalid
  spendNullifier host tx nullifierHash
  let tmm ← unwrap (← read (·.pool.tmm)) (.fault .unwrap)
  let usdc ← read (·.pool.usdc)
  let pullAmount ← checked (amount.val + if 0 < args.maxFee.val then args.maxFee.val else 0)
  let sequence ← read (·.sequence)
  require (sequence + 200 < 2 ^ 32) (.fault .overflow)
  approveMessenger host usdc tmm pullAmount (sequence + 200)
  depositForBurn host tx tmm (args.burn host usdc amount)
  adjustNoteSupply host assetId (-amount.val)
  write (·.emit
    (.cctpout args.destinationDomain args.target nullifierHash args.destinationRecipient amount))
  pure amount

end

/-! ### What it means that a note was spent -/

/-- What the four entry points that spend through the withdraw circuit check alike: the
operation type, a positive value, the deadline, the domain and association root, the state
root, the proof, and that the nullifier is not spent. -/
structure SpendChecked (host : Host) (w : World) (proof bytes : Bytes) (op : ℤ)
    (signals : List Word) : Prop where
  parsed : parsePublicSignals bytes = some signals
  operation : (fr32ToI128 (signals.getD 1 0)).val = op
  positive : 0 < (fr32ToI128 (signals.getD 2 0)).val
  deadline : w.sequence ≤ (fr32ToI128 (signals.getD 5 0)).val
  complies : w.pool.Complies signals
  known : w.pool.isKnownRoot (signals.getD 6 0) = true
  verified : host.verify w.pool.verifier proof bytes = some true
  admitted : w.registry.Admits host.self (signals.getD 0 0)

variable {host : Host} {tx : Tx} {w w' : World}

/-- An accepted withdrawal: it pays the value less the fee to the recipient the proof
names, in the token of the note's asset, and takes the value off the note supply. -/
structure Withdrawal (host : Host) (w : World) (args : WithdrawArgs) where
  signals : List Word
  checked : SpendChecked host w args.proofBytes args.pubSignalsBytes opWithdrawPublic signals
  recipient : signals.getD 3 0 = recipientHash host args.target
  fee_nonneg : 0 ≤ (fr32ToI128 (signals.getD 4 0)).val
  fee_le : (fr32ToI128 (signals.getD 4 0)).val ≤ (fr32ToI128 (signals.getD 2 0)).val
  token : Address
  token_eq : w.pool.assetToken.get (signals.getD 17 0) = some token
  net : I128
  net_eq : net.val = (fr32ToI128 (signals.getD 2 0)).val - (fr32ToI128 (signals.getD 4 0)).val
  canPay : w.tokens.CanPay token host.self args.target net
  next : I128
  next_eq : next.val = w.pool.supply (signals.getD 17 0) - (fr32ToI128 (signals.getD 2 0)).val
  next_nonneg : 0 ≤ next.val
  next_le : next.val ≤ (w.pay host token args.target net).vault host token

/-- The world an accepted withdrawal leads to. -/
def Withdrawal.world {args : WithdrawArgs} (x : Withdrawal host w args) : World :=
  (((w.spend (x.signals.getD 0 0)).pay host x.token args.target x.net).setSupply
    (x.signals.getD 17 0) x.next).emit
      (.withdraw args.target (x.signals.getD 0 0) x.net (fr32ToI128 (x.signals.getD 4 0)))

theorem withdraw_ok {args : WithdrawArgs} {u : Unit}
    (h : (withdraw host tx args).run w = .ok (u, w')) :
  ∃ x : Withdrawal host w args, w' = x.world
  := by
  simp only [withdraw, requireNotPaused_bind_ok, requireAuth_bind_ok, parseSignals_bind_ok,
    signal_bind_ok, require_bind_ok, read_bind_ok, checkDomainCompliance_bind_ok,
    requireKnownRoot_bind_ok, requireProof_bind_ok, spendNullifier_bind_ok, checked_bind_ok,
    getAssetToken_bind_ok, release_bind_ok, adjustNoteSupply_bind_ok, write_ok] at h
  obtain ⟨-, -, signals, hparse, -, -, -, -, -, -, -, -, hop, ⟨hpos, hfee, hle⟩, hdeadline,
    hrecipient, hcomplies, hknown, hverify, hfresh, net, hnet, token, htoken, hpay, token',
    htoken', next, hnext, hnonneg, hreserve, hw'⟩ := h
  obtain rfl : token = token' := Option.some.inj (htoken.symm.trans htoken')
  exact ⟨⟨signals, ⟨hparse, hop, hpos, hdeadline, hcomplies, hknown, hverify, hfresh⟩, hrecipient,
    hfee, hle, token, htoken, net, hnet, hpay, next, hnext, hnonneg, hreserve⟩, hw'⟩

section Burn

variable {β : Type} {b : β}

theorem approveMessenger_bind_ok {token spender : Address} {amount : I128} {expiration : ℕ}
    {f : Unit → Exec β} :
  (approveMessenger host token spender amount expiration >>= f).run w = .ok (b, w')
    ↔ 0 ≤ amount.val ∧ (amount.val = 0 ∨ w.sequence ≤ expiration)
      ∧ (f ()).run ((w.mapTokens
          (·.setAllowance token host.self spender amount.val.toNat expiration)).record
            (.approve token spender amount expiration)) = .ok (b, w')
  := by
  simp only [approveMessenger, bind_assoc, read_bind_ok]
  rw [bind_ok]
  simp only [zoom_ok, Token.approve_ok, write_bind_ok]
  constructor
  · rintro ⟨_, _, ⟨_, ⟨hpos, hexp, rfl⟩, rfl⟩, hf⟩
    use hpos, hexp, hf
  · rintro ⟨hpos, hexp, hf⟩
    exact ⟨(), _, ⟨_, ⟨hpos, hexp, rfl⟩, rfl⟩, hf⟩

theorem depositForBurn_bind_ok {messenger : Address} {burn : BurnArgs} {f : Unit → Exec β} :
  (depositForBurn host tx messenger burn >>= f).run w = .ok (b, w')
    ↔ ∃ amount, tx.pull = some amount
      ∧ ∃ l, (Token.transferFrom w.sequence burn.burnToken messenger host.self messenger
          amount).run w.tokens = .ok ((), l)
      ∧ (f ()).run ((w.mapTokens fun _ => l).record (.depositForBurn messenger burn))
          = .ok (b, w')
  := by
  simp only [depositForBurn, bind_assoc, unwrap_bind_ok, read_bind_ok]
  simp only [bind_ok (x := zoom _ _ _), zoom_ok, write_bind_ok]
  constructor
  · rintro ⟨amount, hamount, _, _, ⟨l, hl, rfl⟩, hf⟩
    use amount, hamount, l, hl, hf
  · rintro ⟨amount, hamount, l, hl, hf⟩
    exact ⟨amount, hamount, (), _, ⟨l, hl, rfl⟩, hf⟩

end Burn

/-- An accepted exit: it lets the messenger take at most the value and the maximal fee in
USDC, asks it to burn the value towards the destination the proof names, and takes the value
off the note supply. `tokens` are the tokens with the allowance of the messenger, before it
pulls. -/
structure CctpExit (host : Host) (w : World) (args : WithdrawCctpArgs) where
  signals : List Word
  checked : SpendChecked host w args.proofBytes args.pubSignalsBytes opWithdrawCctp signals
  asset : signals.getD 17 0 = recipientHash host w.pool.usdc
  domain : args.destinationDomain = arbitrumSepoliaDomain
  recipient : signals.getD 14 0 = args.destinationRecipient
  maxFee : fr32ToI128 (signals.getD 15 0) = args.maxFee
  finality : (fr32ToI128 (signals.getD 16 0)).val = args.minFinalityThreshold.toNat
  tmm : Address
  tmm_eq : w.pool.tmm = some tmm
  pullAmount : I128
  pullAmount_eq :
    pullAmount.val = (fr32ToI128 (signals.getD 2 0)).val + max 0 args.maxFee.val
  tokens : Token.Ledger
  tokens_balance : ∀ token holder, tokens.balance token holder = w.tokens.balance token holder
  pulled : I128
  pulled_nonneg : 0 ≤ pulled.val
  pulled_le : pulled.val ≤ pullAmount.val
  pulled_covered : pulled.val ≤ w.vault host w.pool.usdc
  token : Address
  token_eq : w.pool.assetToken.get (signals.getD 17 0) = some token
  next : I128
  next_eq : next.val = w.pool.supply (signals.getD 17 0) - (fr32ToI128 (signals.getD 2 0)).val
  next_nonneg : 0 ≤ next.val
  next_le :
    next.val ≤ (tokens.move w.pool.usdc host.self tmm pulled.val.toNat).balance token host.self

/-- The world an accepted exit leads to. -/
def CctpExit.world {args : WithdrawCctpArgs} (x : CctpExit host w args) : World :=
  (((((w.spend (x.signals.getD 0 0)).mapTokens
    fun _ => x.tokens.move w.pool.usdc host.self x.tmm x.pulled.val.toNat).record
      (.approve w.pool.usdc x.tmm x.pullAmount (w.sequence + 200))).record
      (.depositForBurn x.tmm
        (args.burn host w.pool.usdc (fr32ToI128 (x.signals.getD 2 0))))).setSupply
        (x.signals.getD 17 0) x.next).emit
          (.cctpout args.destinationDomain args.target (x.signals.getD 0 0)
            args.destinationRecipient (fr32ToI128 (x.signals.getD 2 0)))

theorem withdrawCctp_ok {args : WithdrawCctpArgs} {x : I128}
    (h : (withdrawCctp host tx args).run w = .ok (x, w')) :
  ∃ x : CctpExit host w args, w' = x.world
  := by
  simp only [withdrawCctp, requireNotPaused_bind_ok, requireAuth_bind_ok, parseSignals_bind_ok,
    signal_bind_ok, require_bind_ok, read_bind_ok, checkDomainCompliance_bind_ok,
    requireKnownRoot_bind_ok, requireProof_bind_ok, spendNullifier_bind_ok, unwrap_bind_ok,
    checked_bind_ok, approveMessenger_bind_ok, depositForBurn_bind_ok, adjustNoteSupply_bind_ok,
    write_bind_ok, pure_ok] at h
  obtain ⟨-, -, signals, hparse, -, -, -, -, -, -, hpos, hop, hasset, hdeadline, hdomain, -, -,
    -, hrecipient, -, hmaxFee, -, hfinality, hcomplies, hknown, hverify, hfresh, tmm, htmm,
    pullAmount, hpull, -, hpullPos, -, pulled, -, l, hl, token, htoken, next, hnext, hnonneg,
    hreserve, -, hw'⟩ := h
  obtain ⟨hpulledPos, hallowed, hcovered, n, expiration, rfl⟩ := Token.transferFrom_ok hl
  simp only [World.record, World.mapTokens, WithdrawCctpArgs.burn] at hallowed hcovered
  rw [Token.Ledger.allowance_setAllowance_self _ (by simp)] at hallowed
  have hmax : pullAmount.val = (fr32ToI128 (signals.getD 2 0)).val + max 0 args.maxFee.val := by
    rw [hpull]
    split
    · omega
    · omega
  exact ⟨⟨signals, ⟨hparse, hop, hpos, hdeadline, hcomplies, hknown, hverify, hfresh⟩, hasset,
    hdomain, hrecipient, hmaxFee, hfinality, tmm, htmm, pullAmount, hmax,
    (w.tokens.setAllowance w.pool.usdc host.self tmm pullAmount.val.toNat
      (w.sequence + 200)).setAllowance w.pool.usdc host.self tmm n expiration, fun _ _ => rfl,
    pulled, hpulledPos, by omega, hcovered, token, htoken, next, hnext, hnonneg, hreserve⟩,
    hw'.symm⟩

end Shade.Pool
