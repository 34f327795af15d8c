import Shade.Pool.Withdraw

/-!
# RFQ settlements

The entry points that pay a solver for filling a user's order: `rfqSettle` reimburses the
solver in USDC for a fill on another chain, `rfqSettleAtomicSwap` delivers the output asset
to the user from the pool and credits the solver in the asset of the note, in one
transaction.
-/

namespace Shade.Pool

open Txn

def opRfqSettlement : ℤ := 3

def opRfqAtomicSwap : ℤ := 5

/-- The scale of fixed-point prices. -/
def priceScale : ℤ := 1000000000

structure RfqSettleArgs where
  toSolver : Address
  proofBytes : Bytes
  pubSignalsBytes : Bytes
  quoteHash : Word
  intentHash : Word
  fillReceiptHash : Word
  solverPubkey : Word
  solverSig : Signature
deriving DecidableEq

structure AtomicSwapArgs where
  userXlmRecipient : Address
  solverUsdcRecipient : Address
  proofBytes : Bytes
  pubSignalsBytes : Bytes
  quoteHash : Word
  intentHash : Word
  fillReceiptHash : Word
  outputAssetId : Word
  quotedOutput : I128
  minOutput : I128
  priceScaled : I128
  solverPubkey : Word
  solverSig : Signature
deriving DecidableEq

/-- The terms of a swap that the solver signs. -/
def AtomicSwapArgs.terms (args : AtomicSwapArgs) (host : Host) : Bytes :=
  args.quoteHash.toBytes ++ args.outputAssetId.toBytes ++ args.quotedOutput.toBeBytes
    ++ args.minOutput.toBeBytes ++ args.priceScaled.toBeBytes
    ++ (recipientHash host args.userXlmRecipient).toBytes

/-- The terms of a swap determine its fields: each has a length of its own. -/
theorem AtomicSwapArgs.terms_injective {host : Host} {args args' : AtomicSwapArgs}
    (h : args.terms host = args'.terms host) :
  args.quoteHash = args'.quoteHash ∧ args.outputAssetId = args'.outputAssetId
    ∧ args.quotedOutput = args'.quotedOutput ∧ args.minOutput = args'.minOutput
    ∧ args.priceScaled = args'.priceScaled
    ∧ recipientHash host args.userXlmRecipient = recipientHash host args'.userXlmRecipient
  := by
  have hword : ∀ v v' : Word, v.toBytes.length = v'.toBytes.length := by
    intro v v'
    rw [Word.length_toBytes, Word.length_toBytes]
  have hint : ∀ z z' : I128, z.toBeBytes.length = z'.toBeBytes.length := by
    intro z z'
    rw [I128.length_toBeBytes, I128.length_toBeBytes]
  obtain ⟨h, hrecipient⟩ := List.append_inj' h (hword _ _)
  obtain ⟨h, hprice⟩ := List.append_inj' h (hint _ _)
  obtain ⟨h, hmin⟩ := List.append_inj' h (hint _ _)
  obtain ⟨h, hquoted⟩ := List.append_inj' h (hint _ _)
  obtain ⟨hquote, hasset⟩ := List.append_inj' h (hword _ _)
  use Word.toBytes_injective hquote, Word.toBytes_injective hasset,
    I128.toBeBytes_injective hquoted, I128.toBeBytes_injective hmin,
    I128.toBeBytes_injective hprice
  apply Word.toBytes_injective hrecipient

section

variable (host : Host) (tx : Tx)

/-- Abort unless a solver key is authorized. -/
def requireSolver (solverPubkey : Word) : Exec Unit := do
  require ((← read (·.pool.isAuthorizedSolver solverPubkey)) = true)
    (panicErr .unauthorizedSolver)

/-- Abort unless a signature verifies. -/
def requireSignature (pubkey : Word) (msg : Bytes) (sig : Signature) : Exec Unit :=
  require (host.ed25519Verify pubkey msg sig = true) (.fault .signature)

/-- Abort unless an output is the value times the price, rounded down to the scale. -/
def requirePrice (withdrawnValue priceScaled quotedOutput : I128) : Exec Unit := do
  let product ← unwrap (I128.check (withdrawnValue.val * priceScaled.val)) (panicErr .badAmount)
  let expectedOutput := product.val.tdiv priceScale
  require (quotedOutput.val = expectedOutput) (panicErr .wrongPrice)

/-- Settle a quote: verify the user's proof and the solver's signature on the quote hash,
and reimburse the solver. -/
def rfqSettle (args : RfqSettleArgs) : Exec Unit := do
  requireNotPaused
  requireSolver args.solverPubkey
  requireSignature host args.solverPubkey args.quoteHash.toBytes args.solverSig
  let signals ← parseSignals args.pubSignalsBytes
  let opType := fr32ToI128 (← signal signals 1)
  let nullifierHash ← signal signals 0
  let credit := fr32ToI128 (← signal signals 2)
  let relayerFee := fr32ToI128 (← signal signals 4)
  let deadlineLedger := fr32ToI128 (← signal signals 5)
  let stateRoot ← signal signals 6
  require (0 < credit.val ∧ 0 ≤ relayerFee.val ∧ relayerFee.val ≤ credit.val)
    (panicErr .badAmount)
  require (opType.val = opRfqSettlement) (panicErr .wrongOperation)
  require ((← read (·.sequence)) ≤ deadlineLedger.val) (panicErr .expired)
  require (hashToField args.quoteHash = (← signal signals 10)) (panicErr .wrongQuote)
  require (hashToField args.intentHash = (← signal signals 11)) (panicErr .wrongIntent)
  require (hashToField args.fillReceiptHash = (← signal signals 12)) (panicErr .wrongFillReceipt)
  checkDomainCompliance signals
  requireKnownRoot stateRoot
  requireProof host (← read (·.pool.verifier)) args.proofBytes args.pubSignalsBytes .proofInvalid
  spendNullifier host tx nullifierHash
  let usdc ← read (·.pool.usdc)
  release host usdc args.toSolver credit
  write (·.emit (.rfq args.quoteHash args.toSolver nullifierHash credit))

/-- Settle a swap: deliver the quoted output to the user and credit the solver with the
value of the user's note less the relayer's fee. -/
def rfqSettleAtomicSwap (args : AtomicSwapArgs) : Exec Unit := do
  requireNotPaused
  requireSolver args.solverPubkey
  require (0 < args.quotedOutput.val ∧ 0 < args.minOutput.val
    ∧ args.minOutput.val ≤ args.quotedOutput.val ∧ 0 < args.priceScaled.val)
    (panicErr .underDelivered)
  requireSignature host args.solverPubkey (host.sha256 (args.terms host)).toBytes args.solverSig
  let signals ← parseSignals args.pubSignalsBytes
  let opType := fr32ToI128 (← signal signals 1)
  let nullifierHash ← signal signals 0
  let withdrawnValue := fr32ToI128 (← signal signals 2)
  let relayerFee := fr32ToI128 (← signal signals 4)
  let deadlineLedger := fr32ToI128 (← signal signals 5)
  let stateRoot ← signal signals 6
  let inputAssetId ← signal signals 17
  require (opType.val = opRfqAtomicSwap) (panicErr .wrongOperation)
  require (0 < withdrawnValue.val ∧ 0 ≤ relayerFee.val ∧ relayerFee.val ≤ withdrawnValue.val)
    (panicErr .badAmount)
  require ((← read (·.sequence)) ≤ deadlineLedger.val) (panicErr .expired)
  requirePrice withdrawnValue args.priceScaled args.quotedOutput
  require (args.outputAssetId ≠ inputAssetId) (panicErr .sameAssetSwap)
  require (hashToField args.quoteHash = (← signal signals 10)) (panicErr .wrongQuote)
  require (hashToField args.intentHash = (← signal signals 11)) (panicErr .wrongIntent)
  require (hashToField args.fillReceiptHash = (← signal signals 12)) (panicErr .wrongFillReceipt)
  checkDomainCompliance signals
  requireKnownRoot stateRoot
  requireProof host (← read (·.pool.verifier)) args.proofBytes args.pubSignalsBytes .proofInvalid
  spendNullifier host tx nullifierHash
  let outToken ← getAssetToken args.outputAssetId
  release host outToken args.userXlmRecipient args.quotedOutput
  let credit ← checked (withdrawnValue.val - relayerFee.val)
  let inToken ← getAssetToken inputAssetId
  release host inToken args.solverUsdcRecipient credit
  adjustNoteSupply host inputAssetId (-withdrawnValue.val)
  write (·.emit (.rfqswap args.quoteHash args.userXlmRecipient args.solverUsdcRecipient
    nullifierHash args.quotedOutput credit))

end

/-! ### What it means that a settlement was accepted -/

variable {host : Host} {tx : Tx} {w w' : World}

theorem requireSolver_bind_ok {β : Type} {b : β} {solverPubkey : Word} {f : Unit → Exec β} :
  (requireSolver solverPubkey >>= f).run w = .ok (b, w')
    ↔ w.pool.isAuthorizedSolver solverPubkey = true ∧ (f ()).run w = .ok (b, w')
  := by
  simp only [requireSolver, bind_assoc, read_bind_ok, require_bind_ok]

theorem requirePrice_bind_ok {β : Type} {b : β} {withdrawnValue priceScaled quotedOutput : I128}
    {f : Unit → Exec β} :
  (requirePrice withdrawnValue priceScaled quotedOutput >>= f).run w = .ok (b, w')
    ↔ (∃ product : I128, product.val = withdrawnValue.val * priceScaled.val
        ∧ quotedOutput.val = product.val.tdiv priceScale) ∧ (f ()).run w = .ok (b, w')
  := by
  simp only [requirePrice, bind_assoc, unwrap_bind_ok, require_bind_ok, I128.check_eq_some]
  constructor
  · rintro ⟨product, hproduct, hquoted, hf⟩
    exact ⟨⟨product, hproduct, hquoted⟩, hf⟩
  · rintro ⟨⟨product, hproduct, hquoted⟩, hf⟩
    exact ⟨product, hproduct, hquoted, hf⟩

/-- An accepted RFQ settlement: it pays the whole value to the address it was called with,
in USDC whatever the asset of the note, and leaves the note supply as it was. -/
structure RfqSettlement (host : Host) (w : World) (args : RfqSettleArgs) where
  signals : List Word
  checked : SpendChecked host w args.proofBytes args.pubSignalsBytes opRfqSettlement signals
  signed : host.ed25519Verify args.solverPubkey args.quoteHash.toBytes args.solverSig = true
  fee_nonneg : 0 ≤ (fr32ToI128 (signals.getD 4 0)).val
  fee_le : (fr32ToI128 (signals.getD 4 0)).val ≤ (fr32ToI128 (signals.getD 2 0)).val
  canPay :
    w.tokens.CanPay w.pool.usdc host.self args.toSolver (fr32ToI128 (signals.getD 2 0))

/-- The world an accepted RFQ settlement leads to. -/
def RfqSettlement.world {args : RfqSettleArgs} (x : RfqSettlement host w args) : World :=
  ((w.spend (x.signals.getD 0 0)).pay host w.pool.usdc args.toSolver
    (fr32ToI128 (x.signals.getD 2 0))).emit
      (.rfq args.quoteHash args.toSolver (x.signals.getD 0 0) (fr32ToI128 (x.signals.getD 2 0)))

theorem rfqSettle_ok {args : RfqSettleArgs} {u : Unit}
    (h : (rfqSettle host tx args).run w = .ok (u, w')) :
  ∃ x : RfqSettlement host w args, w' = x.world
  := by
  simp only [rfqSettle, requireSignature, requireNotPaused_bind_ok, requireSolver_bind_ok,
    parseSignals_bind_ok, signal_bind_ok, require_bind_ok, read_bind_ok,
    checkDomainCompliance_bind_ok, requireKnownRoot_bind_ok, requireProof_bind_ok,
    spendNullifier_bind_ok, release_bind_ok, write_ok] at h
  obtain ⟨-, -, hsig, signals, hparse, -, -, -, -, -, -, ⟨hpos, hfee, hle⟩, hop, hdeadline, -, -, -,
    -, -, -, hcomplies, hknown, hverify, hfresh, hpay, hw'⟩ := h
  exact ⟨⟨signals, ⟨hparse, hop, hpos, hdeadline, hcomplies, hknown, hverify, hfresh⟩, hsig, hfee,
    hle, hpay⟩, hw'⟩

/-- An accepted swap: it pays the quoted output to the user in the token of the output
asset and the value less the fee to the solver's address in the token of the note's asset,
and takes the value off the note supply of the note's asset only. -/
structure AtomicSwap (host : Host) (w : World) (args : AtomicSwapArgs) where
  signals : List Word
  checked : SpendChecked host w args.proofBytes args.pubSignalsBytes opRfqAtomicSwap signals
  signed : host.ed25519Verify args.solverPubkey (host.sha256 (args.terms host)).toBytes
    args.solverSig = true
  quoted_pos : 0 < args.quotedOutput.val
  fee_nonneg : 0 ≤ (fr32ToI128 (signals.getD 4 0)).val
  fee_le : (fr32ToI128 (signals.getD 4 0)).val ≤ (fr32ToI128 (signals.getD 2 0)).val
  price : ∃ product : I128,
    product.val = (fr32ToI128 (signals.getD 2 0)).val * args.priceScaled.val
      ∧ args.quotedOutput.val = product.val.tdiv priceScale
  asset_ne : args.outputAssetId ≠ signals.getD 17 0
  outToken : Address
  outToken_eq : w.pool.assetToken.get args.outputAssetId = some outToken
  canPayOut : w.tokens.CanPay outToken host.self args.userXlmRecipient args.quotedOutput
  credit : I128
  credit_eq :
    credit.val = (fr32ToI128 (signals.getD 2 0)).val - (fr32ToI128 (signals.getD 4 0)).val
  inToken : Address
  inToken_eq : w.pool.assetToken.get (signals.getD 17 0) = some inToken
  canPayIn : (w.pay host outToken args.userXlmRecipient args.quotedOutput).tokens.CanPay inToken
    host.self args.solverUsdcRecipient credit
  next : I128
  next_eq : next.val = w.pool.supply (signals.getD 17 0) - (fr32ToI128 (signals.getD 2 0)).val
  next_nonneg : 0 ≤ next.val
  next_le : next.val ≤ ((w.pay host outToken args.userXlmRecipient args.quotedOutput).pay host
    inToken args.solverUsdcRecipient credit).vault host inToken

/-- The world an accepted swap leads to. -/
def AtomicSwap.world {args : AtomicSwapArgs} (x : AtomicSwap host w args) : World :=
  ((((w.spend (x.signals.getD 0 0)).pay host x.outToken args.userXlmRecipient
    args.quotedOutput).pay host x.inToken args.solverUsdcRecipient x.credit).setSupply
      (x.signals.getD 17 0) x.next).emit
        (.rfqswap args.quoteHash args.userXlmRecipient args.solverUsdcRecipient
          (x.signals.getD 0 0) args.quotedOutput x.credit)

theorem rfqSettleAtomicSwap_ok {args : AtomicSwapArgs} {u : Unit}
    (h : (rfqSettleAtomicSwap host tx args).run w = .ok (u, w')) :
  ∃ x : AtomicSwap host w args, w' = x.world
  := by
  simp only [rfqSettleAtomicSwap, requireSignature, requireNotPaused_bind_ok,
    requireSolver_bind_ok, parseSignals_bind_ok, signal_bind_ok, require_bind_ok, read_bind_ok,
    requirePrice_bind_ok, checkDomainCompliance_bind_ok, requireKnownRoot_bind_ok,
    requireProof_bind_ok, spendNullifier_bind_ok, getAssetToken_bind_ok, release_bind_ok,
    checked_bind_ok, adjustNoteSupply_bind_ok, write_ok] at h
  obtain ⟨-, -, ⟨hquoted, -, -, -⟩, hsig, signals, hparse, -, -, -, -, -, -, -, hop,
    ⟨hpos, hfee, hle⟩, hdeadline, hprice, hne, -, -, -, -, -, -, hcomplies, hknown, hverify,
    hfresh, outToken, hout, hpayOut, credit, hcredit, inToken, hin, hpayIn, inToken', hin', next,
    hnext, hnonneg, hreserve, hw'⟩ := h
  obtain rfl : inToken = inToken' := Option.some.inj (hin.symm.trans hin')
  exact ⟨⟨signals, ⟨hparse, hop, hpos, hdeadline, hcomplies, hknown, hverify, hfresh⟩, hsig,
    hquoted, hfee, hle, hprice, hne, outToken, hout, hpayOut, credit, hcredit, inToken, hin, hpayIn,
    next, hnext, hnonneg, hreserve⟩, hw'⟩

end Shade.Pool
