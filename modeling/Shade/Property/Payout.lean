import Shade.Property.Reserves

/-!
# Payouts

What the four entry points that spend through the withdraw circuit pay for a note: to whom,
in which token, and how much. The first is fixed by the proof and the signed terms except for
the addresses at which a solver asks to be paid, the second by the asset of the note except
for `rfqSettle`, the third by the value of the note up to the fee of an exit.
-/

namespace Shade.Pool

open Txn

section

variable {host : Host} {tx tx' : Tx} {w w' w'' : World} {c c' : Call}

/-- The entry point spends a note through the withdraw circuit. -/
def Call.SpendsNote : Call → Prop
  | withdraw _ => True
  | withdrawCctp _ => True
  | rfqSettle _ => True
  | rfqSettleAtomicSwap _ => True
  | _ => False

/-- The movements a call adds to those before it. -/
def newMovements (w w' : World) : List Movement := w'.movements.drop w.movements.length

theorem Withdrawal.newMovements {args : WithdrawArgs} (x : Withdrawal host w args) :
  Pool.newMovements w x.world = [.transfer x.token args.target x.net]
  := by
  simp [Pool.newMovements, Withdrawal.world]

theorem CctpExit.newMovements {args : WithdrawCctpArgs} (x : CctpExit host w args) :
  Pool.newMovements w x.world
    = [.approve w.pool.usdc x.tmm x.pullAmount (w.sequence + 200),
        .depositForBurn x.tmm (args.burn host w.pool.usdc (fr32ToI128 (x.signals.getD 2 0)))]
  := by
  simp [Pool.newMovements, CctpExit.world]

theorem RfqSettlement.newMovements {args : RfqSettleArgs} (x : RfqSettlement host w args) :
  Pool.newMovements w x.world
    = [.transfer w.pool.usdc args.toSolver (fr32ToI128 (x.signals.getD 2 0))]
  := by
  simp [Pool.newMovements, RfqSettlement.world]

theorem AtomicSwap.newMovements {args : AtomicSwapArgs} (x : AtomicSwap host w args) :
  Pool.newMovements w x.world
    = [.transfer x.outToken args.userXlmRecipient args.quotedOutput,
        .transfer x.inToken args.solverUsdcRecipient x.credit]
  := by
  simp [Pool.newMovements, AtomicSwap.world]

/-! ### Who is paid -/

/-- Two calls of the same entry point carry the same proof and signals, and the same solver
key and signature. -/
def Call.SameEvidence : Call → Call → Prop
  | withdraw args, withdraw args' =>
      args.proofBytes = args'.proofBytes ∧ args.pubSignalsBytes = args'.pubSignalsBytes
  | withdrawCctp args, withdrawCctp args' =>
      args.proofBytes = args'.proofBytes ∧ args.pubSignalsBytes = args'.pubSignalsBytes
  | rfqSettle args, rfqSettle args' =>
      args.proofBytes = args'.proofBytes ∧ args.pubSignalsBytes = args'.pubSignalsBytes
        ∧ args.solverPubkey = args'.solverPubkey ∧ args.solverSig = args'.solverSig
  | rfqSettleAtomicSwap args, rfqSettleAtomicSwap args' =>
      args.proofBytes = args'.proofBytes ∧ args.pubSignalsBytes = args'.pubSignalsBytes
        ∧ args.solverPubkey = args'.solverPubkey ∧ args.solverSig = args'.solverSig
  | _, _ => False

/-- The recipients of a call whose strkeys are hashed. -/
def Call.hashedRecipients : Call → List Address
  | withdraw args => [args.target]
  | rfqSettleAtomicSwap args => [args.userXlmRecipient]
  | _ => []

/-- The terms of a call that are hashed for the signature of the solver. -/
def Call.hashedTerms (host : Host) : Call → List Bytes
  | rfqSettleAtomicSwap args => [args.terms host]
  | _ => []

/-- The hashes of terms that the solver signs for a call. -/
def Call.signedMessages (host : Host) : Call → List Bytes
  | rfqSettleAtomicSwap args => [(host.sha256 (args.terms host)).toBytes]
  | _ => []

/-- The hashes and signatures of two calls bind what they are made of: no two of the strkeys
have the same truncated hash, no two of the terms have the same hash, and no signature
verifies two of the messages under one key. -/
structure Binding (host : Host) (c c' : Call) : Prop where
  recipients : ∀ a ∈ c.hashedRecipients, ∀ a' ∈ c'.hashedRecipients,
    recipientHash host a = recipientHash host a' → a = a'
  terms : ∀ t ∈ c.hashedTerms host, ∀ t' ∈ c'.hashedTerms host,
    host.sha256 t = host.sha256 t' → t = t'
  messages : ∀ m ∈ c.signedMessages host, ∀ m' ∈ c'.signedMessages host, ∀ pubkey sig,
    host.ed25519Verify pubkey m sig = true → host.ed25519Verify pubkey m' sig = true → m = m'

/-- The address at which a solver asks to be paid. -/
def Call.solverPayee : Call → Option Address
  | rfqSettle args => some args.toSolver
  | rfqSettleAtomicSwap args => some args.solverUsdcRecipient
  | _ => none

/-- The signed terms of a swap determine the output asset, the quoted output and the hash of
the recipient. -/
theorem AtomicSwapArgs.eq_of_terms {args args' : AtomicSwapArgs}
    (h : args.terms host = args'.terms host) :
  args.outputAssetId = args'.outputAssetId ∧ args.quotedOutput = args'.quotedOutput
    ∧ recipientHash host args.userXlmRecipient = recipientHash host args'.userXlmRecipient
  := by
  obtain ⟨-, hasset, hquoted, -, -, hrecipient⟩ := args.terms_injective h
  use hasset, hquoted, hrecipient

/-- Two swaps with the same evidence deliver the same output to the same user, and take the
same credit. -/
theorem AtomicSwap.movements_eq_iff {args args' : AtomicSwapArgs}
    (x : AtomicSwap host w args) (y : AtomicSwap host w args')
    (hbytes : args.pubSignalsBytes = args'.pubSignalsBytes)
    (hkey : args.solverPubkey = args'.solverPubkey) (hsig : args.solverSig = args'.solverSig)
    (hbinding : Binding host (.rfqSettleAtomicSwap args) (.rfqSettleAtomicSwap args')) :
  Pool.newMovements w x.world = Pool.newMovements w y.world
    ↔ args.solverUsdcRecipient = args'.solverUsdcRecipient
  := by
  have hparsed := x.checked.parsed
  rw [hbytes, y.checked.parsed, Option.some.injEq] at hparsed
  have hsigned := x.signed
  rw [hkey, hsig] at hsigned
  have hmessage := hbinding.messages _ (List.mem_singleton.mpr rfl) _ (List.mem_singleton.mpr rfl)
    _ _ hsigned y.signed
  have hterms := hbinding.terms _ (List.mem_singleton.mpr rfl) _ (List.mem_singleton.mpr rfl)
    (Word.toBytes_injective hmessage)
  obtain ⟨hasset, hquoted, hrecipient⟩ := AtomicSwapArgs.eq_of_terms hterms
  have huser := hbinding.recipients _ (List.mem_singleton.mpr rfl) _ (List.mem_singleton.mpr rfl)
    hrecipient
  have hout : x.outToken = y.outToken := by
    apply Option.some.inj
    rw [← x.outToken_eq, ← y.outToken_eq, hasset]
  have hin : x.inToken = y.inToken := by
    apply Option.some.inj
    rw [← x.inToken_eq, ← y.inToken_eq, hparsed]
  have hcredit : x.credit = y.credit := by
    apply I128.ext
    rw [x.credit_eq, y.credit_eq, hparsed]
  rw [x.newMovements, y.newMovements, hout, hin, hcredit, hquoted, huser]
  simp

/-- Two calls of an entry point that are accepted in the same state with the same proof,
signals, solver key and signature cause the same movements exactly if they name the same
address for the solver. A withdrawal and an exit name none. -/
theorem newMovements_eq_iff (hc : c.SpendsNote) (hsame : c.SameEvidence c')
    (hbinding : Binding host c c') (h : c.exec host tx w = some w')
    (h' : c'.exec host tx' w = some w'') :
  newMovements w w' = newMovements w w'' ↔ c.solverPayee = c'.solverPayee
  := by
  cases Call.exec_outcome h with
  | withdraw args x =>
      cases Call.exec_outcome h' with
      | withdraw args' y =>
          have hparsed := x.checked.parsed
          rw [hsame.2, y.checked.parsed, Option.some.injEq] at hparsed
          have htarget : args.target = args'.target := by
            apply hbinding.recipients _ (List.mem_singleton.mpr rfl) _ (List.mem_singleton.mpr rfl)
            rw [← x.recipient, ← y.recipient, hparsed]
          have htoken : x.token = y.token := by
            apply Option.some.inj
            rw [← x.token_eq, ← y.token_eq, hparsed]
          have hnet : x.net = y.net := by
            apply I128.ext
            rw [x.net_eq, y.net_eq, hparsed]
          rw [x.newMovements, y.newMovements, htoken, htarget, hnet]
          simp only [Call.solverPayee]
      | _ => exact absurd hsame id
  | withdrawCctp args x =>
      cases Call.exec_outcome h' with
      | withdrawCctp args' y =>
          have hparsed := x.checked.parsed
          rw [hsame.2, y.checked.parsed, Option.some.injEq] at hparsed
          have htmm : x.tmm = y.tmm := Option.some.inj (x.tmm_eq.symm.trans y.tmm_eq)
          have hmaxFee : args.maxFee = args'.maxFee := by
            rw [← x.maxFee, ← y.maxFee, hparsed]
          have hpull : x.pullAmount = y.pullAmount := by
            apply I128.ext
            rw [x.pullAmount_eq, y.pullAmount_eq, hparsed, hmaxFee]
          have hfinality : args.minFinalityThreshold = args'.minFinalityThreshold := by
            apply UInt32.toNat_inj.mp
            apply Int.ofNat_inj.mp
            rw [← x.finality, ← y.finality, hparsed]
          have hburn : args.burn host w.pool.usdc (fr32ToI128 (x.signals.getD 2 0))
              = args'.burn host w.pool.usdc (fr32ToI128 (y.signals.getD 2 0)) := by
            rw [WithdrawCctpArgs.burn, WithdrawCctpArgs.burn, x.domain, y.domain, hmaxFee,
              hfinality, ← x.recipient, ← y.recipient, hparsed]
          rw [x.newMovements, y.newMovements, htmm, hpull, hburn]
          simp only [Call.solverPayee]
      | _ => exact absurd hsame id
  | rfqSettle args x =>
      cases Call.exec_outcome h' with
      | rfqSettle args' y =>
          have hparsed := x.checked.parsed
          rw [hsame.2.1, y.checked.parsed, Option.some.injEq] at hparsed
          rw [x.newMovements, y.newMovements, hparsed]
          simp [Call.solverPayee]
      | _ => exact absurd hsame id
  | rfqSettleAtomicSwap args x =>
      cases Call.exec_outcome h' with
      | rfqSettleAtomicSwap args' y =>
          obtain ⟨-, hbytes, hkey, hsig⟩ := hsame
          rw [x.movements_eq_iff y hbytes hkey hsig hbinding]
          simp [Call.solverPayee]
      | _ => exact absurd hsame id
  | _ => exact absurd hc id

namespace Deployment

/-- The settlement of the quote in the pool whose USDC is the asset of the note: it is
accepted for any address of the solver and whoever authorizes it. -/
theorem reimburse_exec :
  ((Call.rfqSettle (quoteArgs solver)).exec quoteHost ⟨[], none⟩ (deposited usdc)).map
        (newMovements (deposited usdc)) = some [.transfer usdc solver thousand]
    ∧ ((Call.rfqSettle (quoteArgs relayer)).exec quoteHost ⟨[], none⟩ (deposited usdc)).map
        (newMovements (deposited usdc)) = some [.transfer usdc relayer thousand]
    ∧ ((Call.rfqSettle (quoteArgs solver)).exec quoteHost ⟨[relayer], none⟩
        (deposited usdc)).isSome = true
    ∧ (deposited usdc).pool.assetToken.get usdcId = some (deposited usdc).pool.usdc
    ∧ recipientHash quoteHost (deposited usdc).pool.usdc = usdcId
  := by
  decide +kernel

/-- The settlement of the quote has a witness, whoever is paid. -/
theorem quoteArgs_witness (toSolver : Address) :
  WithdrawWitness poseidon255 (Call.rfqSettle (quoteArgs toSolver)).signals quoteSpend
  := withdrawWitness_encode rfl quoteSpend_satisfied

theorem reimburse_binding (toSolver toSolver' : Address) :
  Binding quoteHost (.rfqSettle (quoteArgs toSolver)) (.rfqSettle (quoteArgs toSolver'))
  := by
  constructor
  · intro a ha
    cases ha
  · intro t ht
    cases ht
  · intro m hm
    cases hm

/-- With the evidence of the settlement anyone is paid at the address they name. -/
theorem reimburse_malleable :
  WithdrawWitness poseidon255 (Call.rfqSettle (quoteArgs solver)).signals quoteSpend
    ∧ (Call.rfqSettle (quoteArgs solver)).SameEvidence (.rfqSettle (quoteArgs relayer))
    ∧ Binding quoteHost (.rfqSettle (quoteArgs solver)) (.rfqSettle (quoteArgs relayer))
    ∧ ∃ w' w'',
      (Call.rfqSettle (quoteArgs solver)).exec quoteHost ⟨[], none⟩ (deposited usdc) = some w'
      ∧ (Call.rfqSettle (quoteArgs relayer)).exec quoteHost ⟨[], none⟩ (deposited usdc) = some w''
      ∧ newMovements (deposited usdc) w' ≠ newMovements (deposited usdc) w''
  := by
  obtain ⟨hsolver, hrelayer, -⟩ := reimburse_exec
  obtain ⟨w', hw', hmoved⟩ := Option.map_eq_some_iff.mp hsolver
  obtain ⟨w'', hw'', hmoved'⟩ := Option.map_eq_some_iff.mp hrelayer
  refine ⟨quoteArgs_witness solver, ⟨rfl, rfl, rfl, rfl⟩, reimburse_binding solver relayer, w', w'',
    hw', hw'', ?_⟩
  rw [hmoved, hmoved']
  decide

/-- With the same address for the solver, the settlement causes the same movements whoever
authorizes it. -/
theorem reimburse_newMovements_eq :
  ∃ w' w'',
    (Call.rfqSettle (quoteArgs solver)).exec quoteHost ⟨[], none⟩ (deposited usdc) = some w'
    ∧ (Call.rfqSettle (quoteArgs solver)).exec quoteHost ⟨[relayer], none⟩ (deposited usdc)
        = some w''
    ∧ newMovements (deposited usdc) w' = newMovements (deposited usdc) w''
  := by
  obtain ⟨hsolver, -, hisSome, -⟩ := reimburse_exec
  obtain ⟨w', hw', -⟩ := Option.map_eq_some_iff.mp hsolver
  obtain ⟨w'', hw''⟩ := Option.isSome_iff_exists.mp hisSome
  use w', w'', hw', hw''
  have hsame : (Call.rfqSettle (quoteArgs solver)).SameEvidence (.rfqSettle (quoteArgs solver)) :=
    ⟨rfl, rfl, rfl, rfl⟩
  apply (newMovements_eq_iff (c := .rfqSettle (quoteArgs solver)) trivial hsame
    (reimburse_binding solver solver) hw' hw'').mpr
  rfl

end Deployment

/-! ### The token a note is paid in -/

/-- The token that is moved. -/
def Movement.token : Movement → Address
  | transfer token _ _ => token
  | approve token _ _ _ => token
  | depositForBurn _ args => args.burnToken

/-- The movements that are made for the spent note: all those of the call, except that a
swap first delivers its output. -/
def Call.credits (c : Call) (movements : List Movement) : List Movement :=
  match c with
  | rfqSettleAtomicSwap _ => movements.tail
  | _ => movements

/-- What a call pays for the note is in the token of the note's asset. -/
def PaysInAsset (w w' : World) (c : Call) : Prop :=
  ∀ m ∈ c.credits (newMovements w w'),
    w.pool.assetToken.get (c.signals.getD 17 0) = some m.token

instance (w w' : World) (c : Call) : Decidable (PaysInAsset w w' c) :=
  List.decidableBAll _ (c.credits (newMovements w w'))

/-- A reimbursement is of a note whose asset is registered to USDC. -/
def Call.ReimbursesUsdc (c : Call) (s : State) : Prop :=
  match c with
  | rfqSettle _ => s.assetToken.get (c.signals.getD 17 0) = some s.usdc
  | _ => True

/-- The asset of the note of a witness is the one the signals carry. -/
theorem WithdrawWitness.assetId {H : Hash} {signals : List Word} {a : Withdraw.Assignment 12 2}
    (ha : WithdrawWitness H signals a) :
  a.note.assetId = (signals.getD 17 0).toFr
  := by
  rw [ha.2.getD]
  rfl

/-- In a pool whose USDC is registered under its own id, an accepted spend pays for the note
in the token of the note's asset, exactly if it is not a reimbursement of a note whose asset
has another token than USDC. -/
theorem paysInAsset_iff (hc : c.SpendsNote)
    (hregistered : w.pool.assetToken.get (recipientHash host w.pool.usdc) = some w.pool.usdc)
    (h : c.exec host tx w = some w') :
  (∀ a, WithdrawWitness host.poseidon c.signals a →
      a.note.assetId = (c.signals.getD 17 0).toFr)
    ∧ (PaysInAsset w w' c ↔ c.ReimbursesUsdc w.pool)
  := by
  refine ⟨fun a ha => ha.assetId, ?_⟩
  cases Call.exec_outcome h with
  | withdraw args x =>
      simp only [PaysInAsset, x.signals_call, x.newMovements, Call.credits,
        List.forall_mem_singleton, Call.ReimbursesUsdc, iff_true]
      apply x.token_eq
  | withdrawCctp args x =>
      simp only [PaysInAsset, x.signals_call, x.newMovements, Call.credits,
        List.forall_mem_cons, List.not_mem_nil, Call.ReimbursesUsdc, x.asset, iff_true]
      exact ⟨hregistered, hregistered, fun _ hm => hm.elim⟩
  | rfqSettle args x =>
      simp only [PaysInAsset, x.newMovements, Call.credits, List.forall_mem_singleton,
        Call.ReimbursesUsdc, Movement.token]
  | rfqSettleAtomicSwap args x =>
      simp only [PaysInAsset, x.signals_call, x.newMovements, Call.credits,
        List.tail_cons, List.forall_mem_singleton, Call.ReimbursesUsdc, iff_true]
      apply x.inToken_eq
  | _ => exact absurd hc id

namespace Deployment

/-- In a pool that pays its solvers in XLM, a note of USDC is reimbursed in XLM. -/
theorem reimburse_paysXlm :
  WithdrawWitness poseidon255 (Call.rfqSettle (quoteArgs solver)).signals quoteSpend
    ∧ (deposited xlm).pool.assetToken.get (recipientHash quoteHost (deposited xlm).pool.usdc)
        = some (deposited xlm).pool.usdc
    ∧ ∃ w', (Call.rfqSettle (quoteArgs solver)).exec quoteHost ⟨[], none⟩ (deposited xlm) = some w'
      ∧ ¬ PaysInAsset (deposited xlm) w' (.rfqSettle (quoteArgs solver))
  := by
  have hstate : (deposited xlm).pool.assetToken.get
        (recipientHash quoteHost (deposited xlm).pool.usdc) = some (deposited xlm).pool.usdc
      ∧ ((Call.rfqSettle (quoteArgs solver)).exec quoteHost ⟨[], none⟩ (deposited xlm)).map
        (fun w' => decide (PaysInAsset (deposited xlm) w' (.rfqSettle (quoteArgs solver))))
          = some false := by
    decide +kernel
  obtain ⟨w', hw', hfalse⟩ := Option.map_eq_some_iff.mp hstate.2
  use quoteArgs_witness solver, hstate.1, w', hw', of_decide_eq_false hfalse

/-- In a pool that pays its solvers in USDC, the note is reimbursed in USDC. -/
theorem reimburse_paysInAsset :
  ∃ w', (Call.rfqSettle (quoteArgs solver)).exec quoteHost ⟨[], none⟩ (deposited usdc) = some w'
    ∧ PaysInAsset (deposited usdc) w' (.rfqSettle (quoteArgs solver))
  := by
  obtain ⟨hexec, -, -, hregistered, hid⟩ := reimburse_exec
  obtain ⟨w', hw', -⟩ := Option.map_eq_some_iff.mp hexec
  have hsignals := signals_encode (c := .rfqSettle (quoteArgs solver)) (a := quoteSpend) rfl
  have hasset : (quoteSpend.publicSignals.map Word.ofFr).getD 17 0 = usdcId := by
    decide
  use w', hw'
  apply (paysInAsset_iff (c := .rfqSettle (quoteArgs solver)) trivial (hid ▸ hregistered)
    hw').2.mpr
  rw [Call.ReimbursesUsdc, hsignals, hasset]
  exact hregistered

end Deployment

/-! ### The amount a note is paid -/

/-- The fee that an exit lets the messenger take on top of the value. -/
def Call.feeAllowance : Call → ℤ
  | withdrawCctp args => max 0 args.maxFee.val
  | _ => 0

/-- The withdrawn value of a checked spend is at most the value of the note. -/
theorem SpendChecked.withdrawn_le {proof bytes : Bytes} {op : ℤ} {signals : List Word}
    (h : SpendChecked host w proof bytes op signals) {H : Hash} {a : Withdraw.Assignment 12 2}
    (ha : WithdrawWitness H signals a) (hcanonical : (signals.getD 2 0).Canonical) :
  (fr32ToI128 (signals.getD 2 0)).val ≤ a.note.value.val
  := by
  obtain ⟨hs, henc⟩ := ha
  have hword : a.withdrawnValue.val = (signals.getD 2 0).toNat := by
    rw [← hcanonical.val_toFr, henc.getD]
    rfl
  have hrange := hs.withdrawnValue.val_lt (by decide)
  have hle := hs.withdrawnValue_le
  have hpos := h.positive
  have hnote : a.note.value.val = a.value.val := rfl
  have hval := fr32ToI128_eq (hword ▸ hrange) (by omega)
  omega

theorem Withdrawal.vault_le {args : WithdrawArgs} (x : Withdrawal host w args) (token : Address) :
  w.vault host token ≤ x.world.vault host token + (fr32ToI128 (x.signals.getD 2 0)).val
  := by
  have hpaid := vault_le_pay x.canPay token
  have hworld : x.world.vault host token
      = (w.pay host x.token args.target x.net).vault host token := rfl
  have hnet := x.net_eq
  have hfee := x.fee_nonneg
  have hnonneg := x.canPay.1
  rw [hworld]
  split at hpaid
  · omega
  · omega

theorem CctpExit.vault_le {args : WithdrawCctpArgs} (x : CctpExit host w args)
    (token : Address) :
  w.vault host token
    ≤ x.world.vault host token + (fr32ToI128 (x.signals.getD 2 0)).val + max 0 args.maxFee.val
  := by
  have hcovered := x.pulled_covered
  have hnonneg := x.pulled_nonneg
  have hle := x.pulled_le
  have hpull := x.pullAmount_eq
  have hpos := x.checked.positive
  have hbalance : x.pulled.val.toNat ≤ x.tokens.balance w.pool.usdc host.self := by
    rw [World.vault] at hcovered
    rw [x.tokens_balance]
    omega
  have hmove := Token.Ledger.le_balance_move hbalance x.tmm token
  rw [x.tokens_balance] at hmove
  have hworld : x.world.vault host token
      = (x.tokens.move w.pool.usdc host.self x.tmm x.pulled.val.toNat).balance token
          host.self := rfl
  rw [hworld, World.vault]
  split at hmove
  · omega
  · omega

theorem RfqSettlement.vault_le {args : RfqSettleArgs} (x : RfqSettlement host w args)
    (token : Address) :
  w.vault host token ≤ x.world.vault host token + (fr32ToI128 (x.signals.getD 2 0)).val
  := by
  have hpaid := vault_le_pay x.canPay token
  have hworld : x.world.vault host token = (w.pay host w.pool.usdc args.toSolver
      (fr32ToI128 (x.signals.getD 2 0))).vault host token := rfl
  have hpos := x.checked.positive
  rw [hworld]
  split at hpaid
  · omega
  · omega

theorem AtomicSwap.vault_le {args : AtomicSwapArgs} (x : AtomicSwap host w args)
    {token : Address} (hne : x.outToken ≠ token) :
  w.vault host token ≤ x.world.vault host token + (fr32ToI128 (x.signals.getD 2 0)).val
  := by
  have hout := vault_le_pay x.canPayOut token
  have hin := vault_le_pay x.canPayIn token
  have hworld : x.world.vault host token
      = ((w.pay host x.outToken args.userXlmRecipient args.quotedOutput).pay host x.inToken
          args.solverUsdcRecipient x.credit).vault host token := rfl
  have hcredit := x.credit_eq
  have hfee := x.fee_nonneg
  have hnonneg := x.canPayIn.1
  rw [if_neg (by tauto)] at hout
  rw [hworld]
  split at hin
  · omega
  · omega

/-- An accepted spend takes at most the value of the note out of the pool's balance of the
note's asset, and an exit at most its maximal fee on top. -/
theorem vault_decrease_le (hc : c.SpendsNote) (hdistinct : w.pool.DistinctTokens)
    (hcanonical : c.Canonical) {a : Withdraw.Assignment 12 2}
    (ha : WithdrawWitness host.poseidon c.signals a) {token : Address}
    (htoken : w.pool.assetToken.get (c.signals.getD 17 0) = some token)
    (h : c.exec host tx w = some w') :
  w.vault host token - w'.vault host token ≤ a.note.value.val + c.feeAllowance
  := by
  have hvalue := hcanonical.getD 2
  cases Call.exec_outcome h with
  | withdraw args x =>
      rw [x.signals_call] at ha hvalue
      have hle := x.checked.withdrawn_le ha hvalue
      have hvault := x.vault_le token
      simp only [Call.feeAllowance]
      omega
  | withdrawCctp args x =>
      rw [x.signals_call] at ha hvalue
      have hle := x.checked.withdrawn_le ha hvalue
      have hvault := x.vault_le token
      simp only [Call.feeAllowance]
      omega
  | rfqSettle args x =>
      rw [x.signals_call] at ha hvalue
      have hle := x.checked.withdrawn_le ha hvalue
      have hvault := x.vault_le token
      simp only [Call.feeAllowance]
      omega
  | rfqSettleAtomicSwap args x =>
      rw [x.signals_call] at ha htoken hvalue
      have hle := x.checked.withdrawn_le ha hvalue
      have hne : x.outToken ≠ token := by
        rintro rfl
        apply x.asset_ne (hdistinct _ _ _ x.outToken_eq htoken)
      have hvault := x.vault_le hne
      simp only [Call.feeAllowance]
      omega
  | _ => exact absurd hc id

namespace Deployment

theorem exitArgs_witness :
  WithdrawWitness poseidon255 (Call.withdrawCctp exitArgs).signals exitSpend
  := withdrawWitness_encode rfl exitSpend_satisfied

theorem exitArgs_canonical :
  (Call.withdrawCctp exitArgs).Canonical
  := Call.canonical_ofFr (signals_encode (a := exitSpend) rfl)

/-- The exit of the note is accepted, and takes 1050 units out of the pool. -/
theorem exitArgs_exec :
  (endowed.pool.assetToken.writes.map Prod.snd).Nodup
    ∧ endowed.pool.assetToken.get usdcId = some usdc
    ∧ ((Call.withdrawCctp exitArgs).exec exitHost exitTx endowed).map (fun w' =>
        (endowed.vault exitHost usdc - w'.vault exitHost usdc : ℤ)) = some 1050
  := by
  decide +kernel

/-- The exit of a note of 1000 units takes more than 1000 units out of the pool. -/
theorem exitArgs_takesFee :
  endowed.pool.DistinctTokens ∧ (Call.withdrawCctp exitArgs).Canonical
    ∧ WithdrawWitness poseidon255 (Call.withdrawCctp exitArgs).signals exitSpend
    ∧ ∃ w', (Call.withdrawCctp exitArgs).exec exitHost exitTx endowed = some w'
      ∧ ¬ (endowed.vault exitHost usdc - w'.vault exitHost usdc : ℤ) ≤ exitSpend.note.value.val
  := by
  obtain ⟨hnodup, -, hvault⟩ := exitArgs_exec
  obtain ⟨w', hw', hdecrease⟩ := Option.map_eq_some_iff.mp hvault
  refine ⟨State.distinctTokens_of_nodup hnodup, exitArgs_canonical, exitArgs_witness, w', hw', ?_⟩
  rw [hdecrease]
  decide

/-- The exit takes no more than the value of the note and the maximal fee. -/
theorem exitArgs_decrease_le :
  ∃ w', (Call.withdrawCctp exitArgs).exec exitHost exitTx endowed = some w'
    ∧ (endowed.vault exitHost usdc - w'.vault exitHost usdc : ℤ) ≤ 1000 + 50
  := by
  obtain ⟨hnodup, htoken, hvault⟩ := exitArgs_exec
  obtain ⟨w', hw', -⟩ := Option.map_eq_some_iff.mp hvault
  have hsignals := signals_encode (c := .withdrawCctp exitArgs) (a := exitSpend) rfl
  have hasset : (exitSpend.publicSignals.map Word.ofFr).getD 17 0 = usdcId := by
    decide
  use w', hw'
  apply vault_decrease_le (c := .withdrawCctp exitArgs) trivial
    (State.distinctTokens_of_nodup hnodup) exitArgs_canonical exitArgs_witness _ hw'
  rw [hsignals, hasset]
  apply htoken

end Deployment

end

end Shade.Pool
