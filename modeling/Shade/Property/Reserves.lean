import Shade.Pool.Deployment

/-!
# Reserves

The pool keeps the note supply of each asset and refuses to bring it above its balance of
the asset's token. A supply stays covered along a run as long as whatever leaves the pool
without being taken off a supply comes out of a surplus: the reimbursement of a solver, the
delivery of a swap's output asset, and what the messenger takes of an allowance after the
call that gave it.
-/

namespace Shade.Pool

open Txn

/-! ### What has to stay covered -/

/-- Every registered asset has a note supply between zero and the balance of its token. -/
def Backed (host : Host) (w : World) : Prop :=
  ∀ assetId token, w.pool.assetToken.get assetId = some token →
    0 ≤ w.pool.supply assetId ∧ w.pool.supply assetId ≤ w.vault host token

/-- Distinct assets have distinct tokens. -/
def State.DistinctTokens (s : State) : Prop :=
  ∀ assetId assetId' token, s.assetToken.get assetId = some token →
    s.assetToken.get assetId' = some token → assetId = assetId'

/-- Assets that were each registered to another token have distinct tokens. -/
theorem State.distinctTokens_of_nodup {s : State}
    (h : (s.assetToken.writes.map Prod.snd).Nodup) :
  s.DistinctTokens
  := by
  intro assetId assetId' token hid hid'
  have heq := List.inj_on_of_nodup_map h (Store.mem_writes_of_get hid)
    (Store.mem_writes_of_get hid') rfl
  apply congrArg Prod.fst heq

/-- The supplies stay covered if an amount of a token goes to an address: it stays in the
pool, or there is a surplus. -/
def World.Spares (host : Host) (w : World) (token target : Address) (amount : ℤ) : Prop :=
  target = host.self ∨ ∀ assetId, w.pool.assetToken.get assetId = some token →
    w.pool.supply assetId + amount ≤ w.vault host token

/-- What leaves the pool through an action without being taken off a supply is a surplus. A
solver is reimbursed in USDC, the output of a swap is delivered in the token of the output
asset, and an exit is taken off the supply of the asset registered under the id of USDC. -/
def Covered (host : Host) (w : World) : Action → Prop
  | .call _ (.rfqSettle args) =>
      w.Spares host w.pool.usdc args.toSolver
        (fr32ToI128 ((Call.rfqSettle args).signals.getD 2 0)).val
  | .call _ (.rfqSettleAtomicSwap args) =>
      ∀ token, w.pool.assetToken.get args.outputAssetId = some token →
        w.Spares host token args.userXlmRecipient args.quotedOutput.val
  | .call _ (.withdrawCctp _) =>
      ∀ token, w.pool.assetToken.get (recipientHash host w.pool.usdc) = some token →
        token = w.pool.usdc
  | .transferFrom token _ target amount => w.Spares host token target amount.val
  | _ => True

variable {host : Host} {tx : Tx} {w w' : World}

/-! ### One step -/

/-- The pool loses at most what it pays, in the token it pays in. -/
theorem vault_le_pay {token target : Address} {amount : I128}
    (h : w.tokens.CanPay token host.self target amount) (token' : Address) :
  w.vault host token' ≤ (w.pay host token target amount).vault host token'
    + if token = token' ∧ target ≠ host.self then amount.val else 0
  := by
  obtain ⟨hpos, hcovered, -⟩ := h
  have hmove := Token.Ledger.le_balance_move (l := w.tokens) (n := amount.val.toNat)
    (by omega : _ ≤ w.tokens.balance token host.self) target token'
  simp only [World.vault, World.pay]
  split
  · rw [if_pos (by assumption)] at hmove
    omega
  · rw [if_neg (by assumption)] at hmove
    omega

/-- Covered supplies stay covered if neither they nor the assets change and a spared amount
leaves at most. -/
theorem Backed.of_spared (hw : Backed host w) {token target : Address} {amount : ℤ}
    (hspared : w.Spares host token target amount)
    (hassets : w'.pool.assetToken = w.pool.assetToken)
    (hsupply : w'.pool.noteSupply = w.pool.noteSupply)
    (hvault : ∀ token', w.vault host token' ≤ w'.vault host token'
      + if token = token' ∧ target ≠ host.self then amount else 0) :
  Backed host w'
  := by
  intro assetId token' htoken
  rw [hassets] at htoken
  obtain ⟨hnonneg, hle⟩ := hw assetId token' htoken
  have hsame : w'.pool.supply assetId = w.pool.supply assetId := by
    simp only [State.supply, hsupply]
  have hpaid := hvault token'
  rw [hsame]
  use hnonneg
  split at hpaid
  · next h =>
      obtain ⟨rfl, htarget⟩ := h
      rcases hspared with hself | hsurplus
      · exact absurd hself htarget
      · have := hsurplus assetId htoken
        omega
  · omega

/-- Covered supplies stay covered if nothing leaves and neither they nor the assets change. -/
theorem Backed.of_frame (hw : Backed host w)
    (hassets : w'.pool.assetToken = w.pool.assetToken)
    (hsupply : w'.pool.noteSupply = w.pool.noteSupply)
    (hvault : ∀ token, w.vault host token ≤ w'.vault host token) :
  Backed host w'
  := by
  apply hw.of_spared (Or.inl rfl : w.Spares host host.self host.self 0) hassets hsupply
  intro token'
  have := hvault token'
  simpa using this

/-- Covered supplies stay covered if one of them is set within its reserves, and the tokens
of the other assets keep covering theirs. -/
theorem Backed.of_set (hw : Backed host w) (assetId : Word) (next : I128)
    (hassets : w'.pool.assetToken = w.pool.assetToken)
    (hsupply : w'.pool.noteSupply = w.pool.noteSupply.set assetId next)
    (hnonneg : 0 ≤ next.val)
    (hnext : ∀ token, w.pool.assetToken.get assetId = some token →
      next.val ≤ w'.vault host token)
    (hrest : ∀ assetId' token, assetId ≠ assetId' →
      w.pool.assetToken.get assetId' = some token →
      w.pool.supply assetId' ≤ w'.vault host token) :
  Backed host w'
  := by
  intro assetId' token htoken
  rw [hassets] at htoken
  rw [State.supply_set hsupply]
  by_cases hid : assetId = assetId'
  · subst hid
    rw [if_pos rfl]
    use hnonneg
    apply hnext token htoken
  · rw [if_neg hid]
    use (hw assetId' token htoken).1
    apply hrest assetId' token hid htoken

/-- A withdrawal takes its value off the supply of the asset it pays. -/
theorem Backed.withdraw (hw : Backed host w) (hdistinct : w.pool.DistinctTokens)
    {args : WithdrawArgs} (x : Withdrawal host w args) :
  Backed host x.world
  := by
  refine hw.of_set (x.signals.getD 17 0) x.next rfl rfl x.next_nonneg ?_ ?_
  · intro token htoken
    obtain rfl := Option.some.inj (x.token_eq.symm.trans htoken)
    apply x.next_le
  · intro assetId token hid htoken
    have hne : x.token ≠ token := by
      rintro rfl
      apply hid (hdistinct _ _ _ x.token_eq htoken)
    have hpaid := vault_le_pay x.canPay token
    have hle := (hw assetId token htoken).2
    rw [if_neg (by tauto)] at hpaid
    change _ ≤ ((w.pay host x.token args.target x.net).vault host token : ℤ)
    omega

/-- An exit takes its value off the supply of USDC, out of which the messenger is paid. -/
theorem Backed.withdrawCctp (hw : Backed host w) (hdistinct : w.pool.DistinctTokens)
    {args : WithdrawCctpArgs} (x : CctpExit host w args)
    (hregistered : ∀ token, w.pool.assetToken.get (recipientHash host w.pool.usdc) = some token →
      token = w.pool.usdc) :
  Backed host x.world
  := by
  have htokenEq := x.token_eq
  rw [x.asset] at htokenEq
  have husdc := hregistered _ htokenEq
  refine hw.of_set (x.signals.getD 17 0) x.next rfl rfl x.next_nonneg ?_ ?_
  · intro token htoken
    obtain rfl := Option.some.inj (x.token_eq.symm.trans htoken)
    apply x.next_le
  · intro assetId token hid htoken
    have hne : w.pool.usdc ≠ token := by
      rintro rfl
      rw [husdc] at htokenEq
      apply hid
      rw [x.asset]
      apply hdistinct _ _ _ htokenEq htoken
    have hcovered : x.pulled.val.toNat ≤ x.tokens.balance w.pool.usdc host.self := by
      have hpulled := x.pulled_covered
      have hnonneg := x.pulled_nonneg
      rw [World.vault] at hpulled
      rw [x.tokens_balance]
      omega
    have hmove := Token.Ledger.le_balance_move hcovered x.tmm token
    rw [if_neg (by tauto), x.tokens_balance] at hmove
    have hle := (hw assetId token htoken).2
    rw [World.vault] at hle
    change _ ≤ ((x.tokens.move w.pool.usdc host.self x.tmm x.pulled.val.toNat).balance token
      host.self : ℤ)
    omega

/-- A swap takes its value off the supply of the asset it credits the solver in; what it
delivers to the user has to be spared. -/
theorem Backed.rfqSettleAtomicSwap (hw : Backed host w) (hdistinct : w.pool.DistinctTokens)
    {args : AtomicSwapArgs} (x : AtomicSwap host w args)
    (hspared : w.Spares host x.outToken args.userXlmRecipient args.quotedOutput.val) :
  Backed host x.world
  := by
  refine hw.of_set (x.signals.getD 17 0) x.next rfl rfl x.next_nonneg ?_ ?_
  · intro token htoken
    obtain rfl := Option.some.inj (x.inToken_eq.symm.trans htoken)
    apply x.next_le
  · intro assetId token hid htoken
    have hne : x.inToken ≠ token := by
      rintro rfl
      apply hid (hdistinct _ _ _ x.inToken_eq htoken)
    have hout := vault_le_pay x.canPayOut token
    have hin := vault_le_pay x.canPayIn token
    have hle := (hw assetId token htoken).2
    rw [if_neg (by tauto)] at hin
    change _ ≤ (((w.pay host x.outToken args.userXlmRecipient args.quotedOutput).pay host
      x.inToken args.solverUsdcRecipient x.credit).vault host token : ℤ)
    split at hout
    · next h =>
        obtain ⟨rfl, htarget⟩ := h
        rcases hspared with hself | hsurplus
        · exact absurd hself htarget
        · have := hsurplus assetId htoken
          omega
    · omega

/-- An accepted call keeps the supplies covered if what it pays out of no supply is a
surplus. -/
theorem Backed.call (hw : Backed host w) (hdistinct : w.pool.DistinctTokens) {c : Call}
    (hcovered : Covered host w (.call tx c)) (h : c.exec host tx w = some w') :
  Backed host w'
  := by
  cases Call.exec_outcome h with
  | receiveCctpDeposit args x =>
      refine hw.of_set (x.signals.getD 8 0) x.next (by simp [Deposit.world])
        (by simp [Deposit.world]) x.next_nonneg ?_ ?_
      · intro token htoken
        obtain rfl := Option.some.inj (x.token_eq.symm.trans htoken)
        simpa [Deposit.world, World.vault] using x.next_le
      · intro assetId token _ htoken
        simpa [Deposit.world, World.vault] using (hw assetId token htoken).2
  | withdraw args x =>
      apply hw.withdraw hdistinct x
  | withdrawCctp args x =>
      apply hw.withdrawCctp hdistinct x hcovered
  | rfqSettle args x =>
      rw [Covered, x.signals_call] at hcovered
      refine hw.of_spared hcovered rfl rfl ?_
      intro token
      apply vault_le_pay x.canPay
  | rfqSettleAtomicSwap args x =>
      apply hw.rfqSettleAtomicSwap hdistinct x (hcovered _ x.outToken_eq)
  | privateTransferSettle args x =>
      refine hw.of_frame rfl rfl ?_
      intro token
      rfl
  | mpcSettle args x =>
      refine hw.of_frame (by simp [Settlement.world]) (by simp [Settlement.world]) ?_
      intro token
      simp [Settlement.world, World.vault]
  | mpcSettlePriced args x =>
      refine hw.of_frame (by simp [Settlement.world]) (by simp [Settlement.world]) ?_
      intro token
      simp [Settlement.world, World.vault]
  | registerAsset assetId token hadmin hnew =>
      intro assetId' token' htoken
      change (w.pool.assetToken.set assetId token).get assetId' = some token' at htoken
      rw [State.supply_set (s := w.pool) rfl]
      rw [Store.get_set] at htoken
      split at htoken
      · next hid =>
          rw [if_pos hid]
          constructor
          · rfl
          · apply Int.natCast_nonneg
      · next hid =>
          rw [if_neg hid]
          apply hw assetId' token' htoken
  | config c hadmin =>
      cases c <;> exact hw

/-- An action keeps the supplies covered if what leaves the pool out of no supply is a
surplus. -/
theorem Backed.step (hw : Backed host w) (hdistinct : w.pool.DistinctTokens) {a : Action}
    (hcovered : Covered host w a) (h : step host a w = some w') :
  Backed host w'
  := by
  cases a with
  | call tx c => apply hw.call hdistinct hcovered (step_call h)
  | registry auth c =>
      obtain ⟨r, -, rfl⟩ := Option.map_eq_some_iff.mp h
      exact hw
  | mint token holder amount =>
      obtain rfl := Option.some.inj h
      refine hw.of_frame rfl rfl ?_
      intro token'
      rw [World.vault, World.vault, World.mapTokens_tokens, Token.Ledger.balance_mint]
      omega
  | transfer token source target amount =>
      rw [Pool.step] at h
      split at h
      · cases h
      · next hsource =>
          obtain ⟨l, hl, rfl⟩ := Option.map_eq_some_iff.mp h
          obtain ⟨_, hl⟩ := attempt_eq_some.mp hl
          obtain ⟨⟨hpos, hbalance, -⟩, rfl⟩ := Token.transfer_ok.mp hl
          refine hw.of_frame rfl rfl ?_
          intro token'
          have hmove := Token.Ledger.balance_move (n := amount.val.toNat)
            (by omega : _ ≤ w.tokens.balance token source) target token' host.self
          rw [if_neg (by tauto)] at hmove
          simp only [World.vault]
          split at hmove
          · omega
          · omega
  | transferFrom token spender target amount =>
      obtain ⟨l, hl, rfl⟩ := Option.map_eq_some_iff.mp h
      obtain ⟨_, hl⟩ := attempt_eq_some.mp hl
      obtain ⟨hpos, -, hbalance, n, expiration, rfl⟩ := Token.transferFrom_ok hl
      refine hw.of_spared hcovered rfl rfl ?_
      intro token'
      have hallowed : amount.val.toNat ≤ (w.tokens.setAllowance token host.self spender n
          expiration).balance token host.self := by
        rw [Token.Ledger.balance_setAllowance]
        omega
      have hmove := Token.Ledger.le_balance_move hallowed target token'
      rw [Token.Ledger.balance_setAllowance] at hmove
      simp only [World.vault]
      split
      · rw [if_pos (by assumption)] at hmove
        omega
      · rw [if_neg (by assumption)] at hmove
        omega
  | advance ledgers =>
      obtain rfl := Option.some.inj h
      exact hw

/-! ### Whole runs -/

/-- From a pool that has just been made, every supply stays covered along a run in which
distinct assets have distinct tokens and what leaves the pool out of no supply is a
surplus. -/
theorem backed_run (host : Host) (admin usdcSac verifier nullifierRegistry : Address)
    (depth : ℕ) (poolId chainId : UInt32) (registry : NullifierRegistry.State)
    (tokens : Token.Ledger) (sequence : ℕ) (actions : List Action)
    (hrun : Machine.Along (Pool.step host)
      (fun w a => w.pool.DistinctTokens ∧ Covered host w a)
      (World.init (State.constructor admin usdcSac verifier nullifierRegistry depth poolId chainId)
        registry tokens sequence) actions) :
  Backed host (run host
    (World.init (State.constructor admin usdcSac verifier nullifierRegistry depth poolId chainId)
      registry tokens sequence) actions)
  := by
  apply Machine.invariant_run _ actions _ hrun
  · intro assetId token htoken
    cases htoken
  · intro w a w' hw hcond h
    apply hw.step hcond.1 hcond.2 h

namespace Deployment

/-- The settlement of the quote to the solver. -/
def reimburse : Action := .call ⟨[], none⟩ (.rfqSettle (quoteArgs solver))

/-- A deposit of the note and the settlement of the quote. -/
def reimbursed : List Action := setup ++ [depositNote, reimburse]

/-- Although the verifiers are sound, the settlement pays the solver the 1000 units that back
the note, whose supply stays 1000. -/
theorem reimbursed_not_backed :
  Machine.Along (Pool.step quoteHost)
      (fun w _ => w.pool.DistinctTokens ∧ w.pool.Sound quoteHost) (genesis usdc) reimbursed
    ∧ ¬ Backed quoteHost (run quoteHost (genesis usdc) reimbursed)
  := by
  have hrun : Machine.Along (Pool.step quoteHost)
        (fun w _ => (w.pool.assetToken.writes.map Prod.snd).Nodup ∧ Configured w.pool)
        (genesis usdc) reimbursed
      ∧ (run quoteHost (genesis usdc) reimbursed).pool.assetToken.get usdcId = some usdc
      ∧ ¬ (run quoteHost (genesis usdc) reimbursed).pool.supply usdcId
        ≤ (run quoteHost (genesis usdc) reimbursed).vault quoteHost usdc := by
    decide +kernel
  obtain ⟨hconfigured, htoken, hsupply⟩ := hrun
  have hwitnessed : (noteVectors [quoteSpend]).Witnessed := by
    apply noteVectors_witnessed
    intro a ha
    obtain rfl := List.mem_singleton.mp ha
    apply quoteSpend_satisfied
  constructor
  · apply hconfigured.imp
    rintro w _ ⟨hnodup, hw⟩
    use State.distinctTokens_of_nodup hnodup
    apply sound hwitnessed hw
  · intro h
    apply hsupply (h usdcId usdc htoken).2

/-- A deposit of the note and 1000 more units for the pool. -/
def funded : List Action := setup ++ [depositNote, .mint usdc pool 1000]

/-- After the deposit and the mint, the pool has twice as much USDC as it owes. -/
theorem funded_state :
  Machine.Along (Pool.step quoteHost)
      (fun w _ => (w.pool.assetToken.writes.map Prod.snd).Nodup) (genesis usdc)
      (funded ++ [reimburse])
    ∧ (run quoteHost (genesis usdc) funded).pool.assetToken.writes
        = [(xlmId, xlm), (usdcId, usdc)]
    ∧ (run quoteHost (genesis usdc) funded).pool.usdc = usdc
    ∧ (run quoteHost (genesis usdc) funded).pool.supply usdcId + 1000
        ≤ (run quoteHost (genesis usdc) funded).vault quoteHost usdc
    ∧ xlm ≠ usdc
  := by
  decide +kernel

theorem reimburse_covered :
  Covered quoteHost (run quoteHost (genesis usdc) funded) reimburse
  := by
  obtain ⟨-, hwrites, husdc, hle, hne⟩ := funded_state
  have hsignals := signals_encode (c := .rfqSettle (quoteArgs solver)) (a := quoteSpend) rfl
  have hcredit : (fr32ToI128 ((quoteSpend.publicSignals.map Word.ofFr).getD 2 0)).val = 1000 := by
    decide
  rw [reimburse, Covered, hsignals, hcredit, husdc]
  right
  intro assetId htoken
  have hmem := Store.mem_writes_of_get htoken
  rw [hwrites] at hmem
  rcases List.mem_pair.mp hmem with h | h
  · exact absurd (congrArg Prod.snd h).symm hne
  · obtain rfl : assetId = usdcId := congrArg Prod.fst h
    exact hle

/-- With the 1000 units on top, the settlement leaves the supplies covered. -/
theorem funded_backed :
  Backed quoteHost (run quoteHost (genesis usdc) (funded ++ [reimburse]))
  := by
  apply backed_run
  apply Machine.Along.and
  · apply funded_state.1.imp
    intro w _ hw
    apply State.distinctTokens_of_nodup hw
  · apply Machine.Along.append
    · apply Machine.along_of_forall
      intro a ha w
      simp only [funded, setup, adminCall, depositNote, List.cons_append, List.nil_append,
        List.mem_cons, List.not_mem_nil, or_false] at ha
      rcases ha with rfl | rfl | rfl | rfl | rfl | rfl | rfl | rfl <;> trivial
    · constructor
      · apply reimburse_covered
      · trivial

end Deployment

end Shade.Pool
