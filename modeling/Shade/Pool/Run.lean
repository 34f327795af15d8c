import Shade.Library.Machine
import Shade.Pool.Admin
import Shade.Pool.Deposit
import Shade.Pool.Rfq
import Shade.Pool.Settle

/-!
# Runs of the pool

The pool and what surrounds it as a machine. An action is a call of the pool in a
transaction, an invocation of the nullifier registry by others, or something that happens
to the tokens or the ledger without the pool: tokens are minted or move between others, a
spender the pool has approved takes tokens out of its allowance, and the ledger advances.

For each thing a run may change there is one lemma that says what a single action does to
it; the properties of whole runs are derived from these lemmas.
-/

namespace Shade.Pool

open Txn

/-- The calls of the administrator that change the configuration of the pool. -/
inductive Config where
  | setCctpMessenger (tokenMessengerMinter : Address)
  | setTransferVerifier (verifier : Address)
  | setDepositVerifier (verifier : Address)
  | setAuthorizedSolver (solverPubkey : Word) (allowed : Bool)
  | setAssociationRoot (associationRoot : Word)
  | setCommittee (pubkeys : List Word)
  | setMpcVerifier (verifier : Address)
  | setMpcPricedVerifier (verifier : Address)
  | upgrade (newWasmHash : Word)
  | pause
  | unpause
  | transferAdmin (newAdmin : Address)
deriving DecidableEq

/-- The calls of the pool. -/
inductive Call where
  | receiveCctpDeposit (args : DepositArgs)
  | withdraw (args : WithdrawArgs)
  | withdrawCctp (args : WithdrawCctpArgs)
  | rfqSettle (args : RfqSettleArgs)
  | rfqSettleAtomicSwap (args : AtomicSwapArgs)
  | privateTransferSettle (args : TransferArgs)
  | mpcSettle (args : MpcArgs)
  | mpcSettlePriced (args : MpcArgs)
  | registerAsset (assetId : Word) (token : Address)
  | config (c : Config)
deriving DecidableEq

/-- The invocations of the nullifier registry. -/
inductive RegistryCall where
  | initializeRegistry (admin : Address)
  | setAuthorizedSpender (spender : Address) (allowed : Bool)
  | spend (caller : Address) (nullifier : Word)
  | pause
  | unpause
deriving DecidableEq

/-- What can happen. -/
inductive Action where
  | call (tx : Tx) (c : Call)
  | registry (auth : List Address) (c : RegistryCall)
  | mint (token holder : Address) (amount : ℕ)
  | transfer (token source target : Address) (amount : I128)
  | transferFrom (token spender target : Address) (amount : I128)
  | advance (ledgers : ℕ)
deriving DecidableEq

variable (host : Host)

def Config.exec (tx : Tx) : Config → Exec Unit
  | setCctpMessenger tmm => Pool.setCctpMessenger tx tmm
  | setTransferVerifier verifier => Pool.setTransferVerifier tx verifier
  | setDepositVerifier verifier => Pool.setDepositVerifier tx verifier
  | setAuthorizedSolver pubkey allowed => Pool.setAuthorizedSolver tx pubkey allowed
  | setAssociationRoot root => Pool.setAssociationRoot tx root
  | setCommittee pubkeys => Pool.setCommittee tx pubkeys
  | setMpcVerifier verifier => Pool.setMpcVerifier tx verifier
  | setMpcPricedVerifier verifier => Pool.setMpcPricedVerifier tx verifier
  | upgrade wasm => Pool.upgrade tx wasm
  | pause => Pool.pause tx
  | unpause => Pool.unpause tx
  | transferAdmin admin => Pool.transferAdmin tx admin

/-- The world after a call, if it is accepted. -/
def Call.exec (tx : Tx) : Call → World → Option World
  | receiveCctpDeposit args => attempt (Pool.receiveCctpDeposit host tx args)
  | withdraw args => attempt (Pool.withdraw host tx args)
  | withdrawCctp args => attempt (Pool.withdrawCctp host tx args)
  | rfqSettle args => attempt (Pool.rfqSettle host tx args)
  | rfqSettleAtomicSwap args => attempt (Pool.rfqSettleAtomicSwap host tx args)
  | privateTransferSettle args => attempt (Pool.privateTransferSettle host tx args)
  | mpcSettle args => attempt (Pool.mpcSettle host tx args)
  | mpcSettlePriced args => attempt (Pool.mpcSettlePriced host tx args)
  | registerAsset assetId token => attempt (Pool.registerAsset tx assetId token)
  | config c => attempt (c.exec tx)

/-- The registry after an invocation, if it is accepted. -/
def RegistryCall.exec (auth : List Address) : RegistryCall → NullifierRegistry.State →
    Option NullifierRegistry.State
  | initializeRegistry admin => attempt (NullifierRegistry.initializeRegistry (· ∈ auth) admin)
  | setAuthorizedSpender spender allowed =>
      attempt (NullifierRegistry.setAuthorizedSpender (· ∈ auth) spender allowed)
  | spend caller nullifier => attempt (NullifierRegistry.spend (· ∈ auth) caller nullifier)
  | pause => attempt (NullifierRegistry.pause (· ∈ auth))
  | unpause => attempt (NullifierRegistry.unpause (· ∈ auth))

/-- The world after an action, if it is possible. A pool that has been upgraded runs other
code, so no call of this code is possible any more. -/
def step : Action → World → Option World
  | .call tx c, w => if w.pool.wasm = none then c.exec host tx w else none
  | .registry auth c, w => (c.exec auth w.registry).map fun r => { w with registry := r }
  | .mint token holder amount, w => some (w.mapTokens (·.mint token holder amount))
  | .transfer token source target amount, w =>
      if source = host.self then none
      else (attempt (Token.transfer token source target amount) w.tokens).map
        fun l => { w with tokens := l }
  | .transferFrom token spender target amount, w =>
      (attempt (Token.transferFrom w.sequence token spender host.self target amount) w.tokens).map
        fun l => { w with tokens := l }
  | .advance ledgers, w => some { w with sequence := w.sequence + ledgers }

/-- The world after a list of actions. -/
abbrev run (w : World) (actions : List Action) : World := Machine.run (step host) w actions

/-- The actions of a list that are possible, in order. -/
abbrev trace (w : World) (actions : List Action) : List Action :=
  Machine.trace (step host) w actions

/-- The world of a pool that has just been made. -/
def World.init (pool : State) (registry : NullifierRegistry.State) (tokens : Token.Ledger)
    (sequence : ℕ) : World where
  pool := pool
  registry := registry
  tokens := tokens
  sequence := sequence
  movements := []
  events := []

variable {host} {tx : Tx} {w w' : World}

/-! ### Changes of the configuration -/

/-- The change a configuration call makes to the storage. -/
def Config.apply : Config → State → State
  | setCctpMessenger tmm, s => { s with tmm := some tmm }
  | setTransferVerifier verifier, s => { s with xverifier := some verifier }
  | setDepositVerifier verifier, s => { s with depVerifier := some verifier }
  | setAuthorizedSolver pubkey allowed, s => { s with solver := s.solver.set pubkey allowed }
  | setAssociationRoot root, s => { s with assocRoot := some root }
  | setCommittee pubkeys, s => { s with mpcCmte := some pubkeys }
  | setMpcVerifier verifier, s => { s with mpcVerifier := some verifier }
  | setMpcPricedVerifier verifier, s => { s with mpcPverifier := some verifier }
  | upgrade wasm, s => { s with wasm := some wasm }
  | pause, s => { s with paused := true }
  | unpause, s => { s with paused := false }
  | transferAdmin admin, s => { s with admin := admin }

theorem Config.exec_ok {c : Config} {u : Unit} :
  (c.exec tx).run w = .ok (u, w') ↔ w.pool.admin ∈ tx.auth ∧ w' = w.mapPool c.apply
  := by
  cases c <;> exact adminSet_ok

/-! ### What an accepted call has checked -/

/-- An accepted call, with what it has checked, and the world it leaves. -/
inductive Outcome (host : Host) (tx : Tx) (w : World) : Call → World → Prop
  | receiveCctpDeposit (args : DepositArgs) (x : Deposit host tx w args) :
      Outcome host tx w (.receiveCctpDeposit args) x.world
  | withdraw (args : WithdrawArgs) (x : Withdrawal host w args) :
      Outcome host tx w (.withdraw args) x.world
  | withdrawCctp (args : WithdrawCctpArgs) (x : CctpExit host w args) :
      Outcome host tx w (.withdrawCctp args) x.world
  | rfqSettle (args : RfqSettleArgs) (x : RfqSettlement host w args) :
      Outcome host tx w (.rfqSettle args) x.world
  | rfqSettleAtomicSwap (args : AtomicSwapArgs) (x : AtomicSwap host w args) :
      Outcome host tx w (.rfqSettleAtomicSwap args) x.world
  | privateTransferSettle (args : TransferArgs) (x : Transfer host w args) :
      Outcome host tx w (.privateTransferSettle args) x.world
  | mpcSettle (args : MpcArgs) (x : Settlement host w w.pool.mpcVerifier 10 args) :
      Outcome host tx w (.mpcSettle args)
        (x.world.emit (.mpc args.batchHash args.nullifierA args.nullifierB args.outputCommitmentA
          args.outputCommitmentB args.newRoot))
  | mpcSettlePriced (args : MpcArgs) (x : Settlement host w w.pool.mpcPverifier 9 args) :
      Outcome host tx w (.mpcSettlePriced args)
        (x.world.emit (.mpcprice args.batchHash args.nullifierA args.nullifierB
          args.outputCommitmentA args.outputCommitmentB args.newRoot))
  | registerAsset (assetId : Word) (token : Address) (hadmin : w.pool.admin ∈ tx.auth)
      (hnew : w.pool.assetToken.get assetId = none) :
      Outcome host tx w (.registerAsset assetId token)
        (((w.mapPool fun s => { s with assetToken := s.assetToken.set assetId token }).setSupply
          assetId ⟨0, by decide, by decide⟩).emit (.regasset assetId token))
  | config (c : Config) (hadmin : w.pool.admin ∈ tx.auth) :
      Outcome host tx w (.config c) (w.mapPool c.apply)

theorem Call.exec_outcome {c : Call} (h : c.exec host tx w = some w') :
  Outcome host tx w c w'
  := by
  cases c with
  | receiveCctpDeposit args =>
      obtain ⟨_, h⟩ := attempt_eq_some.mp h
      obtain ⟨x, rfl⟩ := receiveCctpDeposit_ok h
      apply Outcome.receiveCctpDeposit
  | withdraw args =>
      obtain ⟨_, h⟩ := attempt_eq_some.mp h
      obtain ⟨x, rfl⟩ := withdraw_ok h
      apply Outcome.withdraw
  | withdrawCctp args =>
      obtain ⟨_, h⟩ := attempt_eq_some.mp h
      obtain ⟨x, rfl⟩ := withdrawCctp_ok h
      apply Outcome.withdrawCctp
  | rfqSettle args =>
      obtain ⟨_, h⟩ := attempt_eq_some.mp h
      obtain ⟨x, rfl⟩ := rfqSettle_ok h
      apply Outcome.rfqSettle
  | rfqSettleAtomicSwap args =>
      obtain ⟨_, h⟩ := attempt_eq_some.mp h
      obtain ⟨x, rfl⟩ := rfqSettleAtomicSwap_ok h
      apply Outcome.rfqSettleAtomicSwap
  | privateTransferSettle args =>
      obtain ⟨_, h⟩ := attempt_eq_some.mp h
      obtain ⟨x, rfl⟩ := privateTransferSettle_ok h
      apply Outcome.privateTransferSettle
  | mpcSettle args =>
      obtain ⟨_, h⟩ := attempt_eq_some.mp h
      obtain ⟨x, rfl⟩ := mpcSettle_ok h
      apply Outcome.mpcSettle
  | mpcSettlePriced args =>
      obtain ⟨_, h⟩ := attempt_eq_some.mp h
      obtain ⟨x, rfl⟩ := mpcSettlePriced_ok h
      apply Outcome.mpcSettlePriced
  | registerAsset assetId token =>
      obtain ⟨_, h⟩ := attempt_eq_some.mp h
      obtain ⟨hadmin, hnew, rfl⟩ := registerAsset_ok.mp h
      apply Outcome.registerAsset assetId token hadmin hnew
  | config c =>
      obtain ⟨_, h⟩ := attempt_eq_some.mp h
      obtain ⟨hadmin, rfl⟩ := Config.exec_ok.mp h
      apply Outcome.config c hadmin

/-! ### Nullifiers -/

/-- The encoded public signals a call carries. -/
def Call.pubSignalsBytes : Call → Option Bytes
  | receiveCctpDeposit args => some args.pubSignalsBytes
  | withdraw args => some args.pubSignalsBytes
  | withdrawCctp args => some args.pubSignalsBytes
  | rfqSettle args => some args.pubSignalsBytes
  | rfqSettleAtomicSwap args => some args.pubSignalsBytes
  | privateTransferSettle args => some args.pubSignalsBytes
  | mpcSettle args => args.pubSignalsBytes
  | mpcSettlePriced args => args.pubSignalsBytes
  | registerAsset _ _ => none
  | config _ => none

/-- The public signals a call carries. -/
def Call.signals (c : Call) : List Word :=
  (c.pubSignalsBytes.bind parsePublicSignals).getD []

/-- The nullifiers a call spends. -/
def Call.nullifiers : Call → List Word
  | c@(withdraw _) => [c.signals.getD 0 0]
  | c@(withdrawCctp _) => [c.signals.getD 0 0]
  | c@(rfqSettle _) => [c.signals.getD 0 0]
  | c@(rfqSettleAtomicSwap _) => [c.signals.getD 0 0]
  | c@(privateTransferSettle _) => [c.signals.getD 0 0]
  | c@(mpcSettle _) => [c.signals.getD 0 0, c.signals.getD 1 0]
  | c@(mpcSettlePriced _) => [c.signals.getD 0 0, c.signals.getD 1 0]
  | _ => []

/-- The nullifiers an action spends. -/
def Action.nullifiers : Action → List Word
  | call _ c => c.nullifiers
  | registry _ (.spend _ nullifier) => [nullifier]
  | _ => []

/-- The nullifiers recorded from one world to the next are new, and they are the given
ones. -/
def Records (w w' : World) (nullifiers : List Word) : Prop :=
  (∀ n ∈ nullifiers, w.registry.isSpent n = false)
    ∧ ∀ n, w'.registry.isSpent n = true ↔ n ∈ nullifiers ∨ w.registry.isSpent n = true

theorem Records.of_eq (h : w'.registry.spent = w.registry.spent) :
  Records w w' []
  := by
  constructor
  · simp
  · intro n
    simp [NullifierRegistry.State.isSpent, h]

theorem Records.of_admits {caller : Address} {nullifier : Word}
    (hfresh : w.registry.Admits caller nullifier)
    (h : w'.registry = (w.spend nullifier).registry) :
  Records w w' [nullifier]
  := by
  constructor
  · intro n hn
    obtain rfl := List.mem_singleton.mp hn
    apply hfresh.2.2
  · intro n
    rw [h, World.spend_registry, NullifierRegistry.isSpent_set, Bool.or_eq_true,
      decide_eq_true_iff, List.mem_singleton, eq_comm]

/-- A committee settlement records both nullifiers. -/
theorem Records.of_settlement {verifier : Option Address} {deadlineIndex : ℕ}
    {args : MpcArgs} (x : Settlement host w verifier deadlineIndex args) (event : Event) :
  Records w (x.world.emit event) [args.nullifierA, args.nullifierB]
  := by
  have hB := x.admittedB.2.2
  rw [World.spend_registry, NullifierRegistry.isSpent_set, Bool.or_eq_false_iff] at hB
  constructor
  · intro n hn
    rcases List.mem_pair.mp hn with rfl | rfl
    · apply x.admittedA.2.2
    · apply hB.2
  · intro n
    have hregistry : (x.world.emit event).registry
        = ((w.spend args.nullifierA).spend args.nullifierB).registry := rfl
    rw [hregistry, World.spend_registry, NullifierRegistry.isSpent_set, World.spend_registry,
      NullifierRegistry.isSpent_set, Bool.or_eq_true, Bool.or_eq_true, decide_eq_true_iff,
      decide_eq_true_iff, List.mem_pair, eq_comm (a := n), eq_comm (a := n)]
    tauto

/-- The signals of a call whose bytes parse. -/
theorem Call.signals_eq {c : Call} {bytes : Bytes} {signals : List Word}
    (hbytes : c.pubSignalsBytes = some bytes) (hparse : parsePublicSignals bytes = some signals) :
  c.signals = signals
  := by
  rw [Call.signals, hbytes, Option.bind_some, hparse, Option.getD_some]

theorem Deposit.signals_call {args : DepositArgs} (x : Deposit host tx w args) :
  (Call.receiveCctpDeposit args).signals = x.signals
  := Call.signals_eq rfl x.parsed

theorem Withdrawal.signals_call {args : WithdrawArgs} (x : Withdrawal host w args) :
  (Call.withdraw args).signals = x.signals
  := Call.signals_eq rfl x.checked.parsed

theorem CctpExit.signals_call {args : WithdrawCctpArgs} (x : CctpExit host w args) :
  (Call.withdrawCctp args).signals = x.signals
  := Call.signals_eq rfl x.checked.parsed

theorem RfqSettlement.signals_call {args : RfqSettleArgs} (x : RfqSettlement host w args) :
  (Call.rfqSettle args).signals = x.signals
  := Call.signals_eq rfl x.checked.parsed

theorem AtomicSwap.signals_call {args : AtomicSwapArgs} (x : AtomicSwap host w args) :
  (Call.rfqSettleAtomicSwap args).signals = x.signals
  := Call.signals_eq rfl x.checked.parsed

theorem Transfer.signals_call {args : TransferArgs} (x : Transfer host w args) :
  (Call.privateTransferSettle args).signals = x.signals
  := Call.signals_eq rfl x.parsed

theorem Settlement.signals_mpcSettle {verifier : Option Address} {deadlineIndex : ℕ}
    {args : MpcArgs} (x : Settlement host w verifier deadlineIndex args) :
  (Call.mpcSettle args).signals = x.signals
  := Call.signals_eq (c := .mpcSettle args) x.bytes_eq x.parsed

theorem Settlement.signals_mpcSettlePriced {verifier : Option Address} {deadlineIndex : ℕ}
    {args : MpcArgs} (x : Settlement host w verifier deadlineIndex args) :
  (Call.mpcSettlePriced args).signals = x.signals
  := Call.signals_eq (c := .mpcSettlePriced args) x.bytes_eq x.parsed

/-- An accepted call records the nullifiers it spends, none of which was spent. -/
theorem Call.exec_records {c : Call} (h : c.exec host tx w = some w') :
  Records w w' c.nullifiers
  := by
  cases Call.exec_outcome h with
  | receiveCctpDeposit args x =>
      apply Records.of_eq
      rfl
  | withdraw args x =>
      rw [nullifiers, x.signals_call]
      apply Records.of_admits x.checked.admitted
      rfl
  | withdrawCctp args x =>
      rw [nullifiers, x.signals_call]
      apply Records.of_admits x.checked.admitted
      rfl
  | rfqSettle args x =>
      rw [nullifiers, x.signals_call]
      apply Records.of_admits x.checked.admitted
      rfl
  | rfqSettleAtomicSwap args x =>
      rw [nullifiers, x.signals_call]
      apply Records.of_admits x.checked.admitted
      rfl
  | privateTransferSettle args x =>
      rw [nullifiers, x.signals_call]
      apply Records.of_admits x.admitted
      rfl
  | mpcSettle args x =>
      rw [nullifiers, x.signals_mpcSettle, x.nullifierA, x.nullifierB]
      apply Records.of_settlement x
  | mpcSettlePriced args x =>
      rw [nullifiers, x.signals_mpcSettlePriced, x.nullifierA, x.nullifierB]
      apply Records.of_settlement x
  | registerAsset assetId token hadmin hnew =>
      apply Records.of_eq rfl
  | config c hadmin =>
      apply Records.of_eq rfl

/-- An invocation of the registry by others records the nullifier it spends, and keeps
the others. -/
theorem RegistryCall.exec_records {auth : List Address} {c : RegistryCall}
    {r : NullifierRegistry.State} (h : c.exec auth w.registry = some r) :
  Records w { w with registry := r } (Action.registry auth c).nullifiers
  := by
  cases c with
  | initializeRegistry admin =>
      obtain ⟨_, h⟩ := attempt_eq_some.mp h
      simp only [NullifierRegistry.initializeRegistry, read_bind_ok, require_bind_ok,
        write_ok] at h
      obtain ⟨-, -, rfl⟩ := h
      apply Records.of_eq rfl
  | setAuthorizedSpender spender allowed =>
      obtain ⟨_, h⟩ := attempt_eq_some.mp h
      simp only [NullifierRegistry.setAuthorizedSpender, NullifierRegistry.requireAdmin,
        bind_assoc, read_bind_ok, unwrap_bind_ok, require_bind_ok] at h
      obtain ⟨_, -, -, h⟩ := h
      cases allowed with
      | true =>
          obtain rfl := write_ok.mp h
          apply Records.of_eq rfl
      | false =>
          obtain rfl := write_ok.mp h
          apply Records.of_eq rfl
  | spend caller nullifier =>
      obtain ⟨_, h⟩ := attempt_eq_some.mp h
      obtain ⟨-, hfresh, -, rfl⟩ := NullifierRegistry.spend_ok.mp h
      apply Records.of_admits hfresh rfl
  | pause =>
      obtain ⟨_, h⟩ := attempt_eq_some.mp h
      simp only [NullifierRegistry.pause, NullifierRegistry.requireAdmin, bind_assoc,
        read_bind_ok, unwrap_bind_ok, require_bind_ok, write_ok] at h
      obtain ⟨_, -, -, rfl⟩ := h
      apply Records.of_eq rfl
  | unpause =>
      obtain ⟨_, h⟩ := attempt_eq_some.mp h
      simp only [NullifierRegistry.unpause, NullifierRegistry.requireAdmin, bind_assoc,
        read_bind_ok, unwrap_bind_ok, require_bind_ok, write_ok] at h
      obtain ⟨_, -, -, rfl⟩ := h
      apply Records.of_eq rfl

/-- A call that happens is accepted. -/
theorem step_call {c : Call} (h : step host (.call tx c) w = some w') :
  c.exec host tx w = some w'
  := by
  rw [step] at h
  split at h
  · apply h
  · cases h

/-- An action records the nullifiers it spends, none of which was spent. -/
theorem step_records {a : Action} (h : step host a w = some w') :
  Records w w' a.nullifiers
  := by
  cases a with
  | call tx c => apply Call.exec_records (step_call h)
  | registry auth c =>
      obtain ⟨r, hr, rfl⟩ := Option.map_eq_some_iff.mp h
      apply RegistryCall.exec_records hr
  | mint token holder amount =>
      obtain rfl := Option.some.inj h
      apply Records.of_eq rfl
  | transfer token source target amount =>
      rw [step] at h
      split at h
      · cases h
      · obtain ⟨l, -, rfl⟩ := Option.map_eq_some_iff.mp h
        apply Records.of_eq rfl
  | transferFrom token spender target amount =>
      obtain ⟨l, -, rfl⟩ := Option.map_eq_some_iff.mp h
      apply Records.of_eq rfl
  | advance ledgers =>
      obtain rfl := Option.some.inj h
      apply Records.of_eq rfl

/-- Over a whole run, no nullifier is spent by two actions. -/
theorem nullifiers_pairwise (host : Host) (w : World) (actions : List Action) :
  (trace host w actions).Pairwise fun a b => ∀ n, n ∈ a.nullifiers → n ∉ b.nullifiers
  := by
  apply Machine.trace_pairwise (fun (w : World) n => w.registry.isSpent n = true)
    (fun (a : Action) n => n ∈ a.nullifiers) (C := fun _ _ => True)
  · intro s a s' n h hn
    apply ((step_records h).2 n).mpr (Or.inr hn)
  · intro s a s' n _ h hn
    constructor
    · rw [(step_records h).1 n hn]
      exact Bool.false_ne_true
    · apply ((step_records h).2 n).mpr (Or.inl hn)
  · apply Machine.along_of_forall
    intros
    trivial

/-! ### Domains -/

/-- The words of a spending call that carry the pool and the chain. -/
def Call.domain : Call → Option (Word × Word)
  | c@(withdraw _) => some (c.signals.getD 8 0, c.signals.getD 9 0)
  | c@(withdrawCctp _) => some (c.signals.getD 8 0, c.signals.getD 9 0)
  | c@(rfqSettle _) => some (c.signals.getD 8 0, c.signals.getD 9 0)
  | c@(rfqSettleAtomicSwap _) => some (c.signals.getD 8 0, c.signals.getD 9 0)
  | c@(privateTransferSettle _) => some (c.signals.getD 5 0, c.signals.getD 6 0)
  | c@(mpcSettle _) => some (c.signals.getD 7 0, c.signals.getD 8 0)
  | c@(mpcSettlePriced _) => some (c.signals.getD 7 0, c.signals.getD 8 0)
  | _ => none

/-- An accepted call keeps the domain of the pool, and carries it if it spends. -/
theorem Call.exec_domain {c : Call} (h : c.exec host tx w = some w') :
  w'.pool.poolId = w.pool.poolId ∧ w'.pool.chainId = w.pool.chainId
    ∧ ∀ d, c.domain = some d → w.pool.MatchesDomain d.1 d.2
  := by
  cases Call.exec_outcome h with
  | receiveCctpDeposit args x =>
      refine ⟨by simp [Deposit.world], by simp [Deposit.world], ?_⟩
      intro d hd
      cases hd
  | withdraw args x =>
      refine ⟨by simp [Withdrawal.world], by simp [Withdrawal.world], ?_⟩
      intro d hd
      obtain rfl := Option.some.inj hd
      rw [x.signals_call]
      apply x.checked.complies.2.1
  | withdrawCctp args x =>
      refine ⟨by simp [CctpExit.world], by simp [CctpExit.world], ?_⟩
      intro d hd
      obtain rfl := Option.some.inj hd
      rw [x.signals_call]
      apply x.checked.complies.2.1
  | rfqSettle args x =>
      refine ⟨by simp [RfqSettlement.world], by simp [RfqSettlement.world], ?_⟩
      intro d hd
      obtain rfl := Option.some.inj hd
      rw [x.signals_call]
      apply x.checked.complies.2.1
  | rfqSettleAtomicSwap args x =>
      refine ⟨by simp [AtomicSwap.world], by simp [AtomicSwap.world], ?_⟩
      intro d hd
      obtain rfl := Option.some.inj hd
      rw [x.signals_call]
      apply x.checked.complies.2.1
  | privateTransferSettle args x =>
      refine ⟨by simp [Transfer.world], by simp [Transfer.world], ?_⟩
      intro d hd
      obtain rfl := Option.some.inj hd
      rw [x.signals_call]
      apply x.domain
  | mpcSettle args x =>
      refine ⟨by simp [Settlement.world], by simp [Settlement.world], ?_⟩
      intro d hd
      obtain rfl := Option.some.inj hd
      rw [x.signals_mpcSettle]
      apply x.domain
  | mpcSettlePriced args x =>
      refine ⟨by simp [Settlement.world], by simp [Settlement.world], ?_⟩
      intro d hd
      obtain rfl := Option.some.inj hd
      rw [x.signals_mpcSettlePriced]
      apply x.domain
  | registerAsset assetId token hadmin hnew =>
      refine ⟨rfl, rfl, ?_⟩
      intro d hd
      cases hd
  | config c hadmin =>
      cases c <;> exact ⟨rfl, rfl, fun _ hd => nomatch hd⟩

/-- An action of others leaves the pool as it is and publishes nothing. -/
theorem step_others {a : Action} (ha : ∀ tx c, a ≠ .call tx c) (h : step host a w = some w') :
  w'.pool = w.pool ∧ w'.events = w.events
  := by
  cases a with
  | call tx c => exact absurd rfl (ha tx c)
  | registry auth c =>
      obtain ⟨r, -, rfl⟩ := Option.map_eq_some_iff.mp h
      exact ⟨rfl, rfl⟩
  | mint token holder amount =>
      obtain rfl := Option.some.inj h
      exact ⟨rfl, rfl⟩
  | transfer token source target amount =>
      rw [step] at h
      split at h
      · cases h
      · obtain ⟨l, -, rfl⟩ := Option.map_eq_some_iff.mp h
        exact ⟨rfl, rfl⟩
  | transferFrom token spender target amount =>
      obtain ⟨l, -, rfl⟩ := Option.map_eq_some_iff.mp h
      exact ⟨rfl, rfl⟩
  | advance ledgers =>
      obtain rfl := Option.some.inj h
      exact ⟨rfl, rfl⟩

/-- An action of others leaves the pool as it is. -/
theorem step_pool {a : Action} (ha : ∀ tx c, a ≠ .call tx c) (h : step host a w = some w') :
  w'.pool = w.pool
  := (step_others ha h).1

/-- An action is an accepted call or leaves the pool as it is. -/
theorem step_cases {a : Action} (h : step host a w = some w') :
  (∃ tx c, a = .call tx c ∧ c.exec host tx w = some w')
    ∨ (∀ tx c, a ≠ .call tx c) ∧ w'.pool = w.pool
  := by
  by_cases ha : ∃ tx c, a = .call tx c
  · obtain ⟨tx, c, rfl⟩ := ha
    exact .inl ⟨tx, c, rfl, step_call h⟩
  · have ha' : ∀ tx c, a ≠ .call tx c := fun tx c hc => ha ⟨tx, c, hc⟩
    exact .inr ⟨ha', step_pool ha' h⟩

/-- A run keeps the domain of the pool. -/
theorem run_domain (host : Host) (w : World) (actions : List Action) :
  (run host w actions).pool.poolId = w.pool.poolId
    ∧ (run host w actions).pool.chainId = w.pool.chainId
  := by
  apply Machine.invariant_run_of_step
    (I := fun s : World => s.pool.poolId = w.pool.poolId ∧ s.pool.chainId = w.pool.chainId)
  · rintro s a s' ⟨hpool, hchain⟩ h
    rcases step_cases h with ⟨tx, c, rfl, hexec⟩ | ⟨-, hkeep⟩
    · obtain ⟨hpool', hchain', -⟩ := Call.exec_domain hexec
      use hpool'.trans hpool, hchain'.trans hchain
    · rw [hkeep]
      use hpool, hchain
  · exact ⟨rfl, rfl⟩

/-- Every spending call of a run carries the domain of the pool. -/
theorem matchesDomain_of_mem_trace {w : World} {actions : List Action} {c : Call}
    {d : Word × Word} (hc : Action.call tx c ∈ trace host w actions) (hd : c.domain = some d) :
  w.pool.MatchesDomain d.1 d.2
  := by
  obtain ⟨pre, s', -, h⟩ := Machine.exists_of_mem_trace hc
  obtain ⟨hpool, hchain⟩ := run_domain host w pre
  obtain ⟨-, -, hmatch⟩ := Call.exec_domain (step_call h)
  have := hmatch d hd
  rwa [State.MatchesDomain, hpool, hchain] at this

/-! ### Events -/

/-- The leaves an event announces. -/
def Event.leaves : Event → List Word
  | deposit _ _ _ _ commitment _ _ _ _ => [commitment]
  | xfer _ outputCommitment _ _ => [outputCommitment]
  | mpc _ _ _ outputCommitmentA outputCommitmentB _ => [outputCommitmentA, outputCommitmentB]
  | mpcprice _ _ _ outputCommitmentA outputCommitmentB _ =>
      [outputCommitmentA, outputCommitmentB]
  | _ => []

/-- The events from one world to the next announce the leaves that are appended. -/
def Publishes (w : World) (events : List Event) (w' : World) : Prop :=
  w'.events = w.events ++ events
    ∧ w'.pool.treeLeaves = w.pool.treeLeaves ++ events.flatMap Event.leaves

/-- Nothing is published where no leaf is appended. -/
theorem Publishes.of_eq (hevents : w'.events = w.events)
    (hleaves : w'.pool.treeLeaves = w.pool.treeLeaves) :
  Publishes w [] w'
  := by
  constructor
  · rw [hevents, List.append_nil]
  · rw [hleaves, List.flatMap_nil, List.append_nil]

theorem Publishes.trans {w'' : World} {es es' : List Event} (h : Publishes w es w')
    (h' : Publishes w' es' w'') :
  Publishes w (es ++ es') w''
  := by
  constructor
  · rw [h'.1, h.1, List.append_assoc]
  · rw [h'.2, h.2, List.flatMap_append, List.append_assoc]

/-- A committee settlement publishes one event with both its outputs. -/
theorem Settlement.publishes {verifier : Option Address} {deadlineIndex : ℕ} {args : MpcArgs}
    (x : Settlement host w verifier deadlineIndex args) {event : Event}
    (h : event.leaves = [args.outputCommitmentA, args.outputCommitmentB]) :
  Publishes w [event] (x.world.emit event)
  := by
  constructor
  · rfl
  · rw [List.flatMap_singleton, h]
    change w.pool.treeLeaves ++ [args.outputCommitmentA] ++ [args.outputCommitmentB] = _
    rw [List.append_assoc, List.singleton_append]

/-- An action of others publishes nothing. -/
theorem step_events {a : Action} (ha : ∀ tx c, a ≠ .call tx c) (h : step host a w = some w') :
  w'.events = w.events
  := (step_others ha h).2

/-- The calls that only the administrator can make. -/
def Call.Restricted : Call → Prop
  | receiveCctpDeposit _ => True
  | privateTransferSettle _ => True
  | registerAsset _ _ => True
  | config _ => True
  | _ => False

/-- The events of calls that only the administrator can make. -/
def Event.Restricted : Event → Prop
  | deposit _ _ _ _ _ _ _ _ _ => True
  | xfer _ _ _ _ => True
  | regasset _ _ => True
  | _ => False

theorem Event.restricted_imp {e : Event} {P : Prop} (h : ¬ e.Restricted) :
  ∀ e' ∈ [e], e'.Restricted → P
  := by
  intro e' he' hrestricted
  rw [List.mem_singleton.mp he'] at hrestricted
  exact absurd hrestricted h

/-- An accepted call announces the leaves it appends. -/
theorem Call.exec_publishes {c : Call} (h : c.exec host tx w = some w') :
  ∃ events, Publishes w events w' ∧ ∀ e ∈ events, e.Restricted → c.Restricted
  := by
  cases exec_outcome h with
  | receiveCctpDeposit args x => exact ⟨[_], ⟨rfl, rfl⟩, fun _ _ _ => trivial⟩
  | privateTransferSettle args x => exact ⟨[_], ⟨rfl, rfl⟩, fun _ _ _ => trivial⟩
  | registerAsset assetId token hadmin hnew =>
      refine ⟨[_], ⟨rfl, ?_⟩, fun _ _ _ => trivial⟩
      exact (List.append_nil _).symm
  | config c hadmin =>
      refine ⟨[], Publishes.of_eq rfl ?_, fun _ _ _ => trivial⟩
      cases c <;> rfl
  | withdraw args x =>
      exact ⟨[_], ⟨rfl, (List.append_nil _).symm⟩, Event.restricted_imp id⟩
  | withdrawCctp args x =>
      exact ⟨[_], ⟨rfl, (List.append_nil _).symm⟩, Event.restricted_imp id⟩
  | rfqSettle args x =>
      exact ⟨[_], ⟨rfl, (List.append_nil _).symm⟩, Event.restricted_imp id⟩
  | rfqSettleAtomicSwap args x =>
      exact ⟨[_], ⟨rfl, (List.append_nil _).symm⟩, Event.restricted_imp id⟩
  | mpcSettle args x =>
      exact ⟨[_], x.publishes rfl, Event.restricted_imp id⟩
  | mpcSettlePriced args x =>
      exact ⟨[_], x.publishes rfl, Event.restricted_imp id⟩

/-- A call that only the administrator can make is accepted only from the administrator. -/
theorem Call.exec_restricted {c : Call} (hc : c.Restricted) (h : c.exec host tx w = some w') :
  w.pool.admin ∈ tx.auth
  := by
  cases c with
  | receiveCctpDeposit args =>
      obtain ⟨_, h⟩ := attempt_eq_some.mp h
      obtain ⟨x, -⟩ := receiveCctpDeposit_ok h
      exact x.admin
  | privateTransferSettle args =>
      obtain ⟨_, h⟩ := attempt_eq_some.mp h
      rw [Pool.privateTransferSettle, requireNotPaused_bind_ok, requireAdmin_bind_ok] at h
      exact h.2.1
  | registerAsset assetId token =>
      obtain ⟨_, h⟩ := attempt_eq_some.mp h
      exact (registerAsset_ok.mp h).1
  | config c =>
      obtain ⟨_, h⟩ := attempt_eq_some.mp h
      exact (Config.exec_ok.mp h).1
  | withdraw => cases hc
  | withdrawCctp => cases hc
  | rfqSettle => cases hc
  | rfqSettleAtomicSwap => cases hc
  | mpcSettle => cases hc
  | mpcSettlePriced => cases hc

end Shade.Pool
