import Shade.Pool.Deployment
import Shade.Pool.Governed
import Shade.Property.Timelock

/-!
# A pool in the hands of the guardian

What becomes of a pool whose administrator is a governance guardian. The guardian only ever
makes the calls `pause`, `unpause` and `upgrade`: until it upgrades the pool, which takes a
quorum and the delay, nothing that only the administrator can do happens to the pool any more,
except that it is unpaused. It is never paused: the guardian hands `pause` the hash of a reason,
and the pool's `pause` takes no argument.
-/

namespace Shade.Pool

variable {host : Host} {tx : Tx} {w w' w'' : World}

/-- The part of the storage that only the administrator can change, apart from the flag that
pauses the pool and its code. -/
structure Settings where
  admin : Address
  verifier : Address
  xverifier : Option Address
  depVerifier : Option Address
  mpcVerifier : Option Address
  mpcPverifier : Option Address
  tmm : Option Address
  assocRoot : Option Word
  mpcCmte : Option (List Word)
  solver : Store Word Bool
  assetToken : Store Word Address

/-- The settings of a pool. -/
@[simps]
def State.settings (s : State) : Settings where
  admin := s.admin
  verifier := s.verifier
  xverifier := s.xverifier
  depVerifier := s.depVerifier
  mpcVerifier := s.mpcVerifier
  mpcPverifier := s.mpcPverifier
  tmm := s.tmm
  assocRoot := s.assocRoot
  mpcCmte := s.mpcCmte
  solver := s.solver
  assetToken := s.assetToken

/-- A committee settlement changes neither the settings nor the code. -/
theorem Settlement.settings {verifier : Option Address} {deadlineIndex : ℕ} {args : MpcArgs}
    (x : Settlement host w verifier deadlineIndex args) (event : Event) :
  (x.world.emit event).pool.settings = w.pool.settings
    ∧ (x.world.emit event).pool.wasm = w.pool.wasm
  := by
  constructor
  · simp [Settlement.world, State.settings]
  · simp [Settlement.world]

/-- A call that is open to everyone changes neither the settings nor the code. -/
theorem Call.exec_settings {c : Call} (hc : ¬ c.Restricted) (h : c.exec host tx w = some w') :
  w'.pool.settings = w.pool.settings ∧ w'.pool.wasm = w.pool.wasm
  := by
  cases exec_outcome h with
  | receiveCctpDeposit => exact absurd trivial hc
  | withdraw => exact ⟨rfl, rfl⟩
  | withdrawCctp => exact ⟨rfl, rfl⟩
  | rfqSettle => exact ⟨rfl, rfl⟩
  | rfqSettleAtomicSwap => exact ⟨rfl, rfl⟩
  | privateTransferSettle => exact absurd trivial hc
  | mpcSettle args x => apply x.settings _
  | mpcSettlePriced args x => apply x.settings _
  | registerAsset => exact absurd trivial hc
  | config => exact absurd trivial hc

/-- From one world to a later one the settings have stayed, and the leaves appended are those
that committee settlements have announced: no deposit, no transfer and no registration of an
asset has been published. -/
structure Confined (w w' : World) : Prop where
  settings : w'.pool.settings = w.pool.settings
  events : ∃ events, Publishes w events w' ∧ ∀ e ∈ events, ¬ e.Restricted

theorem Confined.of_eq (hsettings : w'.pool.settings = w.pool.settings)
    (hevents : w'.events = w.events) (hleaves : w'.pool.treeLeaves = w.pool.treeLeaves) :
  Confined w w'
  := ⟨hsettings, [], .of_eq hevents hleaves, fun _ h => nomatch h⟩

theorem Confined.trans (h : Confined w w') (h' : Confined w' w'') :
  Confined w w''
  := by
  obtain ⟨hsettings, es, hes, hopen⟩ := h
  obtain ⟨hsettings', es', hes', hopen'⟩ := h'
  refine ⟨hsettings'.trans hsettings, es ++ es', hes.trans hes', ?_⟩
  intro e he
  rcases List.mem_append.mp he with he | he
  · apply hopen e he
  · apply hopen' e he

/-- The administrator is one of the settings. -/
theorem Confined.admin_eq (h : Confined w w') :
  w'.pool.admin = w.pool.admin
  := congrArg Settings.admin h.settings

/-- A configuration call that changes no setting is confined. -/
theorem Confined.of_config {c : Config} (hsettings : (c.apply w.pool).settings = w.pool.settings)
    (h : Pool.step host (.call tx (.config c)) w = some w') :
  Confined w w' ∧ w'.pool.wasm = (c.apply w.pool).wasm
  := by
  cases Call.exec_outcome (step_call h) with
  | config _ hadmin =>
      refine ⟨.of_eq hsettings rfl ?_, rfl⟩
      cases c <;> rfl

end Shade.Pool

namespace Shade.Governed

open GovernanceGuardian (Invocation Method Timelocked)
open Pool (Confined)

section

variable {host : Host} {guardian : Address}
  {others : List Address → Invocation → Pool.World → Option (List Pool.Action)}
  {w w' : Joint} {o o' : Pool.World} {a : Action} {auth : List Address} {i : Invocation}

/-! ### What one step does to the pool -/

/-- A pool administered by the guardian is confined by an action in which the guardian is not
the direct caller, and keeps its code. -/
theorem outsiderStep_confined {a : Pool.Action} (hadmin : o.pool.admin = guardian)
    (h : outsiderStep host guardian a o = some o') :
  Confined o o' ∧ o'.pool.wasm = o.pool.wasm
  := by
  by_cases hcall : ∃ tx c, a = .call tx c
  · obtain ⟨tx, c, rfl⟩ := hcall
    rw [outsiderStep] at h
    split at h
    · cases h
    · next hauth =>
        have hexec := Pool.step_call h
        have hopen : ¬ c.Restricted := by
          intro hc
          rw [← hadmin] at hauth
          apply hauth (Pool.Call.exec_restricted hc hexec)
        obtain ⟨hsettings, hwasm⟩ := Pool.Call.exec_settings hopen hexec
        obtain ⟨es, hes, hrestricted⟩ := Pool.Call.exec_publishes hexec
        exact ⟨⟨hsettings, es, hes, fun e he he' => hopen (hrestricted e he he')⟩, hwasm⟩
  · have hcall' : ∀ tx c, a ≠ .call tx c := fun tx c hc => hcall ⟨tx, c, hc⟩
    have hstep : Pool.step host a o = some o' := by
      cases a with
      | call tx c => exact absurd rfl (hcall' tx c)
      | advance ledgers => cases h
      | registry => exact h
      | mint => exact h
      | transfer => exact h
      | transferFrom => exact h
    have hpool := Pool.step_pool hcall' hstep
    refine ⟨.of_eq ?_ (Pool.step_events hcall' hstep) ?_, ?_⟩
    · rw [hpool]
    · rw [hpool]
    · rw [hpool]

/-- What the other contracts make of a call by the guardian confines the pool. -/
theorem outsiderRun_confined (hadmin : o.pool.admin = guardian) (actions : List Pool.Action) :
  Confined o (Machine.run (outsiderStep host guardian) o actions)
    ∧ (Machine.run (outsiderStep host guardian) o actions).pool.wasm = o.pool.wasm
  := by
  apply Machine.invariant_run_of_step
    (I := fun s : Pool.World => Confined o s ∧ s.pool.wasm = o.pool.wasm)
  · rintro s a s' ⟨hs, hwasm⟩ h
    obtain ⟨hs', hwasm'⟩ := outsiderStep_confined (hs.admin_eq.trans hadmin) h
    exact ⟨hs.trans hs', hwasm'.trans hwasm⟩
  · exact ⟨.of_eq rfl rfl rfl, rfl⟩

/-- A call by the guardian confines the pool, and changes its code only if it upgrades it. -/
theorem invoke_confined (hadmin : o.pool.admin = guardian)
    (h : invoke host guardian others auth i o = some o') :
  Confined o o' ∧ (o'.pool.wasm = o.pool.wasm
    ∨ ∃ newWasmHash, i = ⟨host.self, .upgrade newWasmHash⟩ ∧ o'.pool.wasm = some newWasmHash)
  := by
  rw [invoke] at h
  split at h
  · next hself =>
      obtain ⟨contractId, method⟩ := i
      obtain rfl : contractId = host.self := hself
      obtain ⟨c, hc, hstep⟩ := Option.bind_eq_some_iff.mp h
      cases method with
      | pause reasonHash => cases hc
      | unpause =>
          obtain rfl : _ = c := Option.some.inj hc
          obtain ⟨hconfined, hwasm⟩ := Confined.of_config rfl hstep
          exact ⟨hconfined, .inl hwasm⟩
      | upgrade newWasmHash =>
          obtain rfl : _ = c := Option.some.inj hc
          obtain ⟨hconfined, hwasm⟩ := Confined.of_config rfl hstep
          exact ⟨hconfined, .inr ⟨newWasmHash, rfl, hwasm⟩⟩
  · obtain ⟨actions, -, rfl⟩ := Option.map_eq_some_iff.mp h
    obtain ⟨hconfined, hwasm⟩ := outsiderRun_confined hadmin actions
    exact ⟨hconfined, .inl hwasm⟩

/-- A step confines a pool administered by the guardian, and changes its code only if it
executes an upgrade of the pool. -/
theorem step_confined (hadmin : w.outside.pool.admin = guardian)
    (h : step host guardian others a w = some w') :
  Confined w.outside w'.outside ∧ (w'.outside.pool.wasm = w.outside.pool.wasm
    ∨ ∃ auth id newWasmHash, a = .guardian auth (.executeUpgrade id)
      ∧ ⟨host.self, .upgrade newWasmHash⟩ ∈ w'.invocations.drop w.invocations.length
      ∧ w'.outside.pool.wasm = some newWasmHash)
  := by
  cases a with
  | guardian auth c =>
      rcases GovernanceGuardian.Call.exec_outside (step_guardian h) with
        hsame | ⟨p, hinvoke⟩ | ⟨id, contractId, newWasmHash, rfl, hmem, hinvoke⟩
      · rw [hsame]
        exact ⟨.of_eq rfl rfl rfl, .inl rfl⟩
      · obtain ⟨hconfined, hwasm | ⟨newWasmHash, hi, -⟩⟩ := invoke_confined hadmin hinvoke
        · exact ⟨hconfined, .inl hwasm⟩
        · exact absurd hi (p.invocation_ne host.self newWasmHash)
      · obtain ⟨hconfined, hwasm | ⟨newWasmHash', hi, hwasm⟩⟩ := invoke_confined hadmin hinvoke
        · exact ⟨hconfined, .inl hwasm⟩
        · rw [hi] at hmem
          exact ⟨hconfined, .inr ⟨auth, id, newWasmHash', rfl, hmem, hwasm⟩⟩
  | pool a =>
      obtain ⟨o, ho, rfl⟩ := Option.map_eq_some_iff.mp h
      obtain ⟨hconfined, hwasm⟩ := outsiderStep_confined hadmin ho
      exact ⟨hconfined, .inl hwasm⟩
  | advance ledgers =>
      obtain ⟨-, rfl⟩ := step_advance h
      exact ⟨.of_eq rfl rfl rfl, .inl rfl⟩

/-- Once the guardian administers the pool, every run confines it. -/
theorem run_confined (hadmin : w.outside.pool.admin = guardian) (actions : List Action) :
  Confined w.outside (run host guardian others w actions).outside
  := by
  apply Machine.invariant_run_of_step (I := fun s : Joint => Confined w.outside s.outside)
  · intro s a s' hs h
    apply hs.trans (step_confined (hs.admin_eq.trans hadmin) h).1
  · exact .of_eq rfl rfl rfl

/-! ### Before and after the guardian is initialized -/

/-- A guardian that has just been deployed has no administrator. -/
theorem not_adminAuth_deployed {sequence : UInt32} :
  ¬ (GovernanceGuardian.World.deployed sequence o).AdminAuth auth
  := by
  rintro ⟨admin, hadmin, -⟩
  cases hadmin

/-- A guardian that has just been deployed only accepts to be initialized. -/
theorem step_deployed {sequence : UInt32} {o : Pool.World}
    (h : step host guardian others a (.deployed sequence o) = some w') :
  (∃ sequence' o', w' = .deployed sequence' o')
    ∨ ∃ auth admin guardians threshold delay,
      a = .guardian auth (.initializeGuardian admin guardians threshold delay)
  := by
  cases a with
  | guardian auth c =>
      cases GovernanceGuardian.Call.exec_outcome (step_guardian h) with
      | initializeGuardian admin guardians threshold delay =>
          exact .inr ⟨auth, admin, guardians, threshold, delay, rfl⟩
      | keepGuardian guardian hadmin => exact absurd hadmin not_adminAuth_deployed
      | addGuardian guardian hadmin => exact absurd hadmin not_adminAuth_deployed
      | removeGuardian guardian hadmin => exact absurd hadmin not_adminAuth_deployed
      | setThreshold threshold hadmin => exact absurd hadmin not_adminAuth_deployed
      | proposePause guardian contractId reasonHash unpause hguardian => cases hguardian.1
      | approvePause guardian proposalId hguardian => cases hguardian.1
      | proposeUpgrade guardian contractId newWasmHash hguardian => cases hguardian.1
      | approveUpgrade guardian proposalId hguardian => cases hguardian.1
      | cancelUpgrade guardian proposalId hguardian => cases hguardian.1
      | executeUpgrade proposalId p hp => cases hp
  | pool a =>
      obtain ⟨o', -, rfl⟩ := Option.map_eq_some_iff.mp h
      exact .inl ⟨sequence, o', rfl⟩
  | advance ledgers =>
      obtain ⟨-, rfl⟩ := step_advance h
      exact .inl ⟨_, _, rfl⟩

variable (host guardian others) in
/-- In the course of a list of actions the guardian is initialized, with a delay, which leads
to a state from which further actions are taken. -/
def InitializedBy (w : Joint) (actions : List Action) (delay : UInt32) (w₀ : Joint)
    (after : List Action) : Prop :=
  ∃ before auth admin guardians threshold,
    actions
        = before ++ .guardian auth (.initializeGuardian admin guardians threshold delay) :: after
    ∧ (∃ sequence o, run host guardian others w before = .deployed sequence o)
    ∧ step host guardian others
      (.guardian auth (.initializeGuardian admin guardians threshold delay))
      (run host guardian others w before) = some w₀

/-- A guardian that has been deployed has stayed so, or it has been initialized once. -/
theorem deployed_or_initializedBy {sequence : UInt32} {o : Pool.World} (actions : List Action) :
  (∃ sequence' o', run host guardian others (.deployed sequence o) actions
      = .deployed sequence' o')
    ∨ ∃ delay w₀ after, InitializedBy host guardian others (.deployed sequence o) actions delay w₀
      after
      ∧ run host guardian others (.deployed sequence o) actions = run host guardian others w₀ after
  := by
  induction actions using List.reverseRecOn with
  | nil => exact .inl ⟨sequence, o, rfl⟩
  | append_singleton actions a ih =>
      rw [run_concat]
      rcases ih with ⟨sequence', o', hdeployed⟩
        | ⟨delay, w₀, after, ⟨before, auth, admin, guardians, threshold, rfl, hinit⟩, hrun⟩
      · cases h : step host guardian others a (.deployed sequence' o') with
        | none =>
            left
            rw [hdeployed, Machine.next_of_none h]
            exact ⟨sequence', o', rfl⟩
        | some w' =>
            rw [hdeployed, Machine.next_of_some h]
            rcases step_deployed h with hdeployed' | ⟨auth, admin, guardians, threshold, delay, rfl⟩
            · exact .inl hdeployed'
            · right
              refine ⟨delay, w', [], ⟨actions, auth, admin, guardians, threshold, rfl,
                ⟨sequence', o', hdeployed⟩, ?_⟩, rfl⟩
              rw [hdeployed]
              exact h
      · right
        refine ⟨delay, w₀, after ++ [a], ⟨before, auth, admin, guardians, threshold, ?_, hinit⟩, ?_⟩
        · simp
        · rw [hrun, run_concat]

/-! ### The frozen pool -/

variable (host guardian others) in
/-- An upgrade of the pool to a code, at a ledger, is one that the guardian may make for a
proposal after a list of actions in which it was initialized: the quorum of the proposal was
recorded since, the delay has elapsed, and the proposal has been neither cancelled nor
executed. -/
def TimelockedBy (w : Joint) (actions : List Action) (now id : UInt32) (newWasmHash : Word) :
    Prop :=
  ∃ delay w₀ after, InitializedBy host guardian others w actions delay w₀ after
    ∧ Timelocked (invoke host guardian others) w₀ (trails host guardian others w₀ after) delay
      now id host.self newWasmHash

/-- A guardian that has just been deployed executes nothing. -/
theorem not_executeUpgrade_deployed {sequence id : UInt32} {o : Pool.World} :
  step host guardian others (.guardian auth (.executeUpgrade id)) (.deployed sequence o) = none
  := by
  cases h : step host guardian others (.guardian auth (.executeUpgrade id))
    (.deployed sequence o) with
  | none => rfl
  | some w' =>
      cases GovernanceGuardian.Call.exec_outcome (step_guardian h) with
      | executeUpgrade _ p hp => cases hp

/-- An upgrade the guardian makes is timelocked. -/
theorem timelockedBy_of_mem {sequence id : UInt32} {o : Pool.World} {actions : List Action}
    {newWasmHash : Word}
    (h : step host guardian others (.guardian auth (.executeUpgrade id))
      (run host guardian others (.deployed sequence o) actions) = some w')
    (hmem : ⟨host.self, .upgrade newWasmHash⟩ ∈ w'.invocations.drop
      (run host guardian others (.deployed sequence o) actions).invocations.length) :
  TimelockedBy host guardian others (.deployed sequence o) actions
    (run host guardian others (.deployed sequence o) actions).sequence id newWasmHash
  := by
  rcases deployed_or_initializedBy actions with
    ⟨sequence', o', hdeployed⟩ | ⟨delay, w₀, after, hinit, hrun⟩
  · rw [hdeployed, not_executeUpgrade_deployed] at h
    cases h
  · refine ⟨delay, w₀, after, hinit, ?_⟩
    obtain ⟨before, auth', admin, guardians, threshold, -, ⟨sequence', o', hdeployed⟩, hstep⟩ :=
      hinit
    rw [hdeployed] at hstep
    rw [hrun, run_eq_run_trails] at h hmem ⊢
    have hexec : GovernanceGuardian.step (invoke host guardian others)
        (.call auth (.executeUpgrade id)) (GovernanceGuardian.run (invoke host guardian others) w₀
          (trails host guardian others w₀ after)) = some w' :=
      step_guardian h
    have hinit' : GovernanceGuardian.step (invoke host guardian others)
        (.call auth' (.initializeGuardian admin guardians threshold delay))
        (.deployed sequence' o') = some w₀ :=
      step_guardian hstep
    obtain ⟨id', hid, hlocked⟩ := (GovernanceGuardian.consistent_run
      (GovernanceGuardian.consistent_initialized hinit') _).timelocked hexec hmem
    obtain rfl := Option.some.inj hid
    exact hlocked

/-- Once the guardian administers the pool, and until it upgrades it: the settings stay, the
leaves appended are those of committee settlements, no call that is reserved to the
administrator is accepted from anyone else than the guardian, and the code changes only when
the guardian executes an upgrade proposal after its quorum and its delay. -/
theorem governed_pool_frozen {sequence : UInt32} {o : Pool.World} {before after : List Action}
    (hadmin : (run host guardian others (.deployed sequence o) before).outside.pool.admin
      = guardian)
    (hcode : (run host guardian others (.deployed sequence o) (before ++ after)).outside.pool.wasm
      = none) :
  Confined (run host guardian others (.deployed sequence o) before).outside
      (run host guardian others (.deployed sequence o) (before ++ after)).outside
    ∧ (∀ tx c, c.Restricted → guardian ∉ tx.auth → Pool.step host (.call tx c)
      (run host guardian others (.deployed sequence o) (before ++ after)).outside = none)
    ∧ ∀ a w', step host guardian others a
        (run host guardian others (.deployed sequence o) (before ++ after)) = some w' →
      w'.outside.pool.wasm = none
        ∨ ∃ auth id newWasmHash, a = .guardian auth (.executeUpgrade id)
          ∧ w'.outside.pool.wasm = some newWasmHash
          ∧ TimelockedBy host guardian others (.deployed sequence o) (before ++ after)
            (run host guardian others (.deployed sequence o) (before ++ after)).sequence id
            newWasmHash
  := by
  have hconfined : Confined (run host guardian others (.deployed sequence o) before).outside
      (run host guardian others (.deployed sequence o) (before ++ after)).outside := by
    rw [run_append]
    apply run_confined hadmin after
  have hadmin' := hconfined.admin_eq.trans hadmin
  refine ⟨hconfined, ?_, ?_⟩
  · intro tx c hc hauth
    cases h : Pool.step host (.call tx c)
      (run host guardian others (.deployed sequence o) (before ++ after)).outside with
    | none => rfl
    | some o' =>
        have := Pool.Call.exec_restricted hc (Pool.step_call h)
        rw [hadmin'] at this
        exact absurd this hauth
  · intro a w' h
    rcases (step_confined hadmin' h).2 with hwasm | ⟨auth, id, newWasmHash, rfl, hmem, hwasm⟩
    · left
      rw [hwasm, hcode]
    · right
      exact ⟨auth, id, newWasmHash, rfl, hwasm, timelockedBy_of_mem h hmem⟩

/-! ### Pausing -/

variable (host) in
/-- A call of the guardian with which a proposal to pause the pool has as many approvals as the
threshold says. -/
inductive Completes (w : Joint) (auth : List Address) : GovernanceGuardian.Call → UInt32 → Prop
  | propose (g : Address) (reasonHash : Word) (hguardian : g ∈ w.guardians ∧ g ∈ auth)
      (hthreshold : w.threshold.toNat ≤ 1) :
      Completes w auth (.proposePause g host.self reasonHash false) w.nextProposalId
  | approve (g : Address) (id : UInt32) (hguardian : g ∈ w.guardians ∧ g ∈ auth)
      (p : GovernanceGuardian.PauseProposal) (hp : w.getPauseProposal id = some p)
      (htarget : p.contractId = host.self ∧ p.unpause = false) (hopen : p.executed = false)
      (hnew : g ∉ p.approvals) (hthreshold : w.threshold.toNat ≤ p.approvals.length + 1) :
      Completes w auth (.approvePause g id) id

variable (host guardian others) in
/-- A call of the guardian is accepted, and leaves the pool paused and a proposal executed. -/
def Pauses (w : Joint) (auth : List Address) (c : GovernanceGuardian.Call) (id : UInt32) : Prop :=
  ∃ w', step host guardian others (.guardian auth c) w = some w' ∧ w'.outside.pool.paused = true
    ∧ ∃ p, w'.getPauseProposal id = some p ∧ p.executed = true

/-- The pool does not export `pause` with an argument. -/
theorem invoke_pause (p : GovernanceGuardian.PauseProposal)
    (htarget : p.contractId = host.self ∧ p.unpause = false) :
  invoke host guardian others auth p.invocation o = none
  := by
  rw [invoke, GovernanceGuardian.PauseProposal.invocation, if_pos htarget.1]
  simp only [htarget.2]
  rfl

/-- A pause of the pool with enough approvals is not made. -/
theorem not_pauseAttempt {id : UInt32} {p : GovernanceGuardian.PauseProposal}
    (htarget : p.contractId = host.self ∧ p.unpause = false)
    (hthreshold : w.threshold.toNat ≤ p.approvals.length) :
  ¬ GovernanceGuardian.PauseAttempt (invoke host guardian others) auth w id p w'
  := by
  intro h
  cases h with
  | waits hfew => exact absurd hfew (not_lt.mpr hthreshold)
  | executes outside hquorum hinvoke =>
      rw [invoke_pause p htarget] at hinvoke
      cases hinvoke

/-- The call that completes a proposal to pause the pool is refused, whatever the state of the
guardian and the pool. -/
theorem not_pauses {c : GovernanceGuardian.Call} {id : UInt32} (hc : Completes host w auth c id) :
  ¬ Pauses host guardian others w auth c id
  := by
  rintro ⟨w', h, -⟩
  cases hc with
  | propose g reasonHash hguardian hthreshold =>
      cases GovernanceGuardian.Call.exec_outcome (step_guardian h) with
      | proposePause _ _ _ _ _ next hnext _ hattempt =>
          apply not_pauseAttempt ⟨rfl, rfl⟩ hthreshold hattempt
  | approve g id hguardian p hp htarget hopen hnew hthreshold =>
      cases GovernanceGuardian.Call.exec_outcome (step_guardian h) with
      | approvePause _ _ _ p' hp' _ _ _ hattempt =>
          obtain rfl := Option.some.inj (hp.symm.trans hp')
          have hlength : w.threshold.toNat ≤ (p.approvals ++ [g]).length := by
            rw [List.length_append]
            exact hthreshold
          revert hattempt
          exact not_pauseAttempt htarget hlength

end

/-! ### A pool that is handed over -/

open GovernanceGuardian (addressOf)
open Pool

/-- The address of the guardian. -/
def guardianAddress : Address := addressOf 7

/-- Other contracts that refuse every call. -/
def refuse (_ : List Address) (_ : Invocation) (_ : Pool.World) : Option (List Pool.Action) := none

/-- A pool and a guardian that have just been made. -/
def start : Joint := .deployed 100 (Deployment.genesis Deployment.usdc)

/-- The pool is handed over to the guardian, which three guardians control, two of whom make a
quorum. -/
def handover : List Action :=
  [.pool (Deployment.adminCall (.config (.transferAdmin guardianAddress))),
    .guardian [addressOf 0]
      (.initializeGuardian (addressOf 0) [addressOf 1, addressOf 2, addressOf 3] 2 100)]

/-- One of the guardians proposes to pause the pool. -/
def proposal : List Action :=
  handover ++ [.guardian [addressOf 1] (.proposePause (addressOf 1) Deployment.pool 0 false)]

/-- The pool after the proposal. -/
def proposed : Joint := run Deployment.exitHost guardianAddress refuse start proposal

/-- A second approval completes the proposal. -/
theorem proposed_completes :
  Completes Deployment.exitHost proposed [addressOf 2] (.approvePause (addressOf 2) 0) 0
  := by
  refine .approve (addressOf 2) 0 ?_ (.proposed (addressOf 1) Deployment.pool 0 false) ?_
    ⟨rfl, rfl⟩ rfl ?_ ?_
  · decide +kernel
  · decide +kernel
  · decide +kernel
  · decide +kernel

/-- The second approval is refused. -/
theorem proposed_not_pauses :
  Completes Deployment.exitHost proposed [addressOf 2] (.approvePause (addressOf 2) 0) 0
    ∧ ¬ Pauses Deployment.exitHost guardianAddress refuse proposed [addressOf 2]
      (.approvePause (addressOf 2) 0) 0
  := ⟨proposed_completes, not_pauses proposed_completes⟩

/-- The pool is administered by the guardian, the second approval completes the proposal to
pause it, and yet it is not paused. -/
theorem second_approval_refused :
  proposed.outside.pool.admin = guardianAddress
    ∧ Completes Deployment.exitHost proposed [addressOf 2] (.approvePause (addressOf 2) 0) 0
    ∧ step Deployment.exitHost guardianAddress refuse
      (.guardian [addressOf 2] (.approvePause (addressOf 2) 0)) proposed = none
    ∧ ¬ Pauses Deployment.exitHost guardianAddress refuse proposed [addressOf 2]
      (.approvePause (addressOf 2) 0) 0
  := by
  have hnone : step Deployment.exitHost guardianAddress refuse
      (.guardian [addressOf 2] (.approvePause (addressOf 2) 0)) proposed = none :=
    Option.isNone_iff_eq_none.mp (by decide +kernel)
  refine ⟨by decide +kernel, proposed_completes, hnone, ?_⟩
  rintro ⟨w', h, -⟩
  rw [hnone] at h
  cases h

/-- An upgrade of the pool is proposed and approved, and 100 ledgers pass. -/
def upgradeApprovals : List Action :=
  [.guardian [addressOf 1] (.proposeUpgrade (addressOf 1) Deployment.pool 7),
    .guardian [addressOf 2] (.approveUpgrade (addressOf 2) 0),
    .advance 100]

/-- The upgrade is executed after that. -/
theorem upgradeApprovals_timelockedBy :
  ∃ id, TimelockedBy Deployment.exitHost guardianAddress refuse start
    (handover ++ upgradeApprovals) 200 id 7
  := by
  obtain ⟨-, -, hupgrade⟩ := governed_pool_frozen
    (by decide +kernel :
      (run Deployment.exitHost guardianAddress refuse start handover).outside.pool.admin
        = guardianAddress)
    (by decide +kernel : (run Deployment.exitHost guardianAddress refuse start
      (handover ++ upgradeApprovals)).outside.pool.wasm = none)
  have hexec := Machine.eq_some_next
    (by decide +kernel : (step Deployment.exitHost guardianAddress refuse
      (.guardian [] (.executeUpgrade 0))
      (run Deployment.exitHost guardianAddress refuse start
        (handover ++ upgradeApprovals))).isSome = true)
  have hwasm : (Machine.next (step Deployment.exitHost guardianAddress refuse)
      (run Deployment.exitHost guardianAddress refuse start (handover ++ upgradeApprovals))
      (.guardian [] (.executeUpgrade 0))).outside.pool.wasm = some 7 := by decide +kernel
  have hsequence : (run Deployment.exitHost guardianAddress refuse start
      (handover ++ upgradeApprovals)).sequence = 200 := by decide +kernel
  rcases hupgrade _ _ hexec with hnone | ⟨auth, id, newWasmHash, -, hsome, hlocked⟩
  · rw [hwasm] at hnone
    cases hnone
  · obtain rfl := Option.some.inj (hwasm.symm.trans hsome)
    use id
    rw [← hsequence]
    exact hlocked

end Shade.Governed
