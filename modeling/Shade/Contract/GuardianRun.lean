import Shade.Contract.GovernanceGuardian
import Shade.Library.Machine

/-!
# Runs of the guardian

The governance guardian and what surrounds it as a machine. An action is a call of the
guardian, the ledger moving on, or anything that happens in the other contracts. `Outcome`
says what an accepted call has checked and done, `UpgradeStep` and `PauseStep` what an action
does to the proposals.
-/

namespace Shade.GovernanceGuardian

open Txn

section

variable {Outside : Type} (invoke : List Address → Invocation → Outside → Option Outside)
  (auth : List Address)

/-- The calls of the guardian. -/
inductive Call where
  | initializeGuardian (admin : Address) (guardians : List Address)
      (threshold upgradeDelayLedgers : UInt32)
  | addGuardian (guardian : Address)
  | removeGuardian (guardian : Address)
  | setThreshold (threshold : UInt32)
  | proposePause (guardian contractId : Address) (reasonHash : Word) (unpause : Bool)
  | approvePause (guardian : Address) (proposalId : UInt32)
  | proposeUpgrade (guardian contractId : Address) (newWasmHash : Word)
  | approveUpgrade (guardian : Address) (proposalId : UInt32)
  | cancelUpgrade (guardian : Address) (proposalId : UInt32)
  | executeUpgrade (proposalId : UInt32)
deriving DecidableEq, Repr

/-- The world after a call, if it is accepted. -/
def Call.exec : Call → World Outside → Option (World Outside)
  | initializeGuardian admin guardians threshold upgradeDelayLedgers =>
      attempt (GovernanceGuardian.initializeGuardian auth admin guardians threshold
        upgradeDelayLedgers)
  | addGuardian guardian => attempt (GovernanceGuardian.addGuardian auth guardian)
  | removeGuardian guardian => attempt (GovernanceGuardian.removeGuardian auth guardian)
  | setThreshold threshold => attempt (GovernanceGuardian.setThreshold auth threshold)
  | proposePause guardian contractId reasonHash unpause =>
      attempt (GovernanceGuardian.proposePause invoke auth guardian contractId reasonHash unpause)
  | approvePause guardian proposalId =>
      attempt (GovernanceGuardian.approvePause invoke auth guardian proposalId)
  | proposeUpgrade guardian contractId newWasmHash =>
      attempt (GovernanceGuardian.proposeUpgrade auth guardian contractId newWasmHash)
  | approveUpgrade guardian proposalId =>
      attempt (GovernanceGuardian.approveUpgrade auth guardian proposalId)
  | cancelUpgrade guardian proposalId =>
      attempt (GovernanceGuardian.cancelUpgrade auth guardian proposalId)
  | executeUpgrade proposalId =>
      attempt (GovernanceGuardian.executeUpgrade invoke auth proposalId)

/-- What can happen: a call of the guardian with the addresses that authorize it, the ledger
moving on to a sequence, and anything at all in the other contracts. -/
inductive Action (Outside : Type) where
  | call (auth : List Address) (c : Call)
  | advance (sequence : UInt32)
  | elsewhere (outside : Outside)

/-- The world after an action, if it is possible. The ledger does not move back. -/
def step : Action Outside → World Outside → Option (World Outside)
  | .call auth c, w => c.exec invoke auth w
  | .advance sequence, w =>
      if w.sequence ≤ sequence then some { w with sequence := sequence } else none
  | .elsewhere outside, w => some { w with outside := outside }

/-- The world after a list of actions. -/
abbrev run (w : World Outside) (actions : List (Action Outside)) : World Outside :=
  Machine.run (step invoke) w actions

/-- The proposal an action cancels. -/
def Action.cancelled : Action Outside → Option UInt32
  | .call _ (.cancelUpgrade _ id) => some id
  | _ => none

/-- The proposal an action executes. -/
def Action.executed : Action Outside → Option UInt32
  | .call _ (.executeUpgrade id) => some id
  | _ => none

end

section

variable {Outside : Type} {invoke : List Address → Invocation → Outside → Option Outside}
  {auth : List Address} {w w' : World Outside} {a : Action Outside} {id : UInt32}

/-! ### What an accepted call has checked -/

/-- An accepted call, with what it has checked, and the world it leaves. -/
inductive Outcome (invoke : List Address → Invocation → Outside → Option Outside)
    (auth : List Address) (w : World Outside) : Call → World Outside → Prop
  | initializeGuardian (admin : Address) (guardians : List Address)
      (threshold upgradeDelayLedgers : UInt32) (hnew : w.state.admin = none)
      (hauth : admin ∈ auth)
      (hthreshold : 0 < threshold.toNat ∧ threshold.toNat ≤ guardians.length) :
      Outcome invoke auth w
        (.initializeGuardian admin guardians threshold upgradeDelayLedgers)
        (w.mapState (·.initialized admin guardians threshold upgradeDelayLedgers))
  | keepGuardian (guardian : Address) (hadmin : w.AdminAuth auth)
      (hknown : guardian ∈ w.guardians) :
      Outcome invoke auth w (.addGuardian guardian) w
  | addGuardian (guardian : Address) (hadmin : w.AdminAuth auth)
      (hnew : guardian ∉ w.guardians) :
      Outcome invoke auth w (.addGuardian guardian)
        (w.mapState fun s => { s with guardians := some (w.guardians ++ [guardian]) })
  | removeGuardian (guardian : Address) (hadmin : w.AdminAuth auth)
      (hthreshold : w.threshold.toNat ≤ (w.guardians.filter (· ≠ guardian)).length) :
      Outcome invoke auth w (.removeGuardian guardian)
        (w.mapState fun s => { s with guardians := some (w.guardians.filter (· ≠ guardian)) })
  | setThreshold (threshold : UInt32) (hadmin : w.AdminAuth auth)
      (hthreshold : 0 < threshold.toNat ∧ threshold.toNat ≤ w.guardians.length) :
      Outcome invoke auth w (.setThreshold threshold)
        (w.mapState fun s => { s with thresh := some threshold })
  | proposePause (guardian contractId : Address) (reasonHash : Word) (unpause : Bool)
      (hguardian : guardian ∈ w.guardians ∧ guardian ∈ auth) (next : UInt32)
      (hnext : w.nextProposalId.toNat + 1 = next.toNat) (w' : World Outside)
      (hattempt : PauseAttempt invoke auth
        ((w.countProposal next).setPause w.nextProposalId
          (.proposed guardian contractId reasonHash unpause))
        w.nextProposalId (.proposed guardian contractId reasonHash unpause) w') :
      Outcome invoke auth w (.proposePause guardian contractId reasonHash unpause) w'
  | approvePause (guardian : Address) (proposalId : UInt32)
      (hguardian : guardian ∈ w.guardians ∧ guardian ∈ auth) (p : PauseProposal)
      (hp : w.getPauseProposal proposalId = some p) (hopen : p.executed = false)
      (hnew : guardian ∉ p.approvals) (w' : World Outside)
      (hattempt : PauseAttempt invoke auth
        (w.setPause proposalId { p with approvals := p.approvals ++ [guardian] }) proposalId
        { p with approvals := p.approvals ++ [guardian] } w') :
      Outcome invoke auth w (.approvePause guardian proposalId) w'
  | proposeUpgrade (guardian contractId : Address) (newWasmHash : Word)
      (hguardian : guardian ∈ w.guardians ∧ guardian ∈ auth) (next : UInt32)
      (hnext : w.nextProposalId.toNat + 1 = next.toNat) :
      Outcome invoke auth w (.proposeUpgrade guardian contractId newWasmHash)
        (((w.countProposal next).setUpgrade w.nextProposalId
          (.proposed guardian contractId newWasmHash)).recordQuorum w.nextProposalId
          (.proposed guardian contractId newWasmHash))
  | approveUpgrade (guardian : Address) (proposalId : UInt32)
      (hguardian : guardian ∈ w.guardians ∧ guardian ∈ auth) (p : UpgradeProposal)
      (hp : w.getUpgradeProposal proposalId = some p)
      (hopen : p.executed = false ∧ p.cancelled = false) (hnew : guardian ∉ p.approvals) :
      Outcome invoke auth w (.approveUpgrade guardian proposalId)
        ((w.setUpgrade proposalId { p with approvals := p.approvals ++ [guardian] }).recordQuorum
          proposalId { p with approvals := p.approvals ++ [guardian] })
  | cancelUpgrade (guardian : Address) (proposalId : UInt32)
      (hguardian : guardian ∈ w.guardians ∧ guardian ∈ auth) (p : UpgradeProposal)
      (hp : w.getUpgradeProposal proposalId = some p) (hopen : p.executed = false) :
      Outcome invoke auth w (.cancelUpgrade guardian proposalId)
        ((w.setUpgrade proposalId { p with cancelled := true }).emit
          (.upcancel proposalId guardian))
  | executeUpgrade (proposalId : UInt32) (p : UpgradeProposal)
      (hp : w.getUpgradeProposal proposalId = some p)
      (hopen : p.executed = false ∧ p.cancelled = false) (quorumLedger : UInt32)
      (hquorum : p.quorumAtLedger = some quorumLedger)
      (hunlocked : quorumLedger.toNat + w.upgradeDelay.toNat ≤ w.sequence.toNat)
      (outside : Outside)
      (hinvoke : invoke auth ⟨p.contractId, .upgrade p.newWasmHash⟩ w.outside = some outside) :
      Outcome invoke auth w (.executeUpgrade proposalId)
        (((w.invoked ⟨p.contractId, .upgrade p.newWasmHash⟩ outside).setUpgrade proposalId
          { p with executed := true }).emit (.upgraded proposalId p.contractId))

theorem Call.exec_outcome {c : Call} (h : c.exec invoke auth w = some w') :
  Outcome invoke auth w c w'
  := by
  cases c with
  | initializeGuardian admin guardians threshold upgradeDelayLedgers =>
      obtain ⟨_, h⟩ := attempt_eq_some.mp h
      simp only [GovernanceGuardian.initializeGuardian, read_bind_ok, require_bind_ok,
        write_ok] at h
      obtain ⟨hnew, hauth, hthreshold, rfl⟩ := h
      apply Outcome.initializeGuardian _ _ _ _ hnew hauth hthreshold
  | addGuardian guardian =>
      obtain ⟨_, h⟩ := attempt_eq_some.mp h
      simp only [GovernanceGuardian.addGuardian, requireAdmin_bind_ok, read_bind_ok] at h
      obtain ⟨hadmin, h⟩ := h
      split at h
      · next hknown =>
          obtain ⟨-, rfl⟩ := pure_ok.mp h
          apply Outcome.keepGuardian guardian hadmin hknown
      · next hnew =>
          obtain rfl := write_ok.mp h
          apply Outcome.addGuardian guardian hadmin hnew
  | removeGuardian guardian =>
      obtain ⟨_, h⟩ := attempt_eq_some.mp h
      simp only [GovernanceGuardian.removeGuardian, requireAdmin_bind_ok, read_bind_ok,
        require_bind_ok, write_ok] at h
      obtain ⟨hadmin, hthreshold, rfl⟩ := h
      apply Outcome.removeGuardian guardian hadmin hthreshold
  | setThreshold threshold =>
      obtain ⟨_, h⟩ := attempt_eq_some.mp h
      simp only [GovernanceGuardian.setThreshold, requireAdmin_bind_ok, read_bind_ok,
        require_bind_ok, write_ok] at h
      obtain ⟨hadmin, hthreshold, rfl⟩ := h
      apply Outcome.setThreshold threshold hadmin hthreshold
  | proposePause guardian contractId reasonHash unpause =>
      obtain ⟨_, h⟩ := attempt_eq_some.mp h
      simp only [GovernanceGuardian.proposePause, requireGuardianAuth_bind_ok, nextId_bind_ok,
        write_bind_ok, bind_ok (x := tryExecutePause _ _ _ _), tryExecutePause_ok, pure_ok] at h
      obtain ⟨hguardian, next, hnext, _, _, hattempt, -, rfl⟩ := h
      apply Outcome.proposePause _ _ _ _ hguardian next hnext _ hattempt
  | approvePause guardian proposalId =>
      obtain ⟨_, h⟩ := attempt_eq_some.mp h
      simp only [GovernanceGuardian.approvePause, requireGuardianAuth_bind_ok, read_bind_ok,
        unwrap_bind_ok, require_bind_ok, write_bind_ok, tryExecutePause_ok] at h
      obtain ⟨hguardian, p, hp, hopen, hnew, hattempt⟩ := h
      apply Outcome.approvePause _ _ hguardian p hp hopen hnew _ hattempt
  | proposeUpgrade guardian contractId newWasmHash =>
      obtain ⟨_, h⟩ := attempt_eq_some.mp h
      simp only [GovernanceGuardian.proposeUpgrade, requireGuardianAuth_bind_ok, nextId_bind_ok,
        write_bind_ok, bind_ok (x := checkUpgradeQuorum _ _), checkUpgradeQuorum_ok,
        pure_ok] at h
      obtain ⟨hguardian, next, hnext, _, _, rfl, -, rfl⟩ := h
      apply Outcome.proposeUpgrade _ _ _ hguardian next hnext
  | approveUpgrade guardian proposalId =>
      obtain ⟨_, h⟩ := attempt_eq_some.mp h
      simp only [GovernanceGuardian.approveUpgrade, requireGuardianAuth_bind_ok, read_bind_ok,
        unwrap_bind_ok, require_bind_ok, write_bind_ok, checkUpgradeQuorum_ok] at h
      obtain ⟨hguardian, p, hp, hopen, hnew, rfl⟩ := h
      apply Outcome.approveUpgrade _ _ hguardian p hp hopen hnew
  | cancelUpgrade guardian proposalId =>
      obtain ⟨_, h⟩ := attempt_eq_some.mp h
      simp only [GovernanceGuardian.cancelUpgrade, requireGuardianAuth_bind_ok, read_bind_ok,
        unwrap_bind_ok, require_bind_ok, write_bind_ok, write_ok] at h
      obtain ⟨hguardian, p, hp, hopen, rfl⟩ := h
      apply Outcome.cancelUpgrade _ _ hguardian p hp hopen
  | executeUpgrade proposalId =>
      obtain ⟨_, h⟩ := attempt_eq_some.mp h
      simp only [GovernanceGuardian.executeUpgrade, read_bind_ok, unwrap_bind_ok,
        require_bind_ok, invokeContract_bind_ok, write_bind_ok, write_ok,
        checkedAdd_eq_some] at h
      obtain ⟨p, hp, hopen, quorumLedger, hquorum, unlocked, hsum, hunlocked, outside, hinvoke,
        rfl⟩ := h
      apply Outcome.executeUpgrade proposalId p hp hopen quorumLedger hquorum _ outside hinvoke
      rw [hsum]
      apply UInt32.le_iff_toNat_le.mp hunlocked

/-! ### What a step does to the upgrade proposals -/

/-- An upgrade proposal after its quorum is checked. -/
def UpgradeProposal.checked (w : World Outside) (p : UpgradeProposal) : UpgradeProposal :=
  if p.quorumAtLedger = none ∧ w.threshold.toNat ≤ p.approvals.length then
    { p with quorumAtLedger := some w.sequence }
  else
    p

/-- A check of the quorum keeps the flags. -/
theorem UpgradeProposal.checked_flags (w : World Outside) (p : UpgradeProposal) :
  (p.checked w).cancelled = p.cancelled ∧ (p.checked w).executed = p.executed
  := by
  rw [UpgradeProposal.checked]
  split
  · exact ⟨rfl, rfl⟩
  · exact ⟨rfl, rfl⟩

/-- The upgrade proposals of a world are those of another one, except for one of them. -/
def Rewrites (w : World Outside) (id : UInt32) (p : UpgradeProposal) (w' : World Outside) :
    Prop :=
  ∀ id', w'.getUpgradeProposal id' = if id = id' then some p else w.getUpgradeProposal id'

theorem rewrites_setUpgrade (w : World Outside) (id : UInt32) (p : UpgradeProposal) :
  Rewrites w id p (w.setUpgrade id p)
  := Store.Updates.set w.state.upgradeProposal id p

/-- The last of two writes counts. -/
theorem Rewrites.trans {w'' : World Outside} {p p' : UpgradeProposal} (h : Rewrites w id p w')
    (h' : Rewrites w' id p' w'') :
  Rewrites w id p' w''
  := Store.Updates.trans h h'

theorem Rewrites.get_self {p : UpgradeProposal} (h : Rewrites w id p w') :
  w'.getUpgradeProposal id = some p
  := Store.Updates.get_self h

/-- A proposal is the one written, or it was there before. -/
theorem Rewrites.eq_or {id' : UInt32} {p p' : UpgradeProposal} (h : Rewrites w id p w')
    (hp' : w'.getUpgradeProposal id' = some p') :
  (id = id' ∧ p = p') ∨ w.getUpgradeProposal id' = some p'
  := Store.Updates.eq_or h hp'

/-- If the id written to is below a bound and those in use are, all ids in use after the write
are. -/
theorem Rewrites.toNat_lt {id' : UInt32} {p p' : UpgradeProposal} {n : ℕ}
    (h : Rewrites w id p w') (hid : id.toNat < n)
    (hlt : ∀ id p, w.getUpgradeProposal id = some p → id.toNat < n)
    (hp' : w'.getUpgradeProposal id' = some p') :
  id'.toNat < n
  := by
  rcases h.eq_or hp' with ⟨rfl, -⟩ | hp'
  · exact hid
  · apply hlt id' p' hp'

theorem rewrites_recordQuorum (w : World Outside) (id : UInt32) (p : UpgradeProposal) :
  Rewrites w id (p.checked w) ((w.setUpgrade id p).recordQuorum id p)
  := by
  have hset := rewrites_setUpgrade w id p
  have hthreshold : (w.setUpgrade id p).threshold = w.threshold := rfl
  rw [World.recordQuorum, UpgradeProposal.checked, hthreshold]
  split
  · apply hset.trans (rewrites_setUpgrade _ id _)
  · exact hset

/-- A step as far as upgrade proposals are concerned. -/
inductive UpgradeStep (w : World Outside) : Action Outside → World Outside → Prop
  | keep (a : Action Outside) (w' : World Outside) (hcancelled : a.cancelled = none)
      (hexecuted : a.executed = none) (hget : w'.state.upgradeProposal = w.state.upgradeProposal)
      (hcalls : ∀ contractId newWasmHash, ⟨contractId, .upgrade newWasmHash⟩
        ∉ w'.invocations.drop w.invocations.length) :
      UpgradeStep w a w'
  | propose (auth : List Address) (guardian contractId : Address) (newWasmHash : Word)
      (hguardian : guardian ∈ w.guardians) (w' : World Outside)
      (hget : Rewrites w w.nextProposalId
        (UpgradeProposal.checked w (.proposed guardian contractId newWasmHash)) w')
      (hnext : w.nextProposalId.toNat < w'.nextProposalId.toNat)
      (hcalls : w'.invocations = w.invocations) :
      UpgradeStep w (.call auth (.proposeUpgrade guardian contractId newWasmHash)) w'
  | approve (auth : List Address) (guardian : Address) (id : UInt32)
      (hguardian : guardian ∈ w.guardians) (p : UpgradeProposal)
      (hp : w.getUpgradeProposal id = some p)
      (hopen : p.executed = false ∧ p.cancelled = false) (hnew : guardian ∉ p.approvals)
      (w' : World Outside)
      (hget : Rewrites w id
        (UpgradeProposal.checked w { p with approvals := p.approvals ++ [guardian] }) w')
      (hcalls : w'.invocations = w.invocations) :
      UpgradeStep w (.call auth (.approveUpgrade guardian id)) w'
  | cancel (auth : List Address) (guardian : Address) (id : UInt32) (p : UpgradeProposal)
      (hp : w.getUpgradeProposal id = some p) (hopen : p.executed = false) (w' : World Outside)
      (hget : Rewrites w id { p with cancelled := true } w')
      (hcalls : w'.invocations = w.invocations) :
      UpgradeStep w (.call auth (.cancelUpgrade guardian id)) w'
  | execute (auth : List Address) (id : UInt32) (p : UpgradeProposal)
      (hp : w.getUpgradeProposal id = some p)
      (hopen : p.executed = false ∧ p.cancelled = false) (q : UInt32)
      (hquorum : p.quorumAtLedger = some q)
      (hunlocked : q.toNat + w.upgradeDelay.toNat ≤ w.sequence.toNat) (w' : World Outside)
      (hget : Rewrites w id { p with executed := true } w')
      (hcalls : w'.invocations = w.invocations ++ [⟨p.contractId, .upgrade p.newWasmHash⟩]) :
      UpgradeStep w (.call auth (.executeUpgrade id)) w'

/-- A step that does not touch the upgrade proposals and makes no call. -/
theorem UpgradeStep.of_eq (hcancelled : a.cancelled = none) (hexecuted : a.executed = none)
    (hget : w'.state.upgradeProposal = w.state.upgradeProposal)
    (hcalls : w'.invocations = w.invocations) :
  UpgradeStep w a w'
  := by
  apply UpgradeStep.keep a w' hcancelled hexecuted hget
  simp [hcalls]

/-- What a check of the quorum leaves alone. -/
theorem recordQuorum_frame (w : World Outside) (id : UInt32) (p : UpgradeProposal) :
  (w.recordQuorum id p).state.admin = w.state.admin
    ∧ (w.recordQuorum id p).state.updelay = w.state.updelay
    ∧ (w.recordQuorum id p).nextProposalId = w.nextProposalId
    ∧ (w.recordQuorum id p).invocations = w.invocations
  := by
  rw [World.recordQuorum]
  split
  · exact ⟨rfl, rfl, rfl, rfl⟩
  · exact ⟨rfl, rfl, rfl, rfl⟩

/-- A pause proposal calls the function it is about, and leaves the upgrade proposals alone. -/
theorem PauseAttempt.frame {p : PauseProposal} (h : PauseAttempt invoke auth w id p w') :
  w'.state.upgradeProposal = w.state.upgradeProposal ∧ w'.state.admin = w.state.admin
    ∧ w'.state.updelay = w.state.updelay ∧ w'.nextProposalId = w.nextProposalId
    ∧ ∀ i ∈ w'.invocations.drop w.invocations.length, i = p.invocation
  := by
  cases h with
  | waits hfew =>
      refine ⟨rfl, rfl, rfl, rfl, ?_⟩
      simp
  | executes outside hquorum hinvoke =>
      refine ⟨rfl, rfl, rfl, rfl, ?_⟩
      simp

/-- The call of a pause proposal is not an upgrade. -/
theorem PauseProposal.invocation_ne (p : PauseProposal) (contractId : Address)
    (newWasmHash : Word) :
  p.invocation ≠ ⟨contractId, .upgrade newWasmHash⟩
  := by
  intro h
  have hmethod := congrArg Invocation.method h
  rw [PauseProposal.invocation] at hmethod
  cases hunpause : p.unpause with
  | false => simp [hunpause] at hmethod
  | true => simp [hunpause] at hmethod

theorem step_upgrade (h : step invoke a w = some w') :
  UpgradeStep w a w'
  := by
  cases a with
  | advance sequence =>
      rw [step] at h
      split at h
      · obtain rfl := Option.some.inj h
        exact .of_eq rfl rfl rfl rfl
      · cases h
  | elsewhere outside =>
      obtain rfl := Option.some.inj h
      exact .of_eq rfl rfl rfl rfl
  | call auth c =>
      cases Call.exec_outcome h with
      | initializeGuardian admin guardians threshold delay hnew hauth hthreshold =>
          exact .of_eq rfl rfl rfl rfl
      | keepGuardian guardian hadmin hknown =>
          exact .of_eq rfl rfl rfl rfl
      | addGuardian guardian hadmin hnew =>
          exact .of_eq rfl rfl rfl rfl
      | removeGuardian guardian hadmin hthreshold =>
          exact .of_eq rfl rfl rfl rfl
      | setThreshold threshold hadmin hthreshold =>
          exact .of_eq rfl rfl rfl rfl
      | proposePause guardian contractId reasonHash unpause hguardian next hnext w' hattempt =>
          obtain ⟨hget, -, -, -, hcalls⟩ := hattempt.frame
          refine UpgradeStep.keep _ w' rfl rfl hget ?_
          intro contractId newWasmHash hmem
          apply PauseProposal.invocation_ne _ _ _ (hcalls _ hmem).symm
      | approvePause guardian proposalId hguardian p hp hopen hnew w' hattempt =>
          obtain ⟨hget, -, -, -, hcalls⟩ := hattempt.frame
          refine UpgradeStep.keep _ w' rfl rfl hget ?_
          intro contractId newWasmHash hmem
          apply PauseProposal.invocation_ne _ _ _ (hcalls _ hmem).symm
      | proposeUpgrade guardian contractId newWasmHash hguardian next hnext =>
          obtain ⟨-, -, hnextId, hcalls⟩ := recordQuorum_frame
            ((w.countProposal next).setUpgrade w.nextProposalId
              (.proposed guardian contractId newWasmHash))
            w.nextProposalId (.proposed guardian contractId newWasmHash)
          apply UpgradeStep.propose auth guardian contractId newWasmHash hguardian.1
          · apply rewrites_recordQuorum (w.countProposal next) _ _
          · rw [hnextId]
            change w.nextProposalId.toNat < next.toNat
            omega
          · exact hcalls
      | approveUpgrade guardian proposalId hguardian p hp hopen hnew =>
          apply UpgradeStep.approve auth guardian proposalId hguardian.1 p hp hopen hnew
          · apply rewrites_recordQuorum
          · exact (recordQuorum_frame _ _ _).2.2.2
      | cancelUpgrade guardian proposalId hguardian p hp hopen =>
          apply UpgradeStep.cancel auth guardian proposalId p hp hopen
          · apply rewrites_setUpgrade
          · rfl
      | executeUpgrade proposalId p hp hopen q hquorum hunlocked outside hinvoke =>
          apply UpgradeStep.execute auth proposalId p hp hopen q hquorum hunlocked
          · apply rewrites_setUpgrade
          · rfl

/-- The flags of an upgrade proposal are set at least where those of another one are. -/
def UpgradeProposal.Flagged (p p' : UpgradeProposal) : Prop :=
  (p.cancelled = true → p'.cancelled = true) ∧ (p.executed = true → p'.executed = true)

/-- A write that keeps the flags of a proposal keeps them for every proposal. -/
theorem Rewrites.flagged {id' : UInt32} {p p' : UpgradeProposal} (h : Rewrites w id p w')
    (hp' : w.getUpgradeProposal id' = some p') (hsame : id = id' → p'.Flagged p) :
  ∃ p'', w'.getUpgradeProposal id' = some p'' ∧ p'.Flagged p''
  := by
  rw [h id']
  by_cases hid : id = id'
  · rw [if_pos hid]
    exact ⟨p, rfl, hsame hid⟩
  · rw [if_neg hid]
    exact ⟨p', hp', fun h => h, fun h => h⟩

/-- A proposal whose id has been given out stays, and so do its flags. -/
theorem UpgradeStep.flagged (h : UpgradeStep w a w') {p : UpgradeProposal}
    (hp : w.getUpgradeProposal id = some p) (hlt : id.toNat < w.nextProposalId.toNat) :
  ∃ p', w'.getUpgradeProposal id = some p' ∧ p.Flagged p'
  := by
  cases h with
  | keep a w' hcancelled hexecuted hget hcalls =>
      rw [World.getUpgradeProposal, hget]
      exact ⟨p, hp, fun h => h, fun h => h⟩
  | propose auth guardian contractId newWasmHash hguardian w' hget hnext hcalls =>
      apply hget.flagged hp
      rintro rfl
      exact absurd hlt (lt_irrefl _)
  | approve auth guardian id' hguardian p₀ hp₀ hopen hnew w' hget hcalls =>
      apply hget.flagged hp
      rintro rfl
      obtain rfl := Option.some.inj (hp.symm.trans hp₀)
      obtain ⟨hcancelled, hexecuted⟩ := UpgradeProposal.checked_flags w
        { p with approvals := p.approvals ++ [guardian] }
      rw [UpgradeProposal.Flagged, hcancelled, hexecuted]
      exact ⟨fun h => h, fun h => h⟩
  | cancel auth guardian id' p₀ hp₀ hopen w' hget hcalls =>
      apply hget.flagged hp
      rintro rfl
      obtain rfl := Option.some.inj (hp.symm.trans hp₀)
      exact ⟨fun _ => rfl, fun h => h⟩
  | execute auth id' p₀ hp₀ hopen q hquorum hunlocked w' hget hcalls =>
      apply hget.flagged hp
      rintro rfl
      obtain rfl := Option.some.inj (hp.symm.trans hp₀)
      exact ⟨fun h => h, fun _ => rfl⟩

/-- A proposal that is cancelled is marked so. -/
theorem UpgradeStep.cancelled (h : UpgradeStep w a w') (hid : a.cancelled = some id) :
  ∃ p, w'.getUpgradeProposal id = some p ∧ p.cancelled = true
  := by
  cases h with
  | keep a w' hcancelled hexecuted hget hcalls =>
      rw [hcancelled] at hid
      cases hid
  | propose => cases hid
  | approve => cases hid
  | cancel auth guardian id' p hp hopen w' hget hcalls =>
      obtain rfl := Option.some.inj hid
      exact ⟨_, hget.get_self, rfl⟩
  | execute => cases hid

/-- A proposal that is executed is marked so. -/
theorem UpgradeStep.executed (h : UpgradeStep w a w') (hid : a.executed = some id) :
  ∃ p, w'.getUpgradeProposal id = some p ∧ p.executed = true
  := by
  cases h with
  | keep a w' hcancelled hexecuted hget hcalls =>
      rw [hexecuted] at hid
      cases hid
  | propose => cases hid
  | approve => cases hid
  | cancel => cases hid
  | execute auth id' p hp hopen q hquorum hunlocked w' hget hcalls =>
      obtain rfl := Option.some.inj hid
      exact ⟨_, hget.get_self, rfl⟩

/-- A proposal had its id given out before, or it is the one the step makes. -/
theorem UpgradeStep.lt_next (h : UpgradeStep w a w')
    (hle : w.nextProposalId.toNat ≤ w'.nextProposalId.toNat)
    (hlt : ∀ id p, w.getUpgradeProposal id = some p → id.toNat < w.nextProposalId.toNat)
    {p : UpgradeProposal} (hp : w'.getUpgradeProposal id = some p) :
  id.toNat < w'.nextProposalId.toNat
  := by
  have hlt' : ∀ id p, w.getUpgradeProposal id = some p → id.toNat < w'.nextProposalId.toNat :=
    fun id p hp => (hlt id p hp).trans_le hle
  cases h with
  | keep a w' hcancelled hexecuted hget hcalls =>
      rw [World.getUpgradeProposal, hget] at hp
      apply hlt' id p hp
  | propose auth guardian contractId newWasmHash hguardian w' hget hnext hcalls =>
      apply hget.toNat_lt hnext hlt' hp
  | approve auth guardian id' hguardian p₀ hp₀ hopen hnew w' hget hcalls =>
      apply hget.toNat_lt (hlt' id' p₀ hp₀) hlt' hp
  | cancel auth guardian id' p₀ hp₀ hopen w' hget hcalls =>
      apply hget.toNat_lt (hlt' id' p₀ hp₀) hlt' hp
  | execute auth id' p₀ hp₀ hopen q hquorum hunlocked w' hget hcalls =>
      apply hget.toNat_lt (hlt' id' p₀ hp₀) hlt' hp

/-- After the initialization a step keeps the administrator and the delay, and no id is given
out twice. -/
theorem step_frame (hadmin : w.state.admin ≠ none) (h : step invoke a w = some w') :
  w'.state.admin ≠ none ∧ w'.state.updelay = w.state.updelay
    ∧ w.nextProposalId.toNat ≤ w'.nextProposalId.toNat
  := by
  cases a with
  | advance sequence =>
      rw [step] at h
      split at h
      · obtain rfl := Option.some.inj h
        exact ⟨hadmin, rfl, le_rfl⟩
      · cases h
  | elsewhere outside =>
      obtain rfl := Option.some.inj h
      exact ⟨hadmin, rfl, le_rfl⟩
  | call auth c =>
      cases Call.exec_outcome h with
      | initializeGuardian admin guardians threshold delay hnew => exact absurd hnew hadmin
      | keepGuardian => exact ⟨hadmin, rfl, le_rfl⟩
      | addGuardian => exact ⟨hadmin, rfl, le_rfl⟩
      | removeGuardian => exact ⟨hadmin, rfl, le_rfl⟩
      | setThreshold => exact ⟨hadmin, rfl, le_rfl⟩
      | proposePause guardian contractId reasonHash unpause hguardian next hnext w' hattempt =>
          obtain ⟨-, hadmin', hdelay, hnextId, -⟩ := hattempt.frame
          refine ⟨by rwa [hadmin'], hdelay, ?_⟩
          rw [hnextId]
          change w.nextProposalId.toNat ≤ next.toNat
          omega
      | approvePause guardian proposalId hguardian p hp hopen hnew w' hattempt =>
          obtain ⟨-, hadmin', hdelay, hnextId, -⟩ := hattempt.frame
          exact ⟨by rwa [hadmin'], hdelay, (congrArg UInt32.toNat hnextId).ge⟩
      | proposeUpgrade guardian contractId newWasmHash hguardian next hnext =>
          obtain ⟨hadmin', hdelay, hnextId, -⟩ := recordQuorum_frame
            ((w.countProposal next).setUpgrade w.nextProposalId
              (.proposed guardian contractId newWasmHash))
            w.nextProposalId (.proposed guardian contractId newWasmHash)
          refine ⟨by rwa [hadmin'], hdelay, ?_⟩
          rw [hnextId]
          change w.nextProposalId.toNat ≤ next.toNat
          omega
      | approveUpgrade guardian proposalId hguardian p hp hopen hnew =>
          obtain ⟨hadmin', hdelay, hnextId, -⟩ := recordQuorum_frame
            (w.setUpgrade proposalId { p with approvals := p.approvals ++ [guardian] })
            proposalId { p with approvals := p.approvals ++ [guardian] }
          exact ⟨by rwa [hadmin'], hdelay, (congrArg UInt32.toNat hnextId).ge⟩
      | cancelUpgrade => exact ⟨hadmin, rfl, le_rfl⟩
      | executeUpgrade => exact ⟨hadmin, rfl, le_rfl⟩

/-! ### What a step does to the pause proposals -/

/-- A step as far as pause proposals are concerned. The calls a step makes for a pause proposal
are made with at least as many approvals as the threshold says. -/
inductive PauseStep (w : World Outside) : Action Outside → World Outside → Prop
  | keep (a : Action Outside) (w' : World Outside)
      (hget : w'.state.pauseProposal = w.state.pauseProposal)
      (hcalls : ∀ i ∈ w'.invocations.drop w.invocations.length,
        ∃ contractId newWasmHash, i = ⟨contractId, .upgrade newWasmHash⟩) :
      PauseStep w a w'
  | propose (auth : List Address) (guardian contractId : Address) (reasonHash : Word)
      (unpause : Bool) (hguardian : guardian ∈ w.guardians) (w' : World Outside)
      (executed : Bool)
      (hget : w.state.pauseProposal.Updates w.nextProposalId
        { PauseProposal.proposed guardian contractId reasonHash unpause with
          executed := executed } w'.state.pauseProposal)
      (hnext : w.nextProposalId.toNat < w'.nextProposalId.toNat)
      (hcalls : ∀ i ∈ w'.invocations.drop w.invocations.length, w.threshold.toNat ≤ 1
        ∧ i = (PauseProposal.proposed guardian contractId reasonHash unpause).invocation) :
      PauseStep w (.call auth (.proposePause guardian contractId reasonHash unpause)) w'
  | approve (auth : List Address) (guardian : Address) (id : UInt32)
      (hguardian : guardian ∈ w.guardians) (p : PauseProposal)
      (hp : w.getPauseProposal id = some p) (hopen : p.executed = false)
      (hnew : guardian ∉ p.approvals) (w' : World Outside) (executed : Bool)
      (hget : w.state.pauseProposal.Updates id
        { p with approvals := p.approvals ++ [guardian], executed := executed }
        w'.state.pauseProposal)
      (hcalls : ∀ i ∈ w'.invocations.drop w.invocations.length,
        w.threshold.toNat ≤ (p.approvals ++ [guardian]).length ∧ i = p.invocation) :
      PauseStep w (.call auth (.approvePause guardian id)) w'

/-- A step that does not touch the pause proposals and makes no call. -/
theorem PauseStep.of_eq (hget : w'.state.pauseProposal = w.state.pauseProposal)
    (hcalls : w'.invocations = w.invocations) :
  PauseStep w a w'
  := by
  apply PauseStep.keep a w' hget
  simp [hcalls]

/-- What a check of the quorum of an upgrade does to the pause proposals: nothing. -/
theorem recordQuorum_pauseProposal (w : World Outside) (id : UInt32) (p : UpgradeProposal) :
  (w.recordQuorum id p).state.pauseProposal = w.state.pauseProposal
  := by
  rw [World.recordQuorum]
  split
  · rfl
  · rfl

/-- A pause proposal that has been written is written once more if it is executed, which it
only is with enough approvals. -/
theorem PauseAttempt.updates {p : PauseProposal}
    (h : PauseAttempt invoke auth (w.setPause id p) id p w') (hopen : p.executed = false) :
  ∃ executed, w.state.pauseProposal.Updates id { p with executed := executed }
      w'.state.pauseProposal
    ∧ ∀ i ∈ w'.invocations.drop w.invocations.length,
      w.threshold.toNat ≤ p.approvals.length ∧ i = p.invocation
  := by
  have hset : w.state.pauseProposal.Updates id p (w.setPause id p).state.pauseProposal :=
    .set w.state.pauseProposal id p
  cases h with
  | waits hfew =>
      use false
      constructor
      · rw [← hopen]
        exact hset
      · simp
  | executes outside hquorum hinvoke =>
      use true
      constructor
      · apply hset.trans
        apply Store.Updates.set
      · intro i hi
        simp only [World.emit_invocations, World.setPause_invocations, World.invoked_invocations,
          List.drop_left, List.mem_singleton] at hi
        exact ⟨hquorum, hi⟩

theorem step_pause (h : step invoke a w = some w') :
  PauseStep w a w'
  := by
  cases a with
  | advance sequence =>
      rw [step] at h
      split at h
      · obtain rfl := Option.some.inj h
        exact .of_eq rfl rfl
      · cases h
  | elsewhere outside =>
      obtain rfl := Option.some.inj h
      exact .of_eq rfl rfl
  | call auth c =>
      cases Call.exec_outcome h with
      | initializeGuardian => exact .of_eq rfl rfl
      | keepGuardian => exact .of_eq rfl rfl
      | addGuardian => exact .of_eq rfl rfl
      | removeGuardian => exact .of_eq rfl rfl
      | setThreshold => exact .of_eq rfl rfl
      | proposePause guardian contractId reasonHash unpause hguardian next hnext w' hattempt =>
          obtain ⟨-, -, -, hnextId, -⟩ := hattempt.frame
          obtain ⟨executed, hget, hcalls⟩ := hattempt.updates rfl
          apply PauseStep.propose auth guardian contractId reasonHash unpause hguardian.1 w'
            executed hget _ hcalls
          rw [hnextId]
          change w.nextProposalId.toNat < next.toNat
          omega
      | approvePause guardian proposalId hguardian p hp hopen hnew w' hattempt =>
          obtain ⟨executed, hget, hcalls⟩ := hattempt.updates hopen
          exact .approve auth guardian proposalId hguardian.1 p hp hopen hnew w' executed hget
            hcalls
      | proposeUpgrade guardian contractId newWasmHash hguardian next hnext =>
          apply PauseStep.of_eq
          · apply recordQuorum_pauseProposal
          · exact (recordQuorum_frame _ _ _).2.2.2
      | approveUpgrade guardian proposalId hguardian p hp hopen hnew =>
          apply PauseStep.of_eq
          · apply recordQuorum_pauseProposal
          · exact (recordQuorum_frame _ _ _).2.2.2
      | cancelUpgrade => exact .of_eq rfl rfl
      | executeUpgrade proposalId p hp hopen q hquorum hunlocked outside hinvoke =>
          refine PauseStep.keep _ _ rfl ?_
          intro i hi
          simp only [World.emit_invocations, World.setUpgrade_invocations,
            World.invoked_invocations, List.drop_left, List.mem_singleton] at hi
          use p.contractId, p.newWasmHash

/-! ### What a call does to the other contracts -/

theorem recordQuorum_outside (w : World Outside) (id : UInt32) (p : UpgradeProposal) :
  (w.recordQuorum id p).outside = w.outside
  := by
  rw [World.recordQuorum]
  split
  · rfl
  · rfl

/-- A pause proposal changes the other contracts by the call it asks for, if at all. -/
theorem PauseAttempt.outside {p : PauseProposal}
    (h : PauseAttempt invoke auth (w.setPause id p) id p w') :
  w'.outside = w.outside ∨ invoke auth p.invocation w.outside = some w'.outside
  := by
  cases h with
  | waits hfew => exact .inl rfl
  | executes outside hquorum hinvoke => exact .inr hinvoke

/-- An accepted call leaves the other contracts alone, or it calls one of them for a pause
proposal or for an upgrade. -/
theorem Call.exec_outside {c : Call} (h : c.exec invoke auth w = some w') :
  w'.outside = w.outside
    ∨ (∃ p : PauseProposal, invoke auth p.invocation w.outside = some w'.outside)
    ∨ ∃ id contractId newWasmHash, c = .executeUpgrade id
      ∧ ⟨contractId, .upgrade newWasmHash⟩ ∈ w'.invocations.drop w.invocations.length
      ∧ invoke auth ⟨contractId, .upgrade newWasmHash⟩ w.outside = some w'.outside
  := by
  cases Call.exec_outcome h with
  | initializeGuardian => exact .inl rfl
  | keepGuardian => exact .inl rfl
  | addGuardian => exact .inl rfl
  | removeGuardian => exact .inl rfl
  | setThreshold => exact .inl rfl
  | proposePause guardian contractId reasonHash unpause hguardian next hnext w' hattempt =>
      rcases hattempt.outside with hsame | hinvoke
      · exact .inl hsame
      · exact .inr (.inl ⟨_, hinvoke⟩)
  | approvePause guardian proposalId hguardian p hp hopen hnew w' hattempt =>
      rcases hattempt.outside with hsame | hinvoke
      · exact .inl hsame
      · exact .inr (.inl ⟨_, hinvoke⟩)
  | proposeUpgrade guardian contractId newWasmHash hguardian next hnext =>
      left
      apply recordQuorum_outside
  | approveUpgrade guardian proposalId hguardian p hp hopen hnew =>
      left
      apply recordQuorum_outside
  | cancelUpgrade => exact .inl rfl
  | executeUpgrade proposalId p hp hopen q hquorum hunlocked outside hinvoke =>
      refine .inr (.inr ⟨proposalId, p.contractId, p.newWasmHash, rfl, ?_, hinvoke⟩)
      simp

end

end Shade.GovernanceGuardian
