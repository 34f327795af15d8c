import Shade.Property.Timelock
import Mathlib.Data.List.Dedup

/-!
# Quorums of guardians

Whose approvals stand behind a call of the guardian, and whether a quorum can come together at
all. An approval is checked when it is given and counts from then on: a proposal may be
executed with the approval of a guardian that has been removed since. The threshold never
exceeds the number of guardians on the list; it never exceeds the number of different guardians
exactly if the list handed to the initialization had no repetitions.
-/

namespace Shade.GovernanceGuardian

open Machine

section

variable {Outside : Type} (invoke : List Address → Invocation → Outside → Option Outside)

/-! ### Approvals of pause proposals -/

/-- The action approves a pause proposal in the name of an address: it makes the proposal,
whose id is the next one, or it adds an approval to it. -/
def ApprovesPause (id : UInt32) (guardian : Address) (w : World Outside) :
    Action Outside → Prop
  | .call _ (.proposePause g _ _ _) => g = guardian ∧ w.nextProposalId = id
  | .call _ (.approvePause g i) => g = guardian ∧ i = id
  | _ => False

/-- An address has approved a pause proposal, and was a guardian when it did. -/
def PauseApproved (w₀ : World Outside) (actions : List (Action Outside)) (id : UInt32)
    (guardian : Address) : Prop :=
  Occurs (step invoke) w₀
    (fun _ w a _ => guardian ∈ w.guardians ∧ ApprovesPause id guardian w a) actions

/-- What a pause proposal says about the past is true: its approvals are pairwise different,
and each of them was given by a guardian. -/
structure PauseDocumented (w₀ : World Outside) (actions : List (Action Outside)) (id : UInt32)
    (p : PauseProposal) : Prop where
  nodup : p.approvals.Nodup
  approved : ∀ g ∈ p.approvals, PauseApproved invoke w₀ actions id g

/-- The guardian is initialized, every id that is in use has been given out, and the pause
proposals tell the truth about the past. -/
structure PauseConsistent (w₀ : World Outside) (actions : List (Action Outside))
    (w : World Outside) : Prop where
  admin : w.state.admin ≠ none
  lt_next : ∀ id p, w.getPauseProposal id = some p → id.toNat < w.nextProposalId.toNat
  documented : ∀ id p, w.getPauseProposal id = some p →
    PauseDocumented invoke w₀ actions id p

end

section

variable {Outside : Type} {invoke : List Address → Invocation → Outside → Option Outside}
  {auth : List Address} {w₀ w w' : World Outside} {actions : List (Action Outside)}
  {a : Action Outside} {id : UInt32}

/-- What is documented stays so. -/
theorem PauseDocumented.mono {p : PauseProposal} (h : PauseDocumented invoke w₀ actions id p)
    (a : Action Outside) :
  PauseDocumented invoke w₀ (actions ++ [a]) id p
  := by
  constructor
  · exact h.nodup
  · intro g hg
    apply (h.approved g hg).mono (List.prefix_append actions [a])

/-- A pause proposal that is made is documented. -/
theorem pauseDocumented_proposed {guardian contractId : Address} {reasonHash : Word}
    {unpause executed : Bool} (h : PauseApproved invoke w₀ actions id guardian) :
  PauseDocumented invoke w₀ actions id
    { PauseProposal.proposed guardian contractId reasonHash unpause with executed := executed }
  := by
  constructor
  · apply List.nodup_singleton guardian
  · intro g hg
    rwa [List.mem_singleton.mp hg]

/-- A documented pause proposal is so with one more approval that is on record. -/
theorem PauseDocumented.approve {guardian : Address} {p : PauseProposal} {executed : Bool}
    (hp : PauseDocumented invoke w₀ actions id p) (hnew : guardian ∉ p.approvals)
    (h : PauseApproved invoke w₀ actions id guardian) :
  PauseDocumented invoke w₀ actions id
    { p with approvals := p.approvals ++ [guardian], executed := executed }
  := by
  constructor
  · change (p.approvals ++ [guardian]).Nodup
    rw [← List.concat_eq_append]
    apply hp.nodup.concat hnew
  · intro g hg
    rcases List.mem_append.mp hg with hg | hg
    · apply hp.approved g hg
    · rwa [List.mem_singleton.mp hg]

/-- The approval an action has just given to a pause proposal is on record. -/
theorem pauseApproved_concat {guardian : Address}
    (h : step invoke a (run invoke w₀ actions) = some w')
    (hguardian : guardian ∈ (run invoke w₀ actions).guardians)
    (ha : ApprovesPause id guardian (run invoke w₀ actions) a) :
  PauseApproved invoke w₀ (actions ++ [a]) id guardian
  := (occurs_concat h).mpr (.inr ⟨hguardian, ha⟩)

/-- If the pause proposal a step writes is documented, all of them are. -/
theorem PauseConsistent.documented_updates {id' : UInt32} {p p' : PauseProposal}
    (hI : PauseConsistent invoke w₀ actions w)
    (hget : w.state.pauseProposal.Updates id p w'.state.pauseProposal)
    (hp : PauseDocumented invoke w₀ (actions ++ [a]) id p)
    (hp' : w'.getPauseProposal id' = some p') :
  PauseDocumented invoke w₀ (actions ++ [a]) id' p'
  := by
  apply hget.forall_get (P := PauseDocumented invoke w₀ (actions ++ [a])) hp _ hp'
  intro id p hp
  apply (hI.documented id p hp).mono

/-- A successful step leaves the pause proposals consistent. -/
theorem PauseConsistent.step_some
    (hI : PauseConsistent invoke w₀ actions (run invoke w₀ actions))
    (h : step invoke a (run invoke w₀ actions) = some w') :
  PauseConsistent invoke w₀ (actions ++ [a]) w'
  := by
  obtain ⟨hadmin, -, hnext⟩ := step_frame hI.admin h
  have hlt : ∀ id p, (run invoke w₀ actions).getPauseProposal id = some p →
      id.toNat < w'.nextProposalId.toNat :=
    fun id p hp => (hI.lt_next id p hp).trans_le hnext
  cases step_pause h with
  | keep a w' hget hcalls =>
      refine ⟨hadmin, ?_, ?_⟩
      · intro id p hp
        rw [World.getPauseProposal, hget] at hp
        apply hlt id p hp
      · intro id p hp
        rw [World.getPauseProposal, hget] at hp
        exact (hI.documented id p hp).mono a
  | propose auth guardian contractId reasonHash unpause hguardian w' executed hget hnew hcalls =>
      refine ⟨hadmin, ?_, ?_⟩
      · intro id p hp
        apply hget.forall_get (P := fun (id : UInt32) _ => id.toNat < w'.nextProposalId.toNat)
          hnew hlt hp
      · intro id p hp
        apply hI.documented_updates hget _ hp
        apply pauseDocumented_proposed
        apply pauseApproved_concat h hguardian ⟨rfl, rfl⟩
  | approve auth guardian id' hguardian p₀ hp₀ hopen hnew w' executed hget hcalls =>
      refine ⟨hadmin, ?_, ?_⟩
      · intro id p hp
        apply hget.forall_get (P := fun (id : UInt32) _ => id.toNat < w'.nextProposalId.toNat)
          (hlt id' p₀ hp₀) hlt hp
      · intro id p hp
        apply hI.documented_updates hget _ hp
        apply ((hI.documented id' p₀ hp₀).mono _).approve hnew
        apply pauseApproved_concat h hguardian ⟨rfl, rfl⟩

/-- Along every run the pause proposals tell the truth about the past. -/
theorem pauseConsistent_run (hinit : PauseConsistent invoke w₀ [] w₀)
    (actions : List (Action Outside)) :
  PauseConsistent invoke w₀ actions (run invoke w₀ actions)
  := by
  apply Machine.history_run hinit
  · intro actions a w' hI h
    apply hI.step_some h
  · intro actions a hI h
    refine ⟨hI.admin, hI.lt_next, ?_⟩
    intro id p hp
    exact (hI.documented id p hp).mono a

/-- The world an initialization leaves has no pause proposals. -/
theorem pauseConsistent_initialized {sequence : UInt32} {outside : Outside} {admin : Address}
    {guardians : List Address} {threshold delay : UInt32}
    (h : step invoke (.call auth (.initializeGuardian admin guardians threshold delay))
      (.deployed sequence outside) = some w₀) :
  PauseConsistent invoke w₀ [] w₀
  := by
  have hexec : (Call.initializeGuardian admin guardians threshold delay).exec invoke auth
      (.deployed sequence outside) = some w₀ := h
  cases Call.exec_outcome hexec with
  | initializeGuardian _ _ _ _ hnew hauth hthreshold =>
      constructor
      · apply Option.some_ne_none admin
      · intro id p hp
        cases hp
      · intro id p hp
        cases hp

/-! ### The calls of the guardian -/

/-- The approvals of the proposal an action is about, after the action. -/
def Action.approvals (w w' : World Outside) : Action Outside → List Address
  | .call _ (.proposePause _ _ _ _) =>
      ((w'.getPauseProposal w.nextProposalId).map PauseProposal.approvals).getD []
  | .call _ (.approvePause _ id) =>
      ((w'.getPauseProposal id).map PauseProposal.approvals).getD []
  | .call _ (.executeUpgrade id) =>
      ((w'.getUpgradeProposal id).map UpgradeProposal.approvals).getD []
  | _ => []

/-- If an action makes the guardian call another contract, the proposal it is about has the
approvals of at least as many of the present guardians as the threshold says. -/
def CurrentQuorum (w : World Outside) (a : Action Outside) (w' : World Outside) : Prop :=
  w'.invocations ≠ w.invocations →
    w.threshold.toNat ≤ ((a.approvals w w').filter (· ∈ w.guardians)).dedup.length

instance (a : Action Outside) : Decidable (CurrentQuorum w a w') :=
  inferInstanceAs (Decidable (_ → _))

/-- A call that pauses or unpauses a contract for a proposal, after a run and an action that has
made it: as many guardians as the threshold says have approved the proposal, the last one with
this action. -/
structure PauseQuorum (invoke : List Address → Invocation → Outside → Option Outside)
    (w₀ : World Outside) (actions : List (Action Outside)) (a : Action Outside)
    (i : Invocation) (id : UInt32) (p : PauseProposal) : Prop where
  invocation : i = p.invocation
  threshold_le : (run invoke w₀ actions).threshold.toNat ≤ p.approvals.length
  documented : PauseDocumented invoke w₀ (actions ++ [a]) id p
  approves : ∃ g ∈ (run invoke w₀ actions).guardians, g ∈ p.approvals
    ∧ ApprovesPause id g (run invoke w₀ actions) a

/-- A call that upgrades a contract for a proposal, after a run: the approvals of the proposal
are of different addresses that gave them as guardians, and there were as many as the threshold
said when the quorum was recorded. -/
structure UpgradeQuorum (invoke : List Address → Invocation → Outside → Option Outside)
    (w₀ : World Outside) (actions : List (Action Outside)) (i : Invocation) (id : UInt32)
    (p : UpgradeProposal) : Prop where
  invocation : i = ⟨p.contractId, .upgrade p.newWasmHash⟩
  nodup : p.approvals.Nodup
  approved : ∀ g ∈ p.approvals, Approved invoke w₀ actions id g
  quorum : ∃ q, QuorumRecorded invoke w₀ actions id q p.contractId p.newWasmHash

/-- In every run of an initialized guardian, every call it makes is that of a proposal with a
quorum of approvals of different addresses, each of which was a guardian when it approved. For
a pause the threshold is the present one, for an upgrade that of the ledger at which the quorum
was recorded. -/
theorem calls_approved_by_guardians {sequence : UInt32} {outside : Outside} {admin : Address}
    {guardians : List Address} {threshold delay : UInt32}
    (hinit : step invoke (.call auth (.initializeGuardian admin guardians threshold delay))
      (.deployed sequence outside) = some w₀)
    (h : step invoke a (run invoke w₀ actions) = some w') :
  ∀ i ∈ w'.invocations.drop (run invoke w₀ actions).invocations.length,
    (∃ id p, w'.getPauseProposal id = some p ∧ PauseQuorum invoke w₀ actions a i id p)
    ∨ ∃ id p, a.executed = some id ∧ (run invoke w₀ actions).getUpgradeProposal id = some p
      ∧ UpgradeQuorum invoke w₀ actions i id p
  := by
  have hpause := (pauseConsistent_run (pauseConsistent_initialized hinit) actions).step_some h
  have hupgrade := consistent_run (consistent_initialized hinit) actions
  intro i hi
  cases step_pause h with
  | propose auth guardian contractId reasonHash unpause hguardian w' executed hget hnew hcalls =>
      obtain ⟨hthreshold, rfl⟩ := hcalls i hi
      have hp := hget.get_self
      left
      refine ⟨_, _, hp, rfl, hthreshold, hpause.documented _ _ hp, guardian, hguardian, ?_, ?_⟩
      · apply List.mem_singleton_self guardian
      · exact ⟨rfl, rfl⟩
  | approve auth guardian id hguardian p hp hopen hnew w' executed hget hcalls =>
      obtain ⟨hthreshold, rfl⟩ := hcalls i hi
      have hp' := hget.get_self
      left
      refine ⟨_, _, hp', rfl, hthreshold, hpause.documented _ _ hp', guardian, hguardian, ?_, ?_⟩
      · exact List.mem_concat_self
      · exact ⟨rfl, rfl⟩
  | keep a w' hget hcalls =>
      obtain ⟨contractId, newWasmHash, rfl⟩ := hcalls i hi
      right
      cases step_upgrade h with
      | keep a w' hcancelled hexecuted hget hnone =>
          exact absurd hi (hnone contractId newWasmHash)
      | propose auth guardian contractId newWasmHash hguardian w' hget hnext hsame =>
          simp [hsame] at hi
      | approve auth guardian id hguardian p hp hopen hnew w' hget hsame =>
          simp [hsame] at hi
      | cancel auth guardian id p hp hopen w' hget hsame =>
          simp [hsame] at hi
      | execute auth id p hp hopen q hquorum hunlocked w' hget hsame =>
          rw [hsame, List.drop_left, List.mem_singleton] at hi
          obtain ⟨hnodup, happroved, hrecorded⟩ := hupgrade.documented id p hp
          exact ⟨id, p, rfl, hp, hi, hnodup, happroved, q, hrecorded q hquorum⟩

end

/-! ### Approvals of guardians that have been removed -/

/-- Two guardians approve an upgrade and the first of them proposes a pause; then the
administrator removes that guardian. -/
def removal : List (Action Word) :=
  approvals ++ [.call [addressOf 1] (.proposePause (addressOf 1) (addressOf 9) 0 false),
    .call [addressOf 0] (.removeGuardian (addressOf 1))]

/-- The administrator raises the threshold after the quorum of an upgrade. -/
def raise : List (Action Word) :=
  approvals ++ [.call [addressOf 0] (.setThreshold 3)]

/-- Another guardian approves the pause. -/
def secondApproval : Action Word := .call [addressOf 2] (.approvePause (addressOf 2) 1)

/-- The pause has the approvals of two guardians then, and is made. -/
theorem removal_pauseQuorum :
  ∃ id p, PauseQuorum install initialized removal secondApproval ⟨addressOf 9, .pause 0⟩ id p
  := by
  have hinit : step install setup (.deployed 10 0) = some initialized :=
    eq_some_next (by decide +kernel)
  have happrove := eq_some_next
    (by decide +kernel : (step install secondApproval (run install initialized removal)).isSome
      = true)
  rcases calls_approved_by_guardians hinit happrove ⟨addressOf 9, .pause 0⟩ (by decide +kernel)
    with ⟨id, p, -, hquorum⟩ | ⟨id, p, hid, -⟩
  · exact ⟨id, p, hquorum⟩
  · cases hid

/-- The approval of the guardian that has been removed counts, for the pause and for the
upgrade, and the upgrade does not wait for a threshold that has been raised. -/
theorem not_currentQuorum :
  ∃ initial : World Word, step install setup (.deployed 10 0) = some initial
    ∧ (∃ w', step install secondApproval (run install initial removal) = some w'
      ∧ ¬ CurrentQuorum (run install initial removal) secondApproval w')
    ∧ (∃ w', step install (.call [] (.executeUpgrade 0)) (run install initial removal) = some w'
      ∧ ¬ CurrentQuorum (run install initial removal) (.call [] (.executeUpgrade 0)) w')
    ∧ ∃ w', step install (.call [] (.executeUpgrade 0)) (run install initial raise) = some w'
      ∧ ¬ CurrentQuorum (run install initial raise) (.call [] (.executeUpgrade 0)) w'
  := by
  refine ⟨initialized, eq_some_next (by decide +kernel),
    ⟨_, eq_some_next (by decide +kernel), by decide +kernel⟩,
    ⟨_, eq_some_next (by decide +kernel), by decide +kernel⟩,
    _, eq_some_next (by decide +kernel), by decide +kernel⟩

/-! ### Whether a quorum exists -/

section

variable {Outside : Type} {invoke : List Address → Invocation → Outside → Option Outside}
  {auth : List Address} {w₀ w w' : World Outside} {actions : List (Action Outside)}
  {a : Action Outside}

/-- The action changes the guardians or the threshold. -/
def Action.Manages : Action Outside → Prop
  | .call _ (.addGuardian _) => True
  | .call _ (.removeGuardian _) => True
  | .call _ (.setThreshold _) => True
  | _ => False

/-- The threshold is positive, and at most the number of different guardians. -/
def World.Attainable (w : World Outside) : Prop :=
  1 ≤ w.threshold.toNat ∧ w.threshold.toNat ≤ w.guardians.dedup.length

instance : Decidable w.Attainable := inferInstanceAs (Decidable (_ ∧ _))

/-- No guardian is listed twice, and the threshold is positive and at most their number. -/
structure Orderly (w : World Outside) : Prop where
  nodup : w.guardians.Nodup
  pos : 0 < w.threshold.toNat
  le_length : w.threshold.toNat ≤ w.guardians.length

theorem Orderly.attainable (h : Orderly w) :
  w.Attainable
  := by
  constructor
  · exact h.pos
  · rw [h.nodup.dedup]
    exact h.le_length

/-- An accepted change of the guardians or the threshold keeps the order. -/
theorem Orderly.step (hw : Orderly w) (ha : a.Manages) (h : step invoke a w = some w') :
  Orderly w'
  := by
  cases a with
  | advance sequence => cases ha
  | elsewhere outside => cases ha
  | call auth c =>
      cases Call.exec_outcome h with
      | keepGuardian => exact hw
      | addGuardian guardian hadmin hnew =>
          constructor
          · change (w.guardians ++ [guardian]).Nodup
            rw [← List.concat_eq_append]
            apply hw.nodup.concat hnew
          · exact hw.pos
          · change w.threshold.toNat ≤ (w.guardians ++ [guardian]).length
            rw [List.length_append]
            apply Nat.le_add_right_of_le hw.le_length
      | removeGuardian guardian hadmin hthreshold =>
          exact ⟨hw.nodup.filter _, hw.pos, hthreshold⟩
      | setThreshold threshold hadmin hthreshold =>
          exact ⟨hw.nodup, hthreshold.1, hthreshold.2⟩
      | initializeGuardian => cases ha
      | proposePause => cases ha
      | approvePause => cases ha
      | proposeUpgrade => cases ha
      | approveUpgrade => cases ha
      | cancelUpgrade => cases ha
      | executeUpgrade => cases ha

/-- Along every run that manages the guardians and the threshold, the order is kept. -/
theorem Orderly.run (hw : Orderly w) (hactions : ∀ a ∈ actions, a.Manages) :
  Orderly (run invoke w actions)
  := by
  apply invariant_run (C := fun _ a => a.Manages) _ actions w _ hw
  · intro w a w' hw ha h
    apply hw.step ha h
  · apply along_of_forall
    intro a ha _
    apply hactions a ha

/-- The administrator can set the threshold to the number of guardians on the list. -/
theorem exec_setThreshold_length {admin : Address} (hadmin : w.state.admin = some admin)
    (hpos : 0 < w.guardians.length) (hlen : w.guardians.length < 2 ^ 32) :
  ∃ w', GovernanceGuardian.step invoke
      (.call [admin] (.setThreshold (.ofNat w.guardians.length))) w = some w'
    ∧ w'.guardians = w.guardians ∧ w'.threshold.toNat = w.guardians.length
  := by
  have htoNat : (UInt32.ofNat w.guardians.length).toNat = w.guardians.length :=
    UInt32.toNat_ofNat_of_lt' hlen
  refine ⟨w.mapState fun s => { s with thresh := some (.ofNat w.guardians.length) }, ?_, rfl,
    htoNat⟩
  apply Txn.attempt_eq_some.mpr
  use ()
  simp only [setThreshold, requireAdmin_bind_ok, Txn.read_bind_ok, Txn.require_bind_ok,
    Txn.write_ok]
  refine ⟨⟨admin, hadmin, List.mem_singleton_self admin⟩, ?_, trivial⟩
  rw [htoNat]
  exact ⟨hpos, le_rfl⟩

/-- What an initialization leaves. -/
theorem initialized_fields {sequence : UInt32} {outside : Outside} {admin : Address}
    {guardians : List Address} {threshold delay : UInt32}
    (hinit : step invoke (.call auth (.initializeGuardian admin guardians threshold delay))
      (.deployed sequence outside) = some w₀) :
  w₀.state.admin = some admin ∧ w₀.guardians = guardians ∧ w₀.threshold = threshold
    ∧ 0 < threshold.toNat ∧ threshold.toNat ≤ guardians.length
  := by
  have hexec : (Call.initializeGuardian admin guardians threshold delay).exec invoke auth
      (.deployed sequence outside) = some w₀ := hinit
  cases Call.exec_outcome hexec with
  | initializeGuardian _ _ _ _ hnew hauth hthreshold => exact ⟨rfl, rfl, rfl, hthreshold⟩

/-- Whatever the administrator does after an accepted initialization, the threshold is positive
and at most the number of different guardians, exactly if the list of guardians the
initialization was given has no repetitions. A list of the host has fewer than `2 ^ 32`
elements. -/
theorem attainable_iff_nodup {sequence : UInt32} {outside : Outside} {admin : Address}
    {guardians : List Address} {threshold delay : UInt32} (hlen : guardians.length < 2 ^ 32)
    (hinit : step invoke (.call auth (.initializeGuardian admin guardians threshold delay))
      (.deployed sequence outside) = some w₀) :
  (∀ actions : List (Action Outside), (∀ a ∈ actions, a.Manages) →
      (run invoke w₀ actions).Attainable)
    ↔ guardians.Nodup
  := by
  obtain ⟨hadmin, hguardians, hthreshold, hpos, hle⟩ := initialized_fields hinit
  constructor
  · intro hall
    rw [← hguardians] at hlen hle ⊢
    obtain ⟨w', hstep, hkept, hfull⟩ :=
      @exec_setThreshold_length Outside invoke w₀ admin hadmin (hpos.trans_le hle) hlen
    have hattain := hall [.call [admin] (.setThreshold (.ofNat w₀.guardians.length))]
      (by simp [Action.Manages])
    rw [GovernanceGuardian.run, Machine.run, next_of_some hstep] at hattain
    have hlength : w₀.guardians.length ≤ w₀.guardians.dedup.length := by
      rw [← hfull, ← hkept]
      exact hattain.2
    rw [← List.dedup_eq_self]
    exact (List.dedup_sublist w₀.guardians).eq_of_length_le hlength
  · intro hnodup actions hactions
    apply Orderly.attainable
    apply Orderly.run _ hactions
    constructor
    · rwa [hguardians]
    · rwa [hthreshold]
    · rwa [hthreshold, hguardians]

end

/-- The initialization of the example is accepted, and its three guardians make a quorum. -/
theorem initialized_attainable :
  step install setup (.deployed 10 0) = some initialized
    ∧ ∀ actions : List (Action Word), (∀ a ∈ actions, a.Manages) →
      (run install initialized actions).Attainable
  := by
  have hinit : step install setup (.deployed 10 0) = some initialized :=
    eq_some_next (by decide +kernel)
  use hinit
  exact (attainable_iff_nodup (by decide) hinit).mpr (by decide +kernel)

/-- An initialization that lists one guardian twice is accepted with a threshold of two. -/
theorem repeated_not_attainable :
  ∃ w₀ : World Word, step install
      (.call [addressOf 0] (.initializeGuardian (addressOf 0) [addressOf 1, addressOf 1] 2 100))
      (.deployed 10 0) = some w₀
    ∧ ¬ (run install w₀ []).Attainable
  := ⟨_, eq_some_next (by decide +kernel), by decide +kernel⟩

end Shade.GovernanceGuardian
