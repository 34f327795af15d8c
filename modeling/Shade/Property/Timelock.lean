import Shade.Contract.GuardianRun

/-!
# Timelocked upgrades

Every upgrade the guardian makes was approved by a quorum of guardians, waited for the delay
after that, and was not cancelled. The proposal only stores its approvals, the ledger of its
quorum and two flags; that these tell the truth about the calls made before is an invariant
of the actions of a run together with the world they lead to.
-/

namespace Shade.GovernanceGuardian

open Machine

section

variable {Outside : Type} (invoke : List Address → Invocation → Outside → Option Outside)

/-! ### What has happened in a run -/

/-- The action approves an upgrade proposal in the name of an address: it makes the proposal,
whose id is the next one, or it adds an approval to it. -/
def Approves (id : UInt32) (guardian : Address) (w : World Outside) : Action Outside → Prop
  | .call _ (.proposeUpgrade g _ _) => g = guardian ∧ w.nextProposalId = id
  | .call _ (.approveUpgrade g i) => g = guardian ∧ i = id
  | _ => False

variable (w₀ : World Outside) (actions : List (Action Outside)) (id : UInt32)

/-- An address has approved an upgrade proposal, and was a guardian when it did. -/
def Approved (guardian : Address) : Prop :=
  Occurs (step invoke) w₀
    (fun _ w a _ => guardian ∈ w.guardians ∧ Approves id guardian w a) actions

/-- The quorum of an upgrade of a contract to a code was recorded at the ledger `q`: a step at
that ledger recorded it, when the proposal had at least as many approvals as the threshold
said, of pairwise different addresses that had all approved it as guardians. -/
def QuorumRecorded (q : UInt32) (contractId : Address) (newWasmHash : Word) : Prop :=
  Occurs (step invoke) w₀
    (fun before w a w' => w.sequence = q
      ∧ (∀ p, w.getUpgradeProposal id = some p → p.quorumAtLedger = none)
      ∧ ∃ p, w'.getUpgradeProposal id = some p ∧ p.quorumAtLedger = some q
        ∧ p.contractId = contractId ∧ p.newWasmHash = newWasmHash
        ∧ p.approvals.Nodup ∧ w.threshold.toNat ≤ p.approvals.length
        ∧ ∀ g ∈ p.approvals, Approved invoke w₀ (before ++ [a]) id g) actions

/-- An upgrade proposal has been cancelled. -/
def Cancelled : Prop :=
  Occurs (step invoke) w₀ (fun _ _ a _ => a.cancelled = some id) actions

/-- An upgrade proposal has been executed. -/
def Executed : Prop :=
  Occurs (step invoke) w₀ (fun _ _ a _ => a.executed = some id) actions

end

section

variable {Outside : Type} {invoke : List Address → Invocation → Outside → Option Outside}
  {auth : List Address} {w₀ w w' : World Outside} {actions : List (Action Outside)}
  {a : Action Outside} {id : UInt32}

/-! ### What the upgrade proposals say about the past -/

/-- What an upgrade proposal says about the past is true. -/
structure Documented (invoke : List Address → Invocation → Outside → Option Outside)
    (w₀ : World Outside) (actions : List (Action Outside)) (id : UInt32) (p : UpgradeProposal) :
    Prop where
  nodup : p.approvals.Nodup
  approved : ∀ g ∈ p.approvals, Approved invoke w₀ actions id g
  quorum : ∀ q, p.quorumAtLedger = some q →
    QuorumRecorded invoke w₀ actions id q p.contractId p.newWasmHash

/-- What is documented stays so. -/
theorem Documented.mono {p : UpgradeProposal} (h : Documented invoke w₀ actions id p)
    (a : Action Outside) :
  Documented invoke w₀ (actions ++ [a]) id p
  := by
  have hpre : actions <+: actions ++ [a] := List.prefix_append actions [a]
  constructor
  · exact h.nodup
  · intro g hg
    apply (h.approved g hg).mono hpre
  · intro q hq
    apply (h.quorum q hq).mono hpre

/-- A proposal whose approvals are documented, and whose quorum is if it is recorded, is
documented after its quorum is checked. -/
theorem Documented.checked {p : UpgradeProposal}
    (h : step invoke a (run invoke w₀ actions) = some w')
    (hp : Documented invoke w₀ (actions ++ [a]) id p)
    (hold : ∀ p₀, (run invoke w₀ actions).getUpgradeProposal id = some p₀ →
      p₀.quorumAtLedger = p.quorumAtLedger)
    (hget : w'.getUpgradeProposal id = some (p.checked (run invoke w₀ actions))) :
  Documented invoke w₀ (actions ++ [a]) id (p.checked (run invoke w₀ actions))
  := by
  rw [UpgradeProposal.checked] at hget ⊢
  split
  · next hquorum =>
      rw [if_pos hquorum] at hget
      constructor
      · exact hp.nodup
      · exact hp.approved
      · intro q hq
        apply (occurs_concat h).mpr
        right
        refine ⟨Option.some.inj hq, ?_, _, hget, hq, rfl, rfl, hp.nodup, hquorum.2, hp.approved⟩
        intro p₀ hp₀
        rw [hold p₀ hp₀, hquorum.1]
  · exact hp

/-- The guardian is initialized with the given delay, every id that is in use has been given
out, the proposals tell the truth about the past, and those that were cancelled or executed
are marked so. -/
structure Consistent (invoke : List Address → Invocation → Outside → Option Outside)
    (w₀ : World Outside) (delay : UInt32) (actions : List (Action Outside))
    (w : World Outside) : Prop where
  admin : w.state.admin ≠ none
  delay : w.state.updelay = some delay
  lt_next : ∀ id p, w.getUpgradeProposal id = some p → id.toNat < w.nextProposalId.toNat
  documented : ∀ id p, w.getUpgradeProposal id = some p → Documented invoke w₀ actions id p
  cancelled : ∀ id, Cancelled invoke w₀ actions id →
    ∃ p, w.getUpgradeProposal id = some p ∧ p.cancelled = true
  executed : ∀ id, Executed invoke w₀ actions id →
    ∃ p, w.getUpgradeProposal id = some p ∧ p.executed = true

/-- A step that fails leaves everything consistent. -/
theorem Consistent.step_none {delay : UInt32}
    (hI : Consistent invoke w₀ delay actions (run invoke w₀ actions))
    (h : step invoke a (run invoke w₀ actions) = none) :
  Consistent invoke w₀ delay (actions ++ [a]) (run invoke w₀ actions)
  := by
  constructor
  · exact hI.admin
  · exact hI.delay
  · exact hI.lt_next
  · intro id p hp
    apply (hI.documented id p hp).mono
  · intro id hid
    apply hI.cancelled id ((occurs_concat_of_none h).mp hid)
  · intro id hid
    apply hI.executed id ((occurs_concat_of_none h).mp hid)

/-- The approval an action has just given is on record. -/
theorem approved_concat {guardian : Address}
    (h : step invoke a (run invoke w₀ actions) = some w')
    (hguardian : guardian ∈ (run invoke w₀ actions).guardians)
    (ha : Approves id guardian (run invoke w₀ actions) a) :
  Approved invoke w₀ (actions ++ [a]) id guardian
  := (occurs_concat h).mpr (.inr ⟨hguardian, ha⟩)

/-- A proposal that is made is documented. -/
theorem documented_proposed {guardian contractId : Address} {newWasmHash : Word}
    (h : Approved invoke w₀ actions id guardian) :
  Documented invoke w₀ actions id (.proposed guardian contractId newWasmHash)
  := by
  constructor
  · apply List.nodup_singleton guardian
  · intro g hg
    rwa [List.mem_singleton.mp hg]
  · intro q hq
    cases hq

/-- A documented proposal is so with one more approval that is on record. -/
theorem Documented.approve {guardian : Address} {p : UpgradeProposal}
    (hp : Documented invoke w₀ actions id p) (hnew : guardian ∉ p.approvals)
    (h : Approved invoke w₀ actions id guardian) :
  Documented invoke w₀ actions id { p with approvals := p.approvals ++ [guardian] }
  := by
  constructor
  · change (p.approvals ++ [guardian]).Nodup
    rw [← List.concat_eq_append]
    apply hp.nodup.concat hnew
  · intro g hg
    rcases List.mem_append.mp hg with hg | hg
    · apply hp.approved g hg
    · rwa [List.mem_singleton.mp hg]
  · exact hp.quorum

/-- If the proposal a step writes is documented, all of them are. -/
theorem Consistent.documented_rewrites {delay : UInt32} {id' : UInt32} {p p' : UpgradeProposal}
    (hI : Consistent invoke w₀ delay actions w) (hget : Rewrites w id p w')
    (hp : Documented invoke w₀ (actions ++ [a]) id p)
    (hp' : w'.getUpgradeProposal id' = some p') :
  Documented invoke w₀ (actions ++ [a]) id' p'
  := by
  rcases hget.eq_or hp' with ⟨rfl, rfl⟩ | hp'
  · exact hp
  · apply (hI.documented id' p' hp').mono

/-- What the proposals say about the past is true after a step if it was before. -/
theorem Consistent.step_documented {delay : UInt32}
    (hI : Consistent invoke w₀ delay actions (run invoke w₀ actions))
    (h : step invoke a (run invoke w₀ actions) = some w') {p : UpgradeProposal}
    (hp : w'.getUpgradeProposal id = some p) :
  Documented invoke w₀ (actions ++ [a]) id p
  := by
  cases step_upgrade h with
  | keep a w' hcancelled hexecuted hget hcalls =>
      rw [World.getUpgradeProposal, hget] at hp
      apply (hI.documented id p hp).mono
  | propose auth guardian contractId newWasmHash hguardian w' hget hnext hcalls =>
      apply hI.documented_rewrites hget _ hp
      apply Documented.checked h _ _ hget.get_self
      · apply documented_proposed
        apply approved_concat h hguardian ⟨rfl, rfl⟩
      · intro p₀ hp₀
        exact absurd (hI.lt_next _ p₀ hp₀) (lt_irrefl _)
  | approve auth guardian id' hguardian p₀ hp₀ hopen hnew w' hget hcalls =>
      apply hI.documented_rewrites hget _ hp
      apply Documented.checked h _ _ hget.get_self
      · apply ((hI.documented id' p₀ hp₀).mono _).approve hnew
        apply approved_concat h hguardian ⟨rfl, rfl⟩
      · intro p₁ hp₁
        obtain rfl := Option.some.inj (hp₁.symm.trans hp₀)
        rfl
  | cancel auth guardian id' p₀ hp₀ hopen w' hget hcalls =>
      apply hI.documented_rewrites hget _ hp
      obtain ⟨hnodup, happroved, hquorum⟩ := (hI.documented id' p₀ hp₀).mono
        (.call auth (.cancelUpgrade guardian id'))
      exact ⟨hnodup, happroved, hquorum⟩
  | execute auth id' p₀ hp₀ hopen q hquorum hunlocked w' hget hcalls =>
      apply hI.documented_rewrites hget _ hp
      obtain ⟨hnodup, happroved, hquorum⟩ := (hI.documented id' p₀ hp₀).mono
        (.call auth (.executeUpgrade id'))
      exact ⟨hnodup, happroved, hquorum⟩

/-- A successful step leaves everything consistent. -/
theorem Consistent.step_some {delay : UInt32}
    (hI : Consistent invoke w₀ delay actions (run invoke w₀ actions))
    (h : step invoke a (run invoke w₀ actions) = some w') :
  Consistent invoke w₀ delay (actions ++ [a]) w'
  := by
  obtain ⟨hadmin, hdelay, hnext⟩ := step_frame hI.admin h
  have hupgrade := step_upgrade h
  constructor
  · exact hadmin
  · rw [hdelay, hI.delay]
  · intro id p hp
    apply hupgrade.lt_next hnext hI.lt_next hp
  · intro id p hp
    apply hI.step_documented h hp
  · intro id hid
    rcases (occurs_concat h).mp hid with hid | hid
    · obtain ⟨p, hp, hcancelled⟩ := hI.cancelled id hid
      obtain ⟨p', hp', hflags⟩ := hupgrade.flagged hp (hI.lt_next id p hp)
      exact ⟨p', hp', hflags.1 hcancelled⟩
    · apply hupgrade.cancelled hid
  · intro id hid
    rcases (occurs_concat h).mp hid with hid | hid
    · obtain ⟨p, hp, hexecuted⟩ := hI.executed id hid
      obtain ⟨p', hp', hflags⟩ := hupgrade.flagged hp (hI.lt_next id p hp)
      exact ⟨p', hp', hflags.2 hexecuted⟩
    · apply hupgrade.executed hid

/-- Along every run from a consistent world everything is consistent. -/
theorem consistent_run {delay : UInt32} (hinit : Consistent invoke w₀ delay [] w₀)
    (actions : List (Action Outside)) :
  Consistent invoke w₀ delay actions (run invoke w₀ actions)
  := by
  apply Machine.history_run hinit
  · intro actions a w' hI h
    apply hI.step_some h
  · intro actions a hI h
    apply hI.step_none h

/-- The world an initialization leaves is consistent. -/
theorem consistent_initialized {sequence : UInt32} {outside : Outside} {admin : Address}
    {guardians : List Address} {threshold delay : UInt32}
    (h : step invoke (.call auth (.initializeGuardian admin guardians threshold delay))
      (.deployed sequence outside) = some w₀) :
  Consistent invoke w₀ delay [] w₀
  := by
  have hexec : (Call.initializeGuardian admin guardians threshold delay).exec invoke auth
      (.deployed sequence outside) = some w₀ := h
  cases Call.exec_outcome hexec with
  | initializeGuardian _ _ _ _ hnew hauth hthreshold =>
      constructor
      · apply Option.some_ne_none admin
      · rfl
      · intro id p hp
        cases hp
      · intro id p hp
        cases hp
      · intro id hid
        exact absurd hid not_occurs_nil
      · intro id hid
        exact absurd hid not_occurs_nil

/-! ### Upgrades -/

/-- An upgrade of a contract to a code, at a ledger, is one that the guardian may make for a
proposal after a run: the quorum of the proposal was recorded, the delay after it has elapsed,
and the proposal has been neither cancelled nor executed. -/
structure Timelocked (invoke : List Address → Invocation → Outside → Option Outside)
    (w₀ : World Outside) (actions : List (Action Outside)) (delay now id : UInt32)
    (contractId : Address) (newWasmHash : Word) : Prop where
  quorum : ∃ q : UInt32, QuorumRecorded invoke w₀ actions id q contractId newWasmHash
    ∧ q.toNat + delay.toNat ≤ now.toNat
  not_cancelled : ¬ Cancelled invoke w₀ actions id
  not_executed : ¬ Executed invoke w₀ actions id

/-- A proposal that is not marked as cancelled has not been cancelled, and one that is not
marked as executed has not been executed. -/
theorem Consistent.not_occurs {delay : UInt32} {p : UpgradeProposal}
    (hI : Consistent invoke w₀ delay actions w) (hp : w.getUpgradeProposal id = some p)
    (hopen : p.executed = false ∧ p.cancelled = false) :
  ¬ Cancelled invoke w₀ actions id ∧ ¬ Executed invoke w₀ actions id
  := by
  constructor
  · intro hid
    obtain ⟨p', hp', hcancelled⟩ := hI.cancelled id hid
    obtain rfl := Option.some.inj (hp.symm.trans hp')
    rw [hopen.2] at hcancelled
    cases hcancelled
  · intro hid
    obtain ⟨p', hp', hexecuted⟩ := hI.executed id hid
    obtain rfl := Option.some.inj (hp.symm.trans hp')
    rw [hopen.1] at hexecuted
    cases hexecuted

/-- An upgrade that a step makes is that of a proposal it executes, after the quorum and the
delay and without a cancellation. -/
theorem Consistent.timelocked {delay : UInt32} {contractId : Address} {newWasmHash : Word}
    (hI : Consistent invoke w₀ delay actions (run invoke w₀ actions))
    (h : step invoke a (run invoke w₀ actions) = some w')
    (hmem : ⟨contractId, .upgrade newWasmHash⟩
      ∈ w'.invocations.drop (run invoke w₀ actions).invocations.length) :
  ∃ id, a.executed = some id ∧ Timelocked invoke w₀ actions delay
    (run invoke w₀ actions).sequence id contractId newWasmHash
  := by
  cases step_upgrade h with
  | keep a w' hcancelled hexecuted hget hcalls =>
      exact absurd hmem (hcalls contractId newWasmHash)
  | propose auth guardian contractId newWasmHash hguardian w' hget hnext hcalls =>
      simp [hcalls] at hmem
  | approve auth guardian id hguardian p hp hopen hnew w' hget hcalls =>
      simp [hcalls] at hmem
  | cancel auth guardian id p hp hopen w' hget hcalls =>
      simp [hcalls] at hmem
  | execute auth id p hp hopen q hquorum hunlocked w' hget hcalls =>
      obtain ⟨hnotCancelled, hnotExecuted⟩ := hI.not_occurs hp hopen
      rw [hcalls, List.drop_left, List.mem_singleton] at hmem
      cases hmem
      refine ⟨id, rfl, ⟨q, (hI.documented id p hp).quorum q hquorum, ?_⟩, hnotCancelled,
        hnotExecuted⟩
      rw [World.upgradeDelay, hI.delay] at hunlocked
      exact hunlocked

/-- In every run of an initialized guardian, every upgrade it makes is that of a proposal it
executes, after the quorum and the delay and without a cancellation; and no proposal is
executed twice. -/
theorem upgrades_timelocked {sequence : UInt32} {outside : Outside} {admin : Address}
    {guardians : List Address} {threshold delay : UInt32}
    (hinit : step invoke (.call auth (.initializeGuardian admin guardians threshold delay))
      (.deployed sequence outside) = some w₀)
    (h : step invoke a (run invoke w₀ actions) = some w') :
  (∀ contractId newWasmHash, ⟨contractId, .upgrade newWasmHash⟩
      ∈ w'.invocations.drop (run invoke w₀ actions).invocations.length →
      ∃ id, a.executed = some id ∧ Timelocked invoke w₀ actions delay
        (run invoke w₀ actions).sequence id contractId newWasmHash)
    ∧ ∀ id, a.executed = some id → ¬ Executed invoke w₀ actions id
  := by
  have hI := consistent_run (consistent_initialized hinit) actions
  constructor
  · intro contractId newWasmHash hmem
    apply hI.timelocked h hmem
  · intro id hid
    cases step_upgrade h with
    | keep a w' hcancelled hexecuted hget hcalls =>
        rw [hexecuted] at hid
        cases hid
    | propose => cases hid
    | approve => cases hid
    | cancel => cases hid
    | execute auth id' p hp hopen q hquorum hunlocked w' hget hcalls =>
        obtain rfl := Option.some.inj hid
        exact (hI.not_occurs hp hopen).2

end

/-! ### An upgrade by two of three guardians -/

/-- The address whose strkey repeats a byte. -/
def addressOf (n : UInt8) : Address := ⟨List.replicate 56 n, List.length_replicate⟩

/-- A contract that keeps the code it is upgraded to. -/
def install (_ : List Address) (i : Invocation) (code : Word) : Option Word :=
  match i.method with
  | .upgrade newWasmHash => some newWasmHash
  | _ => some code

/-- The call that sets up three guardians, two of which make a quorum, and a delay of 100
ledgers. -/
def setup : Action Word :=
  .call [addressOf 0]
    (.initializeGuardian (addressOf 0) [addressOf 1, addressOf 2, addressOf 3] 2 100)

/-- The guardian after it is set up at ledger 10. -/
def initialized : World Word := next (step install) (.deployed 10 0) setup

/-- An upgrade is proposed and approved, and 100 ledgers pass. -/
def approvals : List (Action Word) :=
  [.call [addressOf 1] (.proposeUpgrade (addressOf 1) (addressOf 9) 7),
    .call [addressOf 2] (.approveUpgrade (addressOf 2) 0),
    .advance 110]

/-- The upgrade can be executed then. -/
theorem approvals_timelocked :
  Timelocked install initialized approvals 100 110 0 (addressOf 9) 7
  := by
  have hinit : step install setup (.deployed 10 0) = some initialized :=
    eq_some_next (by decide +kernel)
  have hexec := eq_some_next
    (by decide +kernel : (step install (.call [] (.executeUpgrade 0))
      (run install initialized approvals)).isSome = true)
  obtain ⟨id, hid, hlocked⟩ := (upgrades_timelocked hinit hexec).1 (addressOf 9) 7
    (by decide +kernel)
  obtain rfl := Option.some.inj hid
  exact hlocked

end Shade.GovernanceGuardian
