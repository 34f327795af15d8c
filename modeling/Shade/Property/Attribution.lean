import Shade.Cctp.Inbound

/-!
# The amounts of inbound deposits

A flow registers the difference of two balances, which is what its own message has minted and what
others have added in between. `deposit_minted_iff` says that the amount is the one that was minted
exactly if what others have added sums up to zero.
-/

namespace Shade.Cctp

variable {flows : ℕ → Flow} {locallyVerified : ℕ → ℤ → Bool} {w w' : Relay} {k : ℕ}

/-- What a flow has read is accounted for by what it has minted and what others have added. -/
def Accounted (flows : ℕ → Flow) (w : Relay) (k : ℕ) : Prop :=
  match w.phases k with
  | .mint before => w.balances (flows k).vault = before + w.others k
  | .readAfter before _ => w.balances (flows k).vault = before + (flows k).minted + w.others k
  | .prove amount7 => amount7 = (flows k).minted + w.others k
  | .register amount7 => amount7 = (flows k).minted + w.others k
  | _ => True

/-- All flows are accounted for, and so are the deposits that have been registered. -/
structure Attributed (flows : ℕ → Flow) (w : Relay) : Prop where
  flow : ∀ k, Accounted flows w k
  deposit : ∀ d ∈ w.deposits, w.phases d.1 = .registered
    ∧ d.2 = (flows d.1).minted + w.others d.1

theorem Relay.Initial.attributed (h : w.Initial) :
  Attributed flows w
  where
  flow k := by
    rw [Accounted, h.attested k]
    trivial
  deposit d hd := by
    rw [h.deposits] at hd
    cases hd

/-! ### Steps -/

/-- Only the phase of one flow changes, and that flow is accounted for. -/
theorem Attributed.step_of (h : Attributed flows w) (hk : Accounted flows w' k)
    (hphases : ∀ j ≠ k, w'.phases j = w.phases j) (hothers : ∀ j ≠ k, w'.others j = w.others j)
    (hbalances : w'.balances = w.balances)
    (hdeposits : ∀ d ∈ w'.deposits, d ∈ w.deposits ∧ d.1 ≠ k
      ∨ w'.phases d.1 = .registered ∧ d.2 = (flows d.1).minted + w'.others d.1) :
  Attributed flows w'
  where
  flow j := by
    by_cases hj : j = k
    · rw [hj]
      exact hk
    · have hflow := h.flow j
      rw [Accounted] at hflow ⊢
      rw [hphases j hj, hothers j hj, hbalances]
      exact hflow
  deposit d hd := by
    rcases hdeposits d hd with ⟨hold, hne⟩ | hnew
    · rw [hphases d.1 hne, hothers d.1 hne]
      apply h.deposit d hold
    · exact hnew

/-- A flow that is not registered yet has registered no deposit. -/
theorem Attributed.ne_of_mem (h : Attributed flows w) (hk : w.phases k ≠ .registered)
    {d : ℕ × ℤ} (hd : d ∈ w.deposits) :
  d.1 ≠ k
  := by
  rintro rfl
  apply hk (h.deposit d hd).1

/-- A flow moves to a phase in which it is accounted for. -/
theorem Attributed.move (h : Attributed flows w) (hk : w.phases k ≠ .registered) {p : FlowPhase}
    (hp : Accounted flows (w.move k p) k) :
  Attributed flows (w.move k p)
  := by
  apply h.step_of hp
  · intro j hj
    apply Function.update_of_ne hj
  · intro j _
    rfl
  · rfl
  · intro d hd
    apply Or.inl ⟨hd, h.ne_of_mem hk hd⟩

/-- A flow that is moved is in its new phase. -/
theorem phases_move (p : FlowPhase) :
  (w.move k p).phases k = p
  := Function.update_self ..

/-- A balance changes. All flows but the one that changes it remain accounted for. -/
theorem Accounted.change (h : Accounted flows w k) {source : Option ℕ} (hsource : some k ≠ source)
    {contract : Text} {amount : ℤ} :
  Accounted flows (w.change flows source contract amount) k
  := by
  rw [Accounted] at h ⊢
  by_cases hvault : (flows k).vault = contract
  · subst hvault
    simp only [Relay.change, Function.update_self]
    cases hphase : w.phases k <;>
      simp only [hphase, FlowPhase.Between, hsource, ne_eq, not_false_eq_true, and_true, and_false,
        if_true, if_false] at h ⊢
    · rw [h]
      ring
    · rw [h]
      ring
    · exact h
    · exact h
  · simp only [Relay.change, Function.update_of_ne hvault, hvault, false_and, and_false, if_false]
    exact h

/-- What others have added to a deposit that is registered is known. -/
theorem others_change (hk : ¬ (w.phases k).Between) {source : Option ℕ} {contract : Text}
    {amount : ℤ} :
  (w.change flows source contract amount).others k = w.others k
  := by
  simp only [Relay.change, hk, and_false, if_false]

/-- Somebody else changes a balance. -/
theorem Attributed.change (h : Attributed flows w) {contract : Text} {amount : ℤ} :
  Attributed flows (w.change flows none contract amount)
  where
  flow j := (h.flow j).change (Option.some_ne_none j)
  deposit d hd := by
    obtain ⟨hphase, hamount⟩ := h.deposit d hd
    use hphase
    rw [others_change]
    · exact hamount
    · rw [hphase]
      exact id

/-- A flow mints. -/
theorem Attributed.mint (h : Attributed flows w) {before : ℤ} (hk : w.phases k = .mint before)
    (used : List ℕ) :
  Attributed flows { (w.change flows (some k) (flows k).vault (flows k).minted).move k
    (.readAfter before 0) with used := used }
  where
  flow j := by
    by_cases hj : j = k
    · subst hj
      have hbefore := h.flow j
      rw [Accounted, hk] at hbefore
      simp only [Accounted, Relay.move, Relay.change, Function.update_self, hbefore, ne_eq,
        not_true_eq_false, false_and, if_false]
      ring
    · have hchange : Accounted flows
          (w.change flows (some k) (flows k).vault (flows k).minted) j :=
        (h.flow j).change fun heq => hj (Option.some_inj.mp heq)
      simp only [Accounted, Relay.move, Function.update_of_ne hj] at hchange ⊢
      exact hchange
  deposit d hd := by
    obtain ⟨hphase, hamount⟩ := h.deposit d hd
    have hne : d.1 ≠ k := by
      apply h.ne_of_mem _ hd
      rw [hk]
      exact FlowPhase.noConfusion
    have hothers : (w.change flows (some k) (flows k).vault (flows k).minted).others d.1
        = w.others d.1 := by
      apply others_change
      rw [hphase]
      exact id
    constructor
    · simp only [Relay.move, Relay.change, Function.update_of_ne hne]
      exact hphase
    · rw [hamount, ← hothers]
      rfl

/-- A flow reads the balance for the first time. -/
theorem Attributed.readBefore (h : Attributed flows w) (hk : w.phases k = .attested) :
  Attributed flows { w.move k (.mint (w.balances (flows k).vault)) with
    others := Function.update w.others k 0 }
  := by
  apply h.step_of (k := k)
  · simp only [Accounted, Relay.move, Function.update_self, add_zero]
  · intro j hj
    apply Function.update_of_ne hj
  · intro j hj
    apply Function.update_of_ne hj
  · rfl
  · intro d hd
    left
    use hd
    apply h.ne_of_mem _ hd
    rw [hk]
    exact FlowPhase.noConfusion

/-- A flow reads the balance after minting once more. -/
theorem Attributed.reread (h : Attributed flows w) {before : ℤ} {reads : ℕ}
    (hk : w.phases k = .readAfter before reads) (reads' : ℕ) :
  Attributed flows (w.move k (.readAfter before reads'))
  := by
  have hflow := h.flow k
  rw [Accounted, hk] at hflow
  apply h.move
  · rw [hk]
    exact FlowPhase.noConfusion
  · rw [Accounted, phases_move]
    exact hflow

/-- A flow takes the difference of the two balances. -/
theorem Attributed.readAfter (h : Attributed flows w) {before : ℤ} {reads : ℕ}
    (hk : w.phases k = .readAfter before reads) :
  Attributed flows (w.move k (.prove (w.balances (flows k).vault - before)))
  := by
  have hflow := h.flow k
  rw [Accounted, hk] at hflow
  apply h.move
  · rw [hk]
    exact FlowPhase.noConfusion
  · rw [Accounted, phases_move]
    change w.balances (flows k).vault - before = (flows k).minted + w.others k
    rw [hflow]
    ring

/-- A flow goes on with a difference that is proved. -/
theorem Attributed.prove (h : Attributed flows w) {amount7 : ℤ}
    (hk : w.phases k = .prove amount7) :
  Attributed flows (w.move k (.register amount7))
  := by
  have hflow := h.flow k
  rw [Accounted, hk] at hflow
  apply h.move
  · rw [hk]
    exact FlowPhase.noConfusion
  · rw [Accounted, phases_move]
    exact hflow

/-- A flow registers a deposit. -/
theorem Attributed.register (h : Attributed flows w) {amount7 : ℤ}
    (hk : w.phases k = .register amount7) :
  Attributed flows { w.move k .registered with deposits := w.deposits ++ [(k, amount7)] }
  := by
  have hamount := h.flow k
  rw [Accounted, hk] at hamount
  apply h.step_of (k := k)
  · simp only [Accounted, Relay.move, Function.update_self]
  · intro j hj
    apply Function.update_of_ne hj
  · intro j _
    rfl
  · rfl
  · intro d hd
    rw [List.mem_append, List.mem_singleton] at hd
    rcases hd with hd | rfl
    · left
      use hd
      apply h.ne_of_mem _ hd
      rw [hk]
      exact FlowPhase.noConfusion
    · right
      exact ⟨Function.update_self .., hamount⟩

/-- A flow fails. -/
theorem Attributed.fail (h : Attributed flows w) (hk : w.phases k ≠ .registered) :
  Attributed flows (w.move k .failed)
  := by
  apply h.move hk
  simp only [Accounted, phases_move]

/-- One step. -/
theorem Attributed.step (h : Attributed flows w) {action : RelayAction}
    (hstep : relayStep flows locallyVerified action w = some w') :
  Attributed flows w'
  := by
  cases action with
  | readBefore k =>
      simp only [relayStep] at hstep
      split at hstep
      · case h_1 hk =>
          cases hstep
          apply h.readBefore hk
      · cases hstep
  | mintAndForward k =>
      simp only [relayStep] at hstep
      split at hstep
      · case h_1 before hk =>
          split at hstep
          · cases hstep
            apply h.fail
            rw [hk]
            exact FlowPhase.noConfusion
          · cases hstep
            apply h.mint hk _
      · cases hstep
  | readAfter k =>
      simp only [relayStep] at hstep
      split at hstep
      · case h_1 before reads hk =>
          split at hstep
          · cases hstep
            apply h.reread hk
          · split at hstep
            · cases hstep
              apply h.readAfter hk
            · cases hstep
              apply h.fail
              rw [hk]
              exact FlowPhase.noConfusion
      · cases hstep
  | prove k =>
      simp only [relayStep] at hstep
      split at hstep
      · case h_1 amount7 hk =>
          split at hstep
          · cases hstep
            apply h.prove hk
          · cases hstep
            apply h.fail
            rw [hk]
            exact FlowPhase.noConfusion
      · cases hstep
  | receiveCctpDeposit k =>
      simp only [relayStep] at hstep
      split at hstep
      · case h_1 amount7 hk =>
          cases hstep
          apply h.register hk
      · cases hstep
  | raise k =>
      simp only [relayStep] at hstep
      split at hstep
      · cases hstep
      · case h_2 hne =>
          cases hstep
          apply h.fail hne
  | payout contract amount =>
      simp only [relayStep] at hstep
      split at hstep
      · cases hstep
        exact h.change
      · cases hstep
  | transferIn contract amount =>
      simp only [relayStep] at hstep
      cases hstep
      exact h.change

/-! ### Runs -/

/-- The amount of a deposit that a flow has registered is what its message has minted, exactly if
what others have added to the balance while the flow was reading it sums up to zero. -/
theorem deposit_minted_iff (flows : ℕ → Flow) (locallyVerified : ℕ → ℤ → Bool) {w : Relay}
    (hw : w.Initial) (actions : List RelayAction) {k : ℕ} {amount7 : ℤ}
    (hdeposit : (k, amount7) ∈ (relayRun flows locallyVerified w actions).deposits) :
  amount7 = (flows k).minted ↔ (relayRun flows locallyVerified w actions).others k = 0
  := by
  have hattributed : Attributed flows (relayRun flows locallyVerified w actions) :=
    Machine.invariant_run_of_step (fun _ _ _ hs hstep => hs.step hstep) actions hw.attributed
  have hamount : amount7
      = (flows k).minted + (relayRun flows locallyVerified w actions).others k :=
    (hattributed.deposit _ hdeposit).2
  rw [hamount]
  constructor
  · intro h
    omega
  · intro h
    rw [h, add_zero]

/-! ### Two burns at the same time -/

/-- Two users have burnt, and each flow has minted what its user has burnt. -/
def twoBurns : ℕ → Flow
  | 0 => ⟨.postUserBurn, "pool".toList, true, 100, 0, 999, some 999⟩
  | _ => ⟨.postUserBurn, "pool".toList, true, 500, 1, 4999, some 4999⟩

/-- A proof of a deposit verifies if the value of the note is at most the amount. -/
def valueVerified (value : ℕ) (amount7 : ℤ) : Bool := decide ((value : ℤ) ≤ amount7)

/-- Nothing has happened yet. -/
def noFlows : Relay where
  balances _ := 0
  used := []
  phases _ := .attested
  deposits := []
  others _ := 0

theorem noFlows_initial :
  noFlows.Initial
  where
  attested _ := rfl
  deposits := rfl

/-- The calls of a flow, with nothing in between. -/
def flowCalls (k : ℕ) : List RelayAction :=
  [.readBefore k, .mintAndForward k, .readAfter k, .prove k, .receiveCctpDeposit k]

/-- One flow after the other: each registers what it has minted. -/
theorem sequential_minted :
  (999 : ℤ) = (twoBurns 0).minted
  := by
  apply (deposit_minted_iff twoBurns valueVerified noFlows_initial
    (flowCalls 0 ++ flowCalls 1) (by decide)).mpr
  decide

/-- The second flow mints while the first one is reading the balance: the first one registers what
both have minted. -/
theorem concurrent_not_minted :
  let actions := [.readBefore 0, .readBefore 1, .mintAndForward 0, .mintAndForward 1,
    .readAfter 0, .prove 0, .receiveCctpDeposit 0]
  (0, 5998) ∈ (relayRun twoBurns valueVerified noFlows actions).deposits
    ∧ (5998 : ℤ) ≠ (twoBurns 0).minted
  := by
  decide

end Shade.Cctp
