import Shade.Api.Envelope

/-!
# Diagnostic wrappers and the recovery policy

A wrapper counts for a recovery when it is active, is not made with an EVM signature, and is not
marked as diagnostic. The number of wrappers is taken over those that count. The question whether
one of them is made with a passkey or a Stellar key is put to all the active wrappers, and a
diagnostic one may answer it.
-/

namespace Shade.Api

/-- The wrapper is active, is not made with an EVM signature, and is not diagnostic. -/
def VaultWrapper.Counts (w : VaultWrapper) : Prop :=
  w.status = .active ∧ w.type ≠ .evmSignature ∧ w.diagnosticOnly ≠ some true

instance (w : VaultWrapper) : Decidable w.Counts :=
  inferInstanceAs (Decidable (_ ∧ _ ∧ _))

/-- The wrapper is made with a passkey or with a Stellar key. -/
def VaultWrapper.Strong (w : VaultWrapper) : Prop :=
  w.type = .passkeyPrf ∨ w.type = .stellarEd25519Signature

instance (w : VaultWrapper) : Decidable w.Strong :=
  inferInstanceAs (Decidable (_ ∨ _))

/-- The wrappers that count. -/
def counted (wrappers : List VaultWrapper) : List VaultWrapper :=
  wrappers.filter fun w => w.Counts

/-- A diagnostic wrapper is active and made with a passkey or with a Stellar key. -/
def DiagnosticStrong (wrappers : List VaultWrapper) : Prop :=
  ∃ w ∈ wrappers, w.status = .active ∧ w.diagnosticOnly = some true ∧ w.Strong

/-- The place of a status among the statuses, the weakest first. -/
def RecoveryPolicyStatus.rank : RecoveryPolicyStatus → ℕ
  | .insufficient => 0
  | .sufficient => 1
  | .strong => 2

/-- The status for a number of wrappers, with the answer to the question whether one is strong. -/
def statusOf (opts : RecoverySettings) (n : ℕ) (strong : Prop) [Decidable strong] :
    RecoveryPolicyStatus :=
  if n = 0 ∨ opts.min.exceeds n then .insufficient
  else if 2 ≤ n ∧ strong then .strong
  else if opts.mainnet then .insufficient
  else .sufficient

/-! ### The policy in terms of the wrappers that count -/

/-- The second filter of the policy leaves the wrappers that count. -/
theorem filter_active (wrappers : List VaultWrapper) :
  (wrappers.filter fun w => w.status = .active).filter
      (fun w => w.type ≠ .evmSignature ∧ w.diagnosticOnly ≠ some true) = counted wrappers
  := by
  rw [List.filter_filter, counted]
  apply List.filter_congr
  intro w _
  simp only [VaultWrapper.Counts]
  by_cases h : w.status = .active
  · simp [h]
  · simp [h]

/-- An active wrapper that is strong counts, or it is diagnostic. -/
theorem active_strong_iff (wrappers : List VaultWrapper) :
  (∃ w ∈ wrappers, w.status = .active ∧ w.Strong)
    ↔ (∃ w ∈ counted wrappers, w.Strong) ∨ DiagnosticStrong wrappers
  := by
  constructor
  · rintro ⟨w, hw, ha, hs⟩
    by_cases hd : w.diagnosticOnly = some true
    · right
      use w, hw, ha, hd
    · left
      use w
      have hc : w.Counts := by
        use ha
        constructor
        · intro he
          obtain h | h := hs
          · rw [h] at he
            contradiction
          · rw [h] at he
            contradiction
        · apply hd
      constructor
      · apply List.mem_filter.mpr
        use hw
        apply decide_eq_true hc
      · apply hs
  · rintro (⟨w, hw, hs⟩ | ⟨w, hw, ha, -, hs⟩)
    · obtain ⟨hm, hc⟩ := List.mem_filter.mp hw
      use w, hm, (of_decide_eq_true hc).1, hs
    · use w, hw, ha, hs

open Classical in
/-- The policy looks at the number of wrappers that count, and at whether one of them is strong or
a diagnostic one is. -/
theorem evaluateRecoveryPolicy_eq
    (wrappers : List VaultWrapper) (opts : RecoverySettings) (h : opts.allowEvmOnly = false) :
  evaluateRecoveryPolicy wrappers opts
    = statusOf opts (counted wrappers).length
        ((∃ w ∈ counted wrappers, w.Strong) ∨ DiagnosticStrong wrappers)
  := by
  have hs : ((wrappers.filter fun w => w.status = .active).any
      fun w => w.type = .passkeyPrf ∨ w.type = .stellarEd25519Signature) = true
      ↔ (∃ w ∈ counted wrappers, w.Strong) ∨ DiagnosticStrong wrappers := by
    rw [← active_strong_iff, List.any_filter, List.any_eq_true]
    simp only [VaultWrapper.Strong, Bool.and_eq_true, decide_eq_true_eq]
  simp only [evaluateRecoveryPolicy, statusOf, filter_active, h, true_and, hs]
  generalize (counted wrappers).length = n
  by_cases h0 : n = 0
  · simp [h0]
  · by_cases hm : opts.min.exceeds n
    · simp [h0, hm]
    · simp only [h0, hm, or_self, if_false, and_comm]
      split <;> split <;> simp_all

/-! ### What changes the status -/

/-- For the same number of wrappers the status is the same exactly when the number is too small to
matter or the answers about the strong ones agree. -/
theorem statusOf_eq_iff (opts : RecoverySettings) (n : ℕ) (p q : Prop) [Decidable p] [Decidable q] :
  statusOf opts n p = statusOf opts n q ↔ n < 2 ∨ opts.min.exceeds n ∨ (p ↔ q)
  := by
  by_cases hm : opts.min.exceeds n
  · simp [statusOf, hm]
  · by_cases hn : n < 2
    · have h2 : ¬ 2 ≤ n := not_le.mpr hn
      simp [statusOf, hn, h2]
    · have h0 : n ≠ 0 := by omega
      have h2 : 2 ≤ n := not_lt.mp hn
      by_cases hp : p
      · by_cases hq : q
        · simp [statusOf, hp, hq]
        · cases hb : opts.mainnet <;> simp [statusOf, hm, h0, h2, hn, hp, hq, hb]
      · by_cases hq : q
        · cases hb : opts.mainnet <;> simp [statusOf, hm, h0, h2, hn, hp, hq, hb]
        · simp [statusOf, hp, hq]

/-- A setting that exceeds a number exceeds the numbers before it. -/
theorem Setting.exceeds_of_succ (m : Setting) (n : ℕ) (h : m.exceeds (n + 1)) :
  m.exceeds n
  := by
  cases m with
  | finite q =>
      have hn : ((n + 1 : ℕ) : ℚ) < q := h
      push_cast at hn
      have : (n : ℚ) < q := by linarith
      apply this
  | infinity => trivial
  | negativeInfinity => exact h
  | notANumber => exact h

/-- One more wrapper, and one more reason to be strong, do not weaken the status. -/
theorem rank_statusOf_le
    (opts : RecoverySettings) (n : ℕ) (p q : Prop) [Decidable p] [Decidable q] (hpq : p → q) :
  (statusOf opts n p).rank ≤ (statusOf opts (n + 1) q).rank
  := by
  by_cases h0 : n = 0 ∨ opts.min.exceeds n
  · simp [statusOf, h0, RecoveryPolicyStatus.rank]
  · have hm : ¬ opts.min.exceeds (n + 1) := fun h => h0 (.inr (opts.min.exceeds_of_succ n h))
    have h1 : ¬ (n + 1 = 0 ∨ opts.min.exceeds (n + 1)) := by
      rintro (h | h)
      · omega
      · apply hm h
    simp only [statusOf, h0, h1, if_false]
    by_cases hp : 2 ≤ n ∧ p
    · have hq : 2 ≤ n + 1 ∧ q := ⟨by omega, hpq hp.2⟩
      simp [hp, hq]
    · rw [if_neg hp]
      by_cases hq : 2 ≤ n + 1 ∧ q
      · rw [if_pos hq]
        cases opts.mainnet <;> decide
      · rw [if_neg hq]

/-! ### Two lists of wrappers -/

/-- Without recovery by EVM signatures alone, two lists with the same wrappers that count have the
same status exactly when fewer than two count, or fewer than the least number, or one of these is
strong already, or both lists or neither hold an active diagnostic wrapper that is strong. One more
wrapper that counts, at any place, never weakens the status. -/
theorem recovery_status (opts : RecoverySettings) (h : opts.allowEvmOnly = false) :
  (∀ ws ws' : List VaultWrapper, (counted ws).Perm (counted ws') →
    (evaluateRecoveryPolicy ws opts = evaluateRecoveryPolicy ws' opts
      ↔ (counted ws).length < 2 ∨ opts.min.exceeds (counted ws).length
        ∨ (∃ w ∈ counted ws, w.Strong) ∨ (DiagnosticStrong ws ↔ DiagnosticStrong ws')))
  ∧ ∀ (ws₁ ws₂ : List VaultWrapper) (w : VaultWrapper), w.Counts →
      (evaluateRecoveryPolicy (ws₁ ++ ws₂) opts).rank
        ≤ (evaluateRecoveryPolicy (ws₁ ++ w :: ws₂) opts).rank
  := by
  classical
  constructor
  · intro ws ws' hp
    have hs : (∃ w ∈ counted ws', w.Strong) ↔ ∃ w ∈ counted ws, w.Strong := by
      constructor
      · rintro ⟨w, hw, hw'⟩
        use w, hp.mem_iff.mpr hw, hw'
      · rintro ⟨w, hw, hw'⟩
        use w, hp.mem_iff.mp hw, hw'
    rw [evaluateRecoveryPolicy_eq ws opts h, evaluateRecoveryPolicy_eq ws' opts h,
      ← hp.length_eq, statusOf_eq_iff, hs]
    apply or_congr_right
    apply or_congr_right
    by_cases hc : ∃ w ∈ counted ws, w.Strong
    · simp only [hc, true_or]
    · simp only [hc, false_or]
  · intro ws₁ ws₂ w hw
    have hc : counted (ws₁ ++ w :: ws₂) = counted ws₁ ++ w :: counted ws₂ := by
      rw [counted, List.filter_append, List.filter_cons, if_pos (decide_eq_true hw)]
      rfl
    have hl : (counted (ws₁ ++ w :: ws₂)).length = (counted (ws₁ ++ ws₂)).length + 1 := by
      rw [hc, counted, counted, counted, List.filter_append, List.length_append,
        List.length_append, List.length_cons]
      rfl
    rw [evaluateRecoveryPolicy_eq _ opts h, evaluateRecoveryPolicy_eq _ opts h, hl]
    apply rank_statusOf_le
    rw [← active_strong_iff, ← active_strong_iff]
    rintro ⟨v, hv, hv'⟩
    use v
    constructor
    · rw [List.mem_append, List.mem_cons]
      obtain hv | hv := List.mem_append.mp hv
      · left
        apply hv
      · right
        right
        apply hv
    · apply hv'

/-- A wrapper of a type and a status, diagnostic or not. -/
def VaultWrapper.sample (type : WrapperType) (diagnosticOnly : Option Bool) : VaultWrapper :=
  ⟨"w".toList, type, .active, .hkdfSha256, "s".toList, "k".toList, diagnosticOnly, []⟩

/-- On the test network, an EVM signature adds nothing to a kit, and a Stellar key does not weaken
a kit and a recovery file. -/
theorem recovery_status_kit :
  evaluateRecoveryPolicy [.sample .recoveryKitPassword none] ⟨false, .finite 1, false⟩
      = evaluateRecoveryPolicy
          [.sample .evmSignature (some true), .sample .recoveryKitPassword none]
          ⟨false, .finite 1, false⟩
  ∧ (evaluateRecoveryPolicy [.sample .recoveryKitPassword none, .sample .recoveryFileSecret none]
        ⟨false, .finite 1, false⟩).rank
      ≤ (evaluateRecoveryPolicy
          [.sample .recoveryKitPassword none, .sample .stellarEd25519Signature none,
            .sample .recoveryFileSecret none] ⟨false, .finite 1, false⟩).rank
  := by
  constructor
  · apply ((recovery_status ⟨false, .finite 1, false⟩ rfl).1 _ _ (.refl _)).mpr
    left
    decide
  · apply (recovery_status ⟨false, .finite 1, false⟩ rfl).2 [_] [_] (.sample _ none)
    decide

/-- A diagnostic passkey makes a recovery by a kit and a file strong. -/
theorem diagnostic_strengthens :
  ¬ ∀ (opts : RecoverySettings) (ws ws' : List VaultWrapper), opts.allowEvmOnly = false →
      counted ws = counted ws' → evaluateRecoveryPolicy ws opts = evaluateRecoveryPolicy ws' opts
  := by
  intro h
  have := h ⟨true, .finite 2, false⟩
    [.sample .recoveryKitPassword none, .sample .recoveryFileSecret none]
    [.sample .recoveryKitPassword none, .sample .recoveryFileSecret none,
      .sample .passkeyPrf (some true)] rfl rfl
  revert this
  decide

end Shade.Api
