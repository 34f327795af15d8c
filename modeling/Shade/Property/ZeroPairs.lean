import Shade.Property.PricedMatching

/-!
# Divisions by zero in priced matching

The comparison of two intents divides by the amount of the second one, after checks that admit an
amount of zero: the first intent is then so small, or its price so low, that it gives nothing. The
loop throws exactly when it compares such a pair, and it compares an intent whose turn has come,
and which is not used, with every other unused one until it crosses.
-/

namespace Shade.Committee

/-- The pair passes the checks that come before the division. -/
structure Meets (a b : PricedIntent) : Prop where
  input : a.inputAsset = b.outputAsset
  output : a.outputAsset = b.inputAsset
  crossAsset : a.inputAsset ≠ a.outputAsset
  spends : b.amount = quotedFromPrice a.amount a.limitPriceScaled
  minOutputA : a.minOutput ≤ quotedFromPrice a.amount a.limitPriceScaled
  minOutputB : b.minOutput ≤ a.amount

/-- The pair passes these checks, and the second intent spends nothing. -/
def ZeroPair (a b : PricedIntent) : Prop := Meets a b ∧ b.amount = 0

/-- The pair crosses. -/
def Crosses (a b : PricedIntent) : Prop :=
  Meets a b ∧ b.amount ≠ 0 ∧ b.limitPriceScaled ≤ (a.amount * priceScale).tdiv b.amount

instance (a b : PricedIntent) : Decidable (Meets a b) :=
  decidable_of_iff (a.inputAsset = b.outputAsset ∧ a.outputAsset = b.inputAsset
    ∧ a.inputAsset ≠ a.outputAsset ∧ b.amount = quotedFromPrice a.amount a.limitPriceScaled
    ∧ a.minOutput ≤ quotedFromPrice a.amount a.limitPriceScaled ∧ b.minOutput ≤ a.amount)
    ⟨fun h => ⟨h.1, h.2.1, h.2.2.1, h.2.2.2.1, h.2.2.2.2.1, h.2.2.2.2.2⟩,
      fun h => ⟨h.input, h.output, h.crossAsset, h.spends, h.minOutputA, h.minOutputB⟩⟩

instance (a b : PricedIntent) : Decidable (Crosses a b) :=
  inferInstanceAs (Decidable (_ ∧ _ ∧ _))

/-- The identifier of an intent is among those that are used. -/
def isUsed (used : List Text) (a : PricedIntent) : Bool := used.any fun id => id = a.intentId

/-- The first intent of a list, from an index on, that is not at the given index, is not used, and
crosses with the given one. -/
def firstCrossing (a : PricedIntent) (i : ℕ) (used : List Text) :
    List PricedIntent → ℕ → Option PricedIntent
  | [], _ => none
  | b :: bs, j =>
      if i ≠ j ∧ isUsed used b = false ∧ Crosses a b then some b
      else firstCrossing a i used bs (j + 1)

/-- The intent at an index meets no other unused intent in a pair with nothing to spend, from an
index on. -/
def NoZeroPair (a : PricedIntent) (i : ℕ) (used : List Text) (bs : List PricedIntent) (j : ℕ) :
    Prop :=
  ∀ (k : ℕ) (b : PricedIntent), bs[k]? = some b → i ≠ j + k → isUsed used b = false →
    ¬ ZeroPair a b

/-- In their turns, from an index on, the intents that are not used meet no such pair, where each
of them is used with the first intent with which it crosses. -/
def NoZeroTurn (intents : List PricedIntent) : List PricedIntent → ℕ → List Text → Prop
  | [], _, _ => True
  | a :: as, i, used =>
      if isUsed used a then NoZeroTurn intents as (i + 1) used
      else
        NoZeroPair a i used intents 0
          ∧ NoZeroTurn intents as (i + 1)
            (match firstCrossing a i used intents 0 with
            | some b => used ++ [a.intentId, b.intentId]
            | none => used)

variable {a b : PricedIntent} {used : List Text}

theorem isUsed_iff :
  isUsed used a = true ↔ a.intentId ∈ used
  := by
  rw [isUsed, List.any_eq_true]
  constructor
  · rintro ⟨id, hid, heq⟩
    rw [← of_decide_eq_true heq]
    apply hid
  · intro h
    use a.intentId, h
    apply decide_eq_true rfl

theorem isUsed_eq_false_iff :
  isUsed used a = false ↔ a.intentId ∉ used
  := by
  rw [← isUsed_iff, Bool.not_eq_true]

/-! ### One pair -/

/-- To compare two intents that do not pass the checks gives no match. -/
theorem matchPricedPair_of_not_meets (h : ¬ Meets a b) :
  matchPricedPair a b = .ok none
  := by
  by_contra hne
  apply h
  have hpass : ∀ {p : Prop} [Decidable p] {x : Except String (Option PricedMatch)},
      (if p then pure none else x) ≠ .ok none → ¬ p ∧ x ≠ .ok none := by
    intro p _ x hx
    by_cases hp : p
    · rw [if_pos hp] at hx
      exact absurd rfl hx
    · rw [if_neg hp] at hx
      use hp
  rw [matchPricedPair] at hne
  obtain ⟨h₁, hne⟩ := hpass hne
  obtain ⟨h₂, hne⟩ := hpass hne
  obtain ⟨h₃, hne⟩ := hpass hne
  obtain ⟨h₄, hne⟩ := hpass hne
  obtain ⟨h₅, hne⟩ := hpass hne
  obtain ⟨h₆, -⟩ := hpass hne
  constructor
  · apply not_not.mp h₁
  · apply not_not.mp h₂
  · apply h₃
  · apply not_not.mp h₄
  · apply not_lt.mp h₅
  · apply not_lt.mp h₆

/-- To compare two intents that pass the checks is to divide by the amount of the second. -/
theorem matchPricedPair_of_meets (h : Meets a b) :
  ∃ m, matchPricedPair a b = (do
    let rateForB ← divide (a.amount * priceScale) b.amount
    if rateForB < b.limitPriceScaled then return none
    return some m)
  := by
  have h₁ : ¬ a.inputAsset ≠ b.outputAsset := not_not.mpr h.input
  have h₂ : ¬ a.outputAsset ≠ b.inputAsset := not_not.mpr h.output
  have h₃ : ¬ b.amount ≠ (a.amount * a.limitPriceScaled).tdiv priceScale := not_not.mpr h.spends
  have h₄ : ¬ (a.amount * a.limitPriceScaled).tdiv priceScale < a.minOutput := not_lt.mpr h.minOutputA
  have h₅ : ¬ a.amount < b.minOutput := not_lt.mpr h.minOutputB
  rw [matchPricedPair, if_neg h₁, if_neg h₂, if_neg h.crossAsset]
  dsimp only
  rw [if_neg h₃, if_neg h₄, if_neg h₅]
  exact ⟨_, rfl⟩

/-- What the comparison of two intents results in. -/
theorem matchPricedPair_cases (a b : PricedIntent) :
  (ZeroPair a b ∧ matchPricedPair a b = .error "Division by zero")
    ∨ (Crosses a b ∧ ∃ m, matchPricedPair a b = .ok (some m))
    ∨ (¬ ZeroPair a b ∧ ¬ Crosses a b ∧ matchPricedPair a b = .ok none)
  := by
  by_cases h : Meets a b
  · obtain ⟨m, hm⟩ := matchPricedPair_of_meets h
    rw [hm, divide]
    by_cases hzero : b.amount = 0
    · left
      use ⟨h, hzero⟩
      rw [if_pos hzero]
      rfl
    · right
      rw [if_neg hzero]
      by_cases hrate : (a.amount * priceScale).tdiv b.amount < b.limitPriceScaled
      · right
        constructor
        · rintro ⟨-, hz⟩
          apply hzero hz
        · constructor
          · rintro ⟨-, -, hle⟩
            apply not_le.mpr hrate hle
          · change (if (a.amount * priceScale).tdiv b.amount < b.limitPriceScaled then _
              else _) = _
            rw [if_pos hrate]
            rfl
      · left
        use ⟨h, hzero, not_lt.mp hrate⟩, m
        change (if (a.amount * priceScale).tdiv b.amount < b.limitPriceScaled then _
          else _) = _
        rw [if_neg hrate]
        rfl
  · right
    right
    constructor
    · rintro ⟨hmeets, -⟩
      apply h hmeets
    · constructor
      · rintro ⟨hmeets, -⟩
        apply h hmeets
      · apply matchPricedPair_of_not_meets h

/-- An intent that gives nothing for its input crosses with none. -/
theorem not_crosses_of_zeroPair {c : PricedIntent} (h : ZeroPair a b) :
  ¬ Crosses a c
  := by
  rintro ⟨hmeets, hne, -⟩
  apply hne
  rw [hmeets.spends, ← h.1.spends, h.2]

/-! ### The loops -/

variable {i j : ℕ}

/-- A pair that the inner loop passes over. -/
theorem skips_iff (ha : a.intentId ∉ used) :
  (i = j ∨ b.intentId ∈ used ∨ a.intentId ∈ used) ↔ ¬ (i ≠ j ∧ isUsed used b = false)
  := by
  rw [isUsed_eq_false_iff]
  tauto

/-- No pair with nothing to spend in a list is none at its head and none in the rest. -/
theorem noZeroPair_cons (bs : List PricedIntent) :
  NoZeroPair a i used (b :: bs) j
    ↔ (i ≠ j → isUsed used b = false → ¬ ZeroPair a b) ∧ NoZeroPair a i used bs (j + 1)
  := by
  constructor
  · intro h
    constructor
    · intro hij hb
      apply h 0 b rfl hij hb
    · intro k c hc hij hused
      apply h (k + 1) c hc _ hused
      omega
  · rintro ⟨hhead, hrest⟩ k c hc hij hused
    cases k with
    | zero =>
        obtain rfl : b = c := by simpa using hc
        apply hhead hij hused
    | succ k =>
        apply hrest k c hc _ hused
        omega

/-- The inner loop throws when it meets a pair with nothing to spend, and finds the first intent
that crosses otherwise. -/
theorem matchAgainst_cases (ha : a.intentId ∉ used) (bs : List PricedIntent) (j : ℕ) :
  (NoZeroPair a i used bs j →
      match firstCrossing a i used bs j with
      | some b => ∃ m, matchAgainst a i used bs j = .ok (some (b, m))
      | none => matchAgainst a i used bs j = .ok none)
    ∧ (¬ NoZeroPair a i used bs j → ∃ e, matchAgainst a i used bs j = .error e)
  := by
  induction bs generalizing j with
  | nil =>
      constructor
      · intro _
        rfl
      · intro h
        exfalso
        apply h
        intro k b hb
        simp at hb
  | cons b bs ih =>
      rw [noZeroPair_cons, matchAgainst, firstCrossing]
      by_cases hskip : i ≠ j ∧ isUsed used b = false
      · rw [if_neg (fun h => (skips_iff ha).mp h hskip)]
        obtain ⟨hzero, hpair⟩ | ⟨hcross, m, hpair⟩ | ⟨hzero, hcross, hpair⟩ :=
          matchPricedPair_cases a b
        · rw [hpair]
          constructor
          · rintro ⟨hhead, -⟩
            exact absurd hzero (hhead hskip.1 hskip.2)
          · intro _
            use "Division by zero"
            rfl
        · rw [hpair, if_pos ⟨hskip.1, hskip.2, hcross⟩]
          constructor
          · intro _
            use m
            rfl
          · intro h
            exfalso
            apply h
            constructor
            · intro _ _ hz
              apply not_crosses_of_zeroPair hz hcross
            · intro k c _ _ _ hz
              apply not_crosses_of_zeroPair hz hcross
        · have hhead : i ≠ j → isUsed used b = false → ¬ ZeroPair a b := fun _ _ => hzero
          rw [hpair, if_neg (fun h => hcross h.2.2), and_iff_right hhead]
          apply ih (j + 1)
      · have hhead : i ≠ j → isUsed used b = false → ¬ ZeroPair a b :=
          fun hij hb => absurd ⟨hij, hb⟩ hskip
        rw [if_pos ((skips_iff ha).mpr hskip), if_neg (fun h => hskip ⟨h.1, h.2.1⟩),
          and_iff_right hhead]
        apply ih (j + 1)

/-- The outer loop returns exactly when no intent meets such a pair in its turn. -/
theorem matchEach_ok_iff (intents as : List PricedIntent) (i : ℕ) (s : Progress PricedMatch) :
  (∃ s', matchEach intents as i s = .ok s') ↔ NoZeroTurn intents as i s.used
  := by
  induction as generalizing i s with
  | nil =>
      apply iff_of_true
      · use s
        rfl
      · trivial
  | cons a as ih =>
      rw [matchEach, NoZeroTurn]
      by_cases hused : a.intentId ∈ s.used
      · rw [if_pos hused, if_pos (isUsed_iff.mpr hused)]
        apply ih
      · rw [if_neg hused, if_neg (fun h => hused (isUsed_iff.mp h))]
        obtain ⟨hok, herror⟩ := matchAgainst_cases (i := i) hused intents 0
        by_cases hzero : NoZeroPair a i s.used intents 0
        · have hfound := hok hzero
          rw [and_iff_right hzero]
          cases hfirst : firstCrossing a i s.used intents 0 with
          | none =>
              rw [hfirst] at hfound
              rw [hfound]
              apply ih
          | some b =>
              rw [hfirst] at hfound
              obtain ⟨m, hm⟩ := hfound
              rw [hm]
              apply ih (i + 1) (s.add a.intentId b.intentId m)
        · obtain ⟨e, he⟩ := herror hzero
          apply iff_of_false
          · rintro ⟨s', hs'⟩
            rw [he] at hs'
            cases hs'
          · intro h
            apply hzero h.1

/-- The matching of intents across assets returns its matches exactly when, with each unused
intent in its turn used with the first other unused one that crosses with it, no unused intent in
its turn is confronted with another unused one that passes the checks and spends nothing. -/
theorem matchPricedIntents_returns_iff (intents : List PricedIntent) :
  (∃ found, matchPricedIntents intents = .ok found) ↔ NoZeroTurn intents intents 0 []
  := by
  have hloop := matchEach_ok_iff intents intents 0 Progress.empty
  rw [matchPricedIntents]
  apply Iff.trans _ hloop
  cases matchEach intents intents 0 Progress.empty with
  | error e =>
      apply iff_of_false
      · rintro ⟨found, h⟩
        cases h
      · rintro ⟨s', h⟩
        cases h
  | ok s =>
      apply iff_of_true
      · use s.found
        rfl
      · use s

/-- An intent whose price gives nothing for its amount, and one that spends nothing. -/
def dustIntents : List PricedIntent :=
  [⟨"A".toList, "usdc".toList, "xlm".toList, 1, 0, 1⟩,
    ⟨"B".toList, "xlm".toList, "usdc".toList, 0, 0, 0⟩]

/-- Two such intents stop the matching. -/
theorem matchPricedIntents_throws :
  ¬ ∀ intents : List PricedIntent,
      (∀ a ∈ intents, 0 ≤ a.amount ∧ 0 ≤ a.minOutput ∧ 0 ≤ a.limitPriceScaled) →
      ∃ found, matchPricedIntents intents = .ok found
  := by
  intro h
  obtain ⟨found, hfound⟩ := h dustIntents (by decide)
  have hthrows : (matchPricedIntents dustIntents).toOption = none := by decide +kernel
  rw [hfound] at hthrows
  cases hthrows

end Shade.Committee
