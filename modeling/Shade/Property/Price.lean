import Shade.Circuit.Settlement
import Shade.Committee.Matcher
import Shade.Pool.Rfq

/-!
# The price of a match

The price rule: the output is the input times the scaled price, divided by the scale and
rounded down. The priced settlement circuit states it by two comparators on field elements,
which leave the remainder below the scale but do not bound the product; the pool and the
matcher compute it with integers.
-/

namespace Shade

namespace MpcPricedSettlement

variable {treeDepth associationDepth : ℕ}

/-! ### What the comparators say -/

/-- The integer of a difference from a number. -/
theorem val_natCast_sub {k : ℕ} {x : Fr} :
  ((k : Fr) - x).val = (k + (r - x.val)) % r
  := by
  have hx := ZMod.val_lt x
  have hcast : (k : Fr) - x = ((k + (r - x.val) : ℕ) : Fr) := by
    rw [Nat.cast_add, Nat.cast_sub hx.le, ZMod.natCast_self, ZMod.natCast_zmod_val, zero_sub,
      sub_eq_add_neg]
  rw [hcast, ZMod.val_natCast]

/-- The two comparators on the price hold exactly if the remainder is below the scale. -/
theorem price_iff {scaled prod : Fr} :
  (LessEqThan 128 scaled prod 1 ∧ LessThan 64 (prod - scaled) 1000000000 1)
    ↔ (prod - scaled).val < 1000000000
  := by
  rw [LessEqThan, lessThan_one_iff (by decide), lessThan_one_iff (by decide)]
  have hrem := ZMod.val_lt (prod - scaled)
  have hle : scaled + (2 ^ 128 : ℕ) - (prod + 1)
      = ((2 ^ 128 - 1 : ℕ) : Fr) - (prod - scaled) := by
    push_cast
    ring
  have hlt : prod - scaled + (2 ^ 64 : ℕ) - 1000000000
      = ((2 ^ 64 - 1000000000 : ℕ) : Fr) + (prod - scaled) := by
    push_cast
    ring
  rw [hle, hlt, val_natCast_sub, ZMod.val_add, ZMod.val_natCast]
  simp only [r] at hrem ⊢
  omega

/-- The comparator on a minimum output, for numbers of 64 bits. -/
theorem minOutput_iff {x y : Fr} (hx : x.val < 2 ^ 64) (hy : y.val < 2 ^ 64) :
  GreaterEqThan 64 x y 1 ↔ y.val ≤ x.val
  := by
  rw [GreaterEqThan, lessThan_one_iff (by decide)]
  have hdiff : y + (2 ^ 64 : ℕ) - (x + 1) = ((y.val + (2 ^ 64 - 1) : ℕ) : Fr) - x := by
    rw [Nat.cast_add, ZMod.natCast_zmod_val]
    push_cast
    ring
  rw [hdiff, val_natCast_sub]
  generalize x.val = m at hx ⊢
  generalize y.val = n at hy ⊢
  simp only [r]
  omega

/-- A number of 64 bits times the scale, with a remainder, does not wrap. -/
theorem scaled_add_lt {amount rem : ℕ} (hamount : amount < 2 ^ 64) (hrem : rem < 1000000000) :
  rem + amount * 1000000000 < r
  := by
  have hr : 2 ^ 64 * 1000000000 < r := by decide
  omega

/-- The integer of a number of 64 bits times the scale. -/
theorem val_scaled {amount : Fr} (h : amount.val < 2 ^ 64) :
  (amount * 1000000000).val = amount.val * 1000000000
  := by
  have hscale : (1000000000 : Fr).val = 1000000000 :=
    ZMod.val_natCast_of_lt (by decide : 1000000000 < r)
  have hfit := scaled_add_lt h (by decide : 0 < 1000000000)
  rw [Nat.zero_add] at hfit
  rw [ZMod.val_mul_of_lt (by rwa [hscale]), hscale]

/-- As long as the product does not wrap, the remainder is below the scale exactly if the
output is the product divided by the scale. -/
theorem rem_lt_iff {amountA amountB price : Fr} (hprod : amountA.val * price.val < r)
    (hB : amountB.val < 2 ^ 64) :
  (amountA * price - amountB * 1000000000).val < 1000000000
    ↔ amountB.val = amountA.val * price.val / 1000000000
  := by
  have hvalProd := ZMod.val_mul_of_lt hprod
  have hvalScaled := val_scaled hB
  constructor
  · intro hrem
    have hfit := scaled_add_lt hB hrem
    rw [← hvalScaled] at hfit
    have hsum := PrimeField.val_eq_sub_add hfit
    rw [hvalProd, hvalScaled] at hsum
    rw [hsum, Nat.add_mul_div_right _ _ (by decide), Nat.div_eq_of_lt hrem, Nat.zero_add]
  · intro hfloor
    have hle : (amountB * 1000000000).val ≤ (amountA * price).val := by
      rw [hvalProd, hvalScaled, hfloor]
      apply Nat.div_mul_le_self
    rw [ZMod.val_sub hle, hvalProd, hvalScaled, hfloor, ← Nat.mod_eq_sub_div_mul]
    apply Nat.mod_lt _ (by decide)

/-- The constraints on the price and the minimum outputs, for numbers of 64 bits and a
product that does not wrap. -/
theorem priced_iff {amountA amountB price minA minB : Fr} (hprod : amountA.val * price.val < r)
    (hA : amountA.val < 2 ^ 64) (hB : amountB.val < 2 ^ 64) (hminA : minA.val < 2 ^ 64)
    (hminB : minB.val < 2 ^ 64) :
  Priced amountA amountB price 1000000000 minA minB
    ↔ amountB.val = amountA.val * price.val / 1000000000 ∧ minA.val ≤ amountB.val
      ∧ minB.val ≤ amountA.val
  := by
  rw [← rem_lt_iff hprod hB, ← price_iff, ← minOutput_iff hB hminA, ← minOutput_iff hA hminB]
  constructor
  · rintro ⟨-, hle, hlt, hgeA, hgeB⟩
    exact ⟨⟨hle, hlt⟩, hgeA, hgeB⟩
  · rintro ⟨⟨hle, hlt⟩, hgeA, hgeB⟩
    exact ⟨rfl, hle, hlt, hgeA, hgeB⟩

/-! ### The circuit -/

/-- The output is the price rule's, and both minimum outputs are met, over the integers. -/
def Assignment.EnforcesPrice (a : Assignment treeDepth associationDepth) : Prop :=
  a.matchedAmountB.val = a.matchedAmountA.val * a.priceScaled.val / 1000000000
    ∧ a.minOutputA.val ≤ a.matchedAmountB.val ∧ a.minOutputB.val ≤ a.matchedAmountA.val

instance (a : Assignment treeDepth associationDepth) : Decidable a.EnforcesPrice :=
  inferInstanceAs (Decidable (_ ∧ _ ∧ _))

/-- On notes of 64-bit values the circuit enforces the price and the minimum outputs exactly
for the assignments in which the product of the amount and the price does not wrap and the
minimum outputs are 64-bit numbers. -/
theorem enforcesPrice_iff {H : Hash} {a : Assignment treeDepth associationDepth}
    (hs : Satisfied H a) (hA : a.matchedAmountA.val < 2 ^ 64)
    (hB : a.matchedAmountB.val < 2 ^ 64) :
  a.EnforcesPrice
    ↔ a.matchedAmountA.val * a.priceScaled.val < r ∧ a.minOutputA.val < 2 ^ 64
      ∧ a.minOutputB.val < 2 ^ 64
  := by
  constructor
  · rintro ⟨hfloor, hminA, hminB⟩
    have hr : 2 ^ 64 * 1000000000 < r := by decide
    refine ⟨?_, by omega, by omega⟩
    generalize a.matchedAmountA.val * a.priceScaled.val = product at hfloor ⊢
    omega
  · rintro ⟨hprod, hminA, hminB⟩
    have hpriced := hs.priced
    rw [hs.priceScale] at hpriced
    exact (priced_iff hprod hA hB hminA hminB).mp hpriced

/-- The assignment that exchanges notes of two assets at the leaves `0` and `1`. -/
def exchange (H : Hash) (amountA amountB price minA minB : ℕ) : Assignment 12 2 :=
  let noteA : Note := ⟨(1 : ℕ), amountA, (5 : ℕ), (21 : ℕ), (31 : ℕ)⟩
  let noteB : Note := ⟨(2 : ℕ), amountB, (5 : ℕ), (22 : ℕ), (32 : ℕ)⟩
  { stateRoot :=
      climb H (noteA.commitment H) (pathOf 0 (MpcSettlement.siblingsOf (noteB.commitment H)))
    associationRoot := climb H (5 : ℕ) (pathOf 0 (List.Vector.replicate 2 0))
    batchHash := (9 : ℕ)
    poolId := (1 : ℕ)
    chainId := (27 : ℕ)
    deadlineLedger := (1000 : ℕ)
    inputAssetA := (1 : ℕ)
    outputAssetA := (2 : ℕ)
    inputAssetB := (2 : ℕ)
    outputAssetB := (1 : ℕ)
    matchedAmountA := amountA
    matchedAmountB := amountB
    priceScaled := price
    priceScale := (1000000000 : ℕ)
    minOutputA := minA
    minOutputB := minB
    labelA := (5 : ℕ)
    nullifierA := (21 : ℕ)
    secretA := (31 : ℕ)
    stateIndexA := (0 : ℕ)
    stateSiblingsA := MpcSettlement.siblingsOf (noteB.commitment H)
    labelIndexA := (0 : ℕ)
    labelSiblingsA := List.Vector.replicate 2 0
    labelB := (5 : ℕ)
    nullifierB := (22 : ℕ)
    secretB := (32 : ℕ)
    stateIndexB := (1 : ℕ)
    stateSiblingsB := MpcSettlement.siblingsOf (noteA.commitment H)
    labelIndexB := (0 : ℕ)
    labelSiblingsB := List.Vector.replicate 2 0
    outLabelA := (5 : ℕ)
    outNullifierA := (23 : ℕ)
    outSecretA := (33 : ℕ)
    outLabelB := (5 : ℕ)
    outNullifierB := (24 : ℕ)
    outSecretB := (34 : ℕ)
    nullifierHashA := nullifierHashOf H (21 : ℕ) (1 : ℕ) (27 : ℕ)
    nullifierHashB := nullifierHashOf H (22 : ℕ) (1 : ℕ) (27 : ℕ)
    outputCommitmentA := Note.commitment H ⟨(2 : ℕ), amountB, (5 : ℕ), (23 : ℕ), (33 : ℕ)⟩
    outputCommitmentB := Note.commitment H ⟨(1 : ℕ), amountA, (5 : ℕ), (24 : ℕ), (34 : ℕ)⟩ }

/-- Such an assignment satisfies the constraints as soon as its amounts do. -/
theorem exchange_satisfied (H : Hash) {amountA amountB price minA minB : ℕ}
    (h : Priced amountA amountB price 1000000000 minA minB) :
  Satisfied H (exchange H amountA amountB price minA minB)
  := by
  constructor
  · rfl
  · rfl
  · apply isEqual_zero_iff.mpr
    change ((1 : ℕ) : Fr) ≠ ((2 : ℕ) : Fr)
    decide
  · rfl
  · apply MerkleProof.of_climb 0 (by decide) rfl
  · apply MerkleProof.of_climb 1 (by decide)
    exact (MpcSettlement.climb_neighbours H _ _).symm
  · apply MerkleProof.of_climb 0 (by decide) rfl
  · apply MerkleProof.of_climb 0 (by decide) rfl
  · rfl
  · rfl
  · rfl
  · rfl
  · exact h.scaled_le_prod
  · exact h.rem_lt
  · exact h.minA_le
  · exact h.minB_le

/-- A price for which two units make more than the order of the field. -/
def wrappingPrice : ℕ := (r + 1000000001) / 2

/-- Two units are exchanged for one at a price of more than `2 ^ 253`. -/
theorem exchange_wraps :
  Satisfied poseidon255 (exchange poseidon255 2 1 wrappingPrice 1 2)
    ∧ (exchange poseidon255 2 1 wrappingPrice 1 2).matchedAmountA.val < 2 ^ 64
    ∧ (exchange poseidon255 2 1 wrappingPrice 1 2).matchedAmountB.val < 2 ^ 64
    ∧ ¬ (exchange poseidon255 2 1 wrappingPrice 1 2).EnforcesPrice
  := by
  refine ⟨?_, by decide, by decide, by decide⟩
  apply exchange_satisfied
  obtain ⟨hle, hlt⟩ := price_iff.mpr (by decide : ((2 : ℕ) * (wrappingPrice : ℕ)
    - (1 : ℕ) * 1000000000 : Fr).val < 1000000000)
  refine ⟨rfl, hle, hlt, ?_, ?_⟩
  · apply (minOutput_iff (by decide) (by decide)).mpr
    decide
  · apply (minOutput_iff (by decide) (by decide)).mpr
    decide

/-- Four million units are exchanged for two million at half a unit each. -/
theorem exchange_enforcesPrice :
  (exchange poseidon255 4000000 2000000 500000000 1900000 3900000).EnforcesPrice
  := by
  have hs : Satisfied poseidon255
      (exchange poseidon255 4000000 2000000 500000000 1900000 3900000) := by
    apply exchange_satisfied
    apply (priced_iff (by decide) (by decide) (by decide) (by decide) (by decide)).mpr
    decide
  apply (enforcesPrice_iff hs (by decide) (by decide)).mpr
  decide

end MpcPricedSettlement

/-! ### One rule -/

namespace Committee

open MpcPricedSettlement Pool Text Txn

/-- The amount, the minimum output and the limit price of an intent are numbers of 63 bits. -/
structure PricedIntent.InRange (i : PricedIntent) : Prop where
  amount_nonneg : 0 ≤ i.amount
  amount_lt : i.amount < 2 ^ 63
  minOutput_nonneg : 0 ≤ i.minOutput
  minOutput_lt : i.minOutput < 2 ^ 63
  limitPrice_nonneg : 0 ≤ i.limitPriceScaled
  limitPrice_lt : i.limitPriceScaled < 2 ^ 63

/-- The quote for numbers that are not negative is the quotient rounded down. -/
theorem quotedFromPrice_natCast (amount price : ℕ) :
  quotedFromPrice amount price = (amount * price / 1000000000 : ℕ)
  := by
  rw [quotedFromPrice, priceScale, Int.tdiv_eq_ediv_of_nonneg (by positivity)]
  norm_cast

/-- The circuit's constraints on numbers of 63 bits. -/
theorem priced_iff_quoted {amountA amountB price minA minB : ℕ} (hA : amountA < 2 ^ 63)
    (hB : amountB < 2 ^ 63) (hprice : price < 2 ^ 63) (hminA : minA < 2 ^ 63)
    (hminB : minB < 2 ^ 63) :
  Priced amountA amountB price 1000000000 minA minB
    ↔ (amountB : ℤ) = quotedFromPrice amountA price ∧ minA ≤ amountB ∧ minB ≤ amountA
  := by
  have hr : 2 ^ 63 * 2 ^ 63 < r := by decide
  have hval : ∀ {n : ℕ}, n < 2 ^ 63 → (n : Fr).val = n := by
    intro n hn
    apply ZMod.val_natCast_of_lt
    omega
  have hprod : amountA * price < r := lt_trans (Nat.mul_lt_mul'' hA hprice) hr
  have hiff := @priced_iff amountA amountB price minA minB
  rw [hval hA, hval hB, hval hprice, hval hminA, hval hminB] at hiff
  rw [hiff hprod (by omega) (by omega) (by omega) (by omega), quotedFromPrice_natCast,
    Nat.cast_inj]

/-- The check of the pool on numbers of 63 bits. -/
theorem requirePrice_iff_quoted {w : World} {value price quoted : I128} (hvalue : 0 ≤ value.val)
    (hvalue' : value.val < 2 ^ 63) (hprice : 0 ≤ price.val) (hprice' : price.val < 2 ^ 63) :
  (requirePrice value price quoted).run w = .ok ((), w)
    ↔ quoted.val = quotedFromPrice value.val price.val
  := by
  simp only [requirePrice, unwrap_bind_ok, require_ok, I128.check_eq_some, and_true]
  constructor
  · rintro ⟨product, hproduct, hquoted⟩
    rw [hquoted, hproduct]
    rfl
  · intro hquoted
    have hnonneg : 0 ≤ value.val * price.val := Int.mul_nonneg hvalue hprice
    have hlt : value.val * price.val < 2 ^ 63 * 2 ^ 63 :=
      mul_lt_mul'' hvalue' hprice' hvalue hprice
    refine ⟨⟨value.val * price.val, by omega, by omega⟩, rfl, ?_⟩
    rw [hquoted]
    rfl

/-- The circuit's constraints on a match. -/
theorem matchPricedPair_priced {assets : Set Text} {fieldId : Text → Fr}
    (hid : assets.InjOn fieldId) {a b : PricedIntent} (hin : a.inputAsset ∈ assets)
    (hout : a.outputAsset ∈ assets) (ha : a.InRange) (hb : b.InRange) {m : PricedMatch}
    (h : matchPricedPair a b = .ok (some m)) :
  Paired (fieldId m.inputAssetA) (fieldId m.outputAssetA) (fieldId m.inputAssetB)
      (fieldId m.outputAssetB)
    ∧ ∃ amountA amountB price minA minB : ℕ,
      toInt? m.matchedAmountA = some (amountA : ℤ) ∧ toInt? m.matchedAmountB = some (amountB : ℤ)
      ∧ toInt? m.priceScaled = some (price : ℤ) ∧ toInt? m.minOutputA = some (minA : ℤ)
      ∧ toInt? m.minOutputB = some (minB : ℤ)
      ∧ Priced amountA amountB price 1000000000 minA minB
  := by
  obtain ⟨hinput, houtput, hne, hamount, hminA, hminB, -, rfl⟩ := matchPricedPair_eq_some h
  constructor
  · rw [← houtput, ← hinput]
    refine ⟨rfl, rfl, isEqual_zero_iff.mpr ?_⟩
    intro hfield
    apply hne (hid hin hout hfield)
  · obtain ⟨amountA, hamountA⟩ := Int.eq_ofNat_of_zero_le ha.amount_nonneg
    obtain ⟨amountB, hamountB⟩ := Int.eq_ofNat_of_zero_le hb.amount_nonneg
    obtain ⟨price, hprice⟩ := Int.eq_ofNat_of_zero_le ha.limitPrice_nonneg
    obtain ⟨minA, hminA'⟩ := Int.eq_ofNat_of_zero_le ha.minOutput_nonneg
    obtain ⟨minB, hminB'⟩ := Int.eq_ofNat_of_zero_le hb.minOutput_nonneg
    have hA := ha.amount_lt
    have hB := hb.amount_lt
    have hP := ha.limitPrice_lt
    have hMA := ha.minOutput_lt
    have hMB := hb.minOutput_lt
    rw [hamountA, hamountB, hprice] at hamount
    refine ⟨amountA, amountB, price, minA, minB, ?_, ?_, ?_, ?_, ?_, ?_⟩
    · rw [hamountA, toInt?_decimal]
    · rw [hamountB, toInt?_decimal]
    · rw [hprice, toInt?_decimal]
    · rw [hminA', toInt?_decimal]
    · rw [hminB', toInt?_decimal]
    · apply (priced_iff_quoted (by omega) (by omega) (by omega) (by omega) (by omega)).mpr
      refine ⟨hamount, by omega, by omega⟩

/-- One price rule, for numbers of 63 bits: the constraints of the circuit can be satisfied
exactly for the quoted output, if it meets the minimum outputs; the pool accepts exactly the
quoted output; and every match satisfies the constraints of the circuit on assets, price and
minimum outputs, if different assets have different field elements. -/
theorem one_price_rule :
  (∀ amountA amountB price minA minB : ℕ, amountA < 2 ^ 63 → amountB < 2 ^ 63 →
      price < 2 ^ 63 → minA < 2 ^ 63 → minB < 2 ^ 63 →
      (Priced amountA amountB price 1000000000 minA minB
        ↔ (amountB : ℤ) = quotedFromPrice amountA price ∧ minA ≤ amountB ∧ minB ≤ amountA))
    ∧ (∀ (w : World) (value price quoted : I128), 0 ≤ value.val → value.val < 2 ^ 63 →
        0 ≤ price.val → price.val < 2 ^ 63 → 0 ≤ quoted.val → quoted.val < 2 ^ 63 →
        ((requirePrice value price quoted).run w = .ok ((), w)
          ↔ quoted.val = quotedFromPrice value.val price.val))
    ∧ (∀ (assets : Set Text) (fieldId : Text → Fr), assets.InjOn fieldId →
        ∀ a b : PricedIntent, a.inputAsset ∈ assets → a.outputAsset ∈ assets → a.InRange →
        b.InRange → ∀ m, matchPricedPair a b = .ok (some m) →
        Paired (fieldId m.inputAssetA) (fieldId m.outputAssetA) (fieldId m.inputAssetB)
            (fieldId m.outputAssetB)
          ∧ ∃ amountA amountB price minA minB : ℕ,
            toInt? m.matchedAmountA = some (amountA : ℤ)
            ∧ toInt? m.matchedAmountB = some (amountB : ℤ)
            ∧ toInt? m.priceScaled = some (price : ℤ) ∧ toInt? m.minOutputA = some (minA : ℤ)
            ∧ toInt? m.minOutputB = some (minB : ℤ)
            ∧ Priced amountA amountB price 1000000000 minA minB)
  := by
  refine ⟨?_, ?_, ?_⟩
  · intro amountA amountB price minA minB hA hB hprice hminA hminB
    apply priced_iff_quoted hA hB hprice hminA hminB
  · intro w value price quoted hvalue hvalue' hprice hprice' _ _
    apply requirePrice_iff_quoted hvalue hvalue' hprice hprice'
  · intro assets fieldId hid a b hin hout ha hb m h
    apply matchPricedPair_priced hid hin hout ha hb h

/-- An offer of four units of USDC at half a unit of XLM each. -/
def usdcIntent : PricedIntent where
  intentId := "A".toList
  inputAsset := "USDC".toList
  outputAsset := "XLM".toList
  amount := 4000000
  minOutput := 1900000
  limitPriceScaled := 500000000

/-- An offer of two units of XLM at two units of USDC each. -/
def xlmIntent : PricedIntent where
  intentId := "B".toList
  inputAsset := "XLM".toList
  outputAsset := "USDC".toList
  amount := 2000000
  minOutput := 3900000
  limitPriceScaled := 2000000000

/-- A field element for an asset name: the sum of its characters. -/
def nameId (name : Text) : Fr := (name.map Char.toNat).sum

/-- The two offers match, at the price the circuit enforces. -/
theorem usdcIntent_match :
  (∃ m, matchPricedPair usdcIntent xlmIntent = .ok (some m)
      ∧ Paired (nameId m.inputAssetA) (nameId m.outputAssetA) (nameId m.inputAssetB)
        (nameId m.outputAssetB))
    ∧ Priced (4000000 : ℕ) (2000000 : ℕ) (500000000 : ℕ) 1000000000 (1900000 : ℕ) (3900000 : ℕ)
  := by
  obtain ⟨hcircuit, -, hmatch⟩ := one_price_rule
  have hid : Set.InjOn nameId {"USDC".toList, "XLM".toList} := by
    rintro x (rfl | rfl) y (rfl | rfl) h
    · rfl
    · exact absurd h (by decide)
    · exact absurd h (by decide)
    · rfl
  constructor
  · refine ⟨_, rfl, ?_⟩
    exact (hmatch _ nameId hid usdcIntent xlmIntent (by simp [usdcIntent]) (by simp [usdcIntent])
      ⟨by decide, by decide, by decide, by decide, by decide, by decide⟩
      ⟨by decide, by decide, by decide, by decide, by decide, by decide⟩ _ rfl).1
  · apply (hcircuit _ _ _ _ _ (by decide) (by decide) (by decide) (by decide) (by decide)).mpr
    decide

end Committee

end Shade
