import Shade.Circuit.Gadget
import Shade.Poseidon

/-!
# Settling a match of two notes

The circuits `MpcSettlement`, which crosses two notes of one asset, and
`MpcPricedSettlement`, which crosses two notes of different assets at a fixed price. Both
spend two notes and create two; neither returns what is left of a note that is not filled.
-/

namespace Shade

namespace MpcSettlement

/-- The input and output signals of `MpcSettlement(treeDepth, associationDepth)`. -/
structure Assignment (treeDepth associationDepth : ℕ) where
  stateRoot : Fr
  associationRoot : Fr
  batchHash : Fr
  poolId : Fr
  chainId : Fr
  matchedAmount7dp : Fr
  deadlineLedger : Fr
  assetId : Fr
  labelA : Fr
  valueA : Fr
  nullifierA : Fr
  secretA : Fr
  stateIndexA : Fr
  stateSiblingsA : List.Vector Fr treeDepth
  labelIndexA : Fr
  labelSiblingsA : List.Vector Fr associationDepth
  outValueA : Fr
  outLabelA : Fr
  outNullifierA : Fr
  outSecretA : Fr
  labelB : Fr
  valueB : Fr
  nullifierB : Fr
  secretB : Fr
  stateIndexB : Fr
  stateSiblingsB : List.Vector Fr treeDepth
  labelIndexB : Fr
  labelSiblingsB : List.Vector Fr associationDepth
  outValueB : Fr
  outLabelB : Fr
  outNullifierB : Fr
  outSecretB : Fr
  nullifierHashA : Fr
  nullifierHashB : Fr
  outputCommitmentA : Fr
  outputCommitmentB : Fr

variable {treeDepth associationDepth : ℕ}

namespace Assignment

/-- The note of party A the circuit spends. -/
def noteA (a : Assignment treeDepth associationDepth) : Note where
  assetId := a.assetId
  value := a.valueA
  label := a.labelA
  nullifier := a.nullifierA
  secret := a.secretA

/-- The note of party B the circuit spends. -/
def noteB (a : Assignment treeDepth associationDepth) : Note where
  assetId := a.assetId
  value := a.valueB
  label := a.labelB
  nullifier := a.nullifierB
  secret := a.secretB

/-- The first note the circuit creates. -/
def outNoteA (a : Assignment treeDepth associationDepth) : Note where
  assetId := a.assetId
  value := a.outValueA
  label := a.outLabelA
  nullifier := a.outNullifierA
  secret := a.outSecretA

/-- The second note the circuit creates. -/
def outNoteB (a : Assignment treeDepth associationDepth) : Note where
  assetId := a.assetId
  value := a.outValueB
  label := a.outLabelB
  nullifier := a.outNullifierB
  secret := a.outSecretB

/-- The public signals, the outputs first. -/
def publicSignals (a : Assignment treeDepth associationDepth) : List Fr :=
  [a.nullifierHashA, a.nullifierHashB, a.outputCommitmentA, a.outputCommitmentB, a.stateRoot,
    a.associationRoot, a.batchHash, a.poolId, a.chainId, a.matchedAmount7dp, a.deadlineLedger,
    a.assetId]

end Assignment

/-- The constraints of `MpcSettlement`. -/
structure Satisfied (H : Hash) (a : Assignment treeDepth associationDepth) : Prop where
  stateA : MerkleProof H a.stateSiblingsA (a.noteA.commitment H) a.stateIndexA a.stateRoot
  stateB : MerkleProof H a.stateSiblingsB (a.noteB.commitment H) a.stateIndexB a.stateRoot
  associationA : MerkleProof H a.labelSiblingsA a.labelA a.labelIndexA a.associationRoot
  associationB : MerkleProof H a.labelSiblingsB a.labelB a.labelIndexB a.associationRoot
  nullifierHashA : a.nullifierHashA = nullifierHashOf H a.nullifierA a.poolId a.chainId
  nullifierHashB : a.nullifierHashB = nullifierHashOf H a.nullifierB a.poolId a.chainId
  outputCommitmentA : a.outputCommitmentA = a.outNoteA.commitment H
  outputCommitmentB : a.outputCommitmentB = a.outNoteB.commitment H
  remainA : RangeCheck 128 (a.valueA - a.matchedAmount7dp)
  remainB : RangeCheck 128 (a.valueB - a.matchedAmount7dp)
  outSum : a.outValueA + a.outValueB = a.matchedAmount7dp * 2

/-- The value law of the settlement over the integers: the matched amount is within both
notes, the created values add up to twice the matched amount and to no more than was spent,
and they are 128-bit numbers. -/
def Assignment.ConservesValue (a : Assignment treeDepth associationDepth) : Prop :=
  a.matchedAmount7dp.val ≤ a.valueA.val ∧ a.matchedAmount7dp.val ≤ a.valueB.val
    ∧ a.outValueA.val + a.outValueB.val = 2 * a.matchedAmount7dp.val
    ∧ a.outValueA.val + a.outValueB.val ≤ a.valueA.val + a.valueB.val
    ∧ a.outValueA.val < 2 ^ 128 ∧ a.outValueB.val < 2 ^ 128

instance (a : Assignment treeDepth associationDepth) : Decidable a.ConservesValue :=
  inferInstanceAs (Decidable (_ ∧ _ ∧ _ ∧ _ ∧ _ ∧ _))

/-- A matched amount that is a 128-bit number is within a value it is matched against. -/
theorem matched_le {value matched : Fr} (hrange : RangeCheck 128 (value - matched))
    (hmatched : matched.val < 2 ^ 128) :
  matched.val ≤ value.val
  := by
  have hlt := hrange.val_lt (by decide)
  apply (PrimeField.val_le_of_sub_lt hlt _).1
  calc matched.val + 2 ^ 128 ≤ 2 ^ 128 + 2 ^ 128 := by omega
    _ ≤ r := by decide

/-- Created values that are 128-bit numbers add up to twice a 128-bit matched amount over
the integers. -/
theorem Satisfied.outValue_add {H : Hash} {a : Assignment treeDepth associationDepth}
    (hs : Satisfied H a) (hmatched : a.matchedAmount7dp.val < 2 ^ 128)
    (houtA : a.outValueA.val < 2 ^ 128) (houtB : a.outValueB.val < 2 ^ 128) :
  a.outValueA.val + a.outValueB.val = 2 * a.matchedAmount7dp.val
  := by
  have hr : 2 ^ 128 + 2 ^ 128 < r := by decide
  have hsum := congrArg ZMod.val hs.outSum
  rw [mul_two, ZMod.val_add_of_lt (by omega), ZMod.val_add_of_lt (by omega)] at hsum
  omega

/-- On notes of 128-bit values the circuit enforces the value law exactly for the
assignments in which the matched amount and the two created values, which it never
decomposes into bits, are 128-bit numbers. -/
theorem conservesValue_iff {H : Hash} {a : Assignment treeDepth associationDepth}
    (hs : Satisfied H a) (hA : a.valueA.val < 2 ^ 128) :
  a.ConservesValue
    ↔ a.matchedAmount7dp.val < 2 ^ 128 ∧ a.outValueA.val < 2 ^ 128 ∧ a.outValueB.val < 2 ^ 128
  := by
  constructor
  · rintro ⟨hmA, -, -, -, houtA, houtB⟩
    use lt_of_le_of_lt hmA hA, houtA
  · rintro ⟨hm, houtA, houtB⟩
    have hmA := matched_le hs.remainA hm
    have hmB := matched_le hs.remainB hm
    have hsum := hs.outValue_add hm houtA houtB
    use hmA, hmB, hsum, by omega, houtA

/-! ### A settlement of two notes beside each other -/

/-- The siblings of a leaf of an otherwise empty tree whose neighbour is given, with the
siblings above set to zero. -/
def siblingsOf (neighbour : Fr) : List.Vector Fr 12 :=
  neighbour ::ᵥ List.Vector.replicate 11 0

/-- The assignment that spends notes of values `valueA` and `valueB` at the leaves `0` and
`1`, and creates notes of values `outValueA` and `outValueB` for the matched amount. -/
def pairing (H : Hash) (valueA valueB matched outValueA outValueB : Fr) : Assignment 12 2 :=
  let noteA : Note := ⟨1, valueA, 5, 21, 31⟩
  let noteB : Note := ⟨1, valueB, 5, 22, 32⟩
  { stateRoot := climb H (noteA.commitment H) (pathOf 0 (siblingsOf (noteB.commitment H)))
    associationRoot := climb H 5 (pathOf 0 (List.Vector.replicate 2 0))
    batchHash := 9
    poolId := 1
    chainId := 27
    matchedAmount7dp := matched
    deadlineLedger := 1000
    assetId := 1
    labelA := 5
    valueA := valueA
    nullifierA := 21
    secretA := 31
    stateIndexA := 0
    stateSiblingsA := siblingsOf (noteB.commitment H)
    labelIndexA := 0
    labelSiblingsA := List.Vector.replicate 2 0
    outValueA := outValueA
    outLabelA := 5
    outNullifierA := 23
    outSecretA := 33
    labelB := 5
    valueB := valueB
    nullifierB := 22
    secretB := 32
    stateIndexB := 1
    stateSiblingsB := siblingsOf (noteA.commitment H)
    labelIndexB := 0
    labelSiblingsB := List.Vector.replicate 2 0
    outValueB := outValueB
    outLabelB := 5
    outNullifierB := 24
    outSecretB := 34
    nullifierHashA := nullifierHashOf H 21 1 27
    nullifierHashB := nullifierHashOf H 22 1 27
    outputCommitmentA := Note.commitment H ⟨1, outValueA, 5, 23, 33⟩
    outputCommitmentB := Note.commitment H ⟨1, outValueB, 5, 24, 34⟩ }

/-- Neighbouring leaves climb to the same root. -/
theorem climb_neighbours (H : Hash) (x y : Fr) :
  climb H y (pathOf 1 (siblingsOf x)) = climb H x (pathOf 0 (siblingsOf y))
  := by
  simp only [pathOf, siblingsOf, PrimeField.digits, List.Vector.toList_cons, List.zip_cons_cons,
    climb, multiMux1]
  norm_num

/-- Such an assignment satisfies the constraints as soon as its amounts do. -/
theorem pairing_satisfied (H : Hash) {valueA valueB matched outValueA outValueB : Fr}
    (hA : (valueA - matched).val < 2 ^ 128) (hB : (valueB - matched).val < 2 ^ 128)
    (hsum : outValueA + outValueB = matched * 2) :
  Satisfied H (pairing H valueA valueB matched outValueA outValueB)
  := by
  constructor
  · apply MerkleProof.of_climb 0 (by decide) rfl
  · have hroot := (climb_neighbours H (Note.commitment H ⟨1, valueA, 5, 21, 31⟩)
      (Note.commitment H ⟨1, valueB, 5, 22, 32⟩)).symm
    have hproof := MerkleProof.of_climb 1 (by decide) hroot
    rw [Nat.cast_one] at hproof
    apply hproof
  · apply MerkleProof.of_climb 0 (by decide) rfl
  · apply MerkleProof.of_climb 0 (by decide) rfl
  · rfl
  · rfl
  · rfl
  · rfl
  · apply RangeCheck.of_val_lt hA
  · apply RangeCheck.of_val_lt hB
  · apply hsum

/-- Two notes of 10 units can be settled into a note of `2 ^ 64` units and one of `20 - 2 ^ 64`
in the field. -/
theorem pairing_inflates :
  Satisfied poseidon255 (pairing poseidon255 10 10 10 (2 ^ 64) (20 - 2 ^ 64))
    ∧ (pairing poseidon255 10 10 10 (2 ^ 64) (20 - 2 ^ 64)).valueA.val < 2 ^ 128
    ∧ (pairing poseidon255 10 10 10 (2 ^ 64) (20 - 2 ^ 64)).valueB.val < 2 ^ 128
    ∧ ¬ (pairing poseidon255 10 10 10 (2 ^ 64) (20 - 2 ^ 64)).ConservesValue
  := by
  refine ⟨?_, by decide, by decide, by decide⟩
  apply pairing_satisfied
  · decide
  · decide
  · decide

/-- A settlement of notes of 10 and 20 units into notes of 5 and 15 units. -/
theorem pairing_conservesValue :
  (pairing poseidon255 10 20 10 5 15).ConservesValue
  := by
  have hs : Satisfied poseidon255 (pairing poseidon255 10 20 10 5 15) := by
    apply pairing_satisfied
    · decide
    · decide
    · decide
  apply (conservesValue_iff hs (by decide)).mpr
  decide

end MpcSettlement

namespace MpcPricedSettlement

/-- The input and output signals of `MpcPricedSettlement(treeDepth, associationDepth)`. -/
structure Assignment (treeDepth associationDepth : ℕ) where
  stateRoot : Fr
  associationRoot : Fr
  batchHash : Fr
  poolId : Fr
  chainId : Fr
  deadlineLedger : Fr
  inputAssetA : Fr
  outputAssetA : Fr
  inputAssetB : Fr
  outputAssetB : Fr
  matchedAmountA : Fr
  matchedAmountB : Fr
  priceScaled : Fr
  priceScale : Fr
  minOutputA : Fr
  minOutputB : Fr
  labelA : Fr
  nullifierA : Fr
  secretA : Fr
  stateIndexA : Fr
  stateSiblingsA : List.Vector Fr treeDepth
  labelIndexA : Fr
  labelSiblingsA : List.Vector Fr associationDepth
  labelB : Fr
  nullifierB : Fr
  secretB : Fr
  stateIndexB : Fr
  stateSiblingsB : List.Vector Fr treeDepth
  labelIndexB : Fr
  labelSiblingsB : List.Vector Fr associationDepth
  outLabelA : Fr
  outNullifierA : Fr
  outSecretA : Fr
  outLabelB : Fr
  outNullifierB : Fr
  outSecretB : Fr
  nullifierHashA : Fr
  nullifierHashB : Fr
  outputCommitmentA : Fr
  outputCommitmentB : Fr

variable {treeDepth associationDepth : ℕ}

namespace Assignment

/-- The note of party A the circuit spends. -/
def noteA (a : Assignment treeDepth associationDepth) : Note where
  assetId := a.inputAssetA
  value := a.matchedAmountA
  label := a.labelA
  nullifier := a.nullifierA
  secret := a.secretA

/-- The note of party B the circuit spends. -/
def noteB (a : Assignment treeDepth associationDepth) : Note where
  assetId := a.inputAssetB
  value := a.matchedAmountB
  label := a.labelB
  nullifier := a.nullifierB
  secret := a.secretB

/-- The note party A receives. -/
def outNoteA (a : Assignment treeDepth associationDepth) : Note where
  assetId := a.outputAssetA
  value := a.matchedAmountB
  label := a.outLabelA
  nullifier := a.outNullifierA
  secret := a.outSecretA

/-- The note party B receives. -/
def outNoteB (a : Assignment treeDepth associationDepth) : Note where
  assetId := a.outputAssetB
  value := a.matchedAmountA
  label := a.outLabelB
  nullifier := a.outNullifierB
  secret := a.outSecretB

/-- The public signals, the outputs first. -/
def publicSignals (a : Assignment treeDepth associationDepth) : List Fr :=
  [a.nullifierHashA, a.nullifierHashB, a.outputCommitmentA, a.outputCommitmentB, a.stateRoot,
    a.associationRoot, a.batchHash, a.poolId, a.chainId, a.deadlineLedger, a.inputAssetA,
    a.outputAssetA, a.inputAssetB, a.outputAssetB, a.matchedAmountA, a.matchedAmountB,
    a.priceScaled, a.priceScale, a.minOutputA, a.minOutputB]

end Assignment

/-- The constraints of `MpcPricedSettlement`. -/
structure Satisfied (H : Hash) (a : Assignment treeDepth associationDepth) : Prop where
  outputAssetA : a.outputAssetA = a.inputAssetB
  outputAssetB : a.outputAssetB = a.inputAssetA
  crossAsset : IsEqual a.inputAssetA a.inputAssetB 0
  priceScale : a.priceScale = 1000000000
  stateA : MerkleProof H a.stateSiblingsA (a.noteA.commitment H) a.stateIndexA a.stateRoot
  stateB : MerkleProof H a.stateSiblingsB (a.noteB.commitment H) a.stateIndexB a.stateRoot
  associationA : MerkleProof H a.labelSiblingsA a.labelA a.labelIndexA a.associationRoot
  associationB : MerkleProof H a.labelSiblingsB a.labelB a.labelIndexB a.associationRoot
  nullifierHashA : a.nullifierHashA = nullifierHashOf H a.nullifierA a.poolId a.chainId
  nullifierHashB : a.nullifierHashB = nullifierHashOf H a.nullifierB a.poolId a.chainId
  outputCommitmentA : a.outputCommitmentA = a.outNoteA.commitment H
  outputCommitmentB : a.outputCommitmentB = a.outNoteB.commitment H
  scaled_le_prod :
    LessEqThan 128 (a.matchedAmountB * a.priceScale) (a.matchedAmountA * a.priceScaled) 1
  rem_lt :
    LessThan 64 (a.matchedAmountA * a.priceScaled - a.matchedAmountB * a.priceScale)
      a.priceScale 1
  minOutputA : GreaterEqThan 64 a.matchedAmountB a.minOutputA 1
  minOutputB : GreaterEqThan 64 a.matchedAmountA a.minOutputB 1

/-- The constraints on the assets alone. -/
structure Paired (inputAssetA outputAssetA inputAssetB outputAssetB : Fr) : Prop where
  outputA_eq : outputAssetA = inputAssetB
  outputB_eq : outputAssetB = inputAssetA
  cross : IsEqual inputAssetA inputAssetB 0

/-- The constraints on the price and the minimum outputs alone. -/
structure Priced (matchedAmountA matchedAmountB priceScaled priceScale minOutputA minOutputB : Fr) :
    Prop where
  scale_eq : priceScale = 1000000000
  scaled_le_prod : LessEqThan 128 (matchedAmountB * priceScale) (matchedAmountA * priceScaled) 1
  rem_lt :
    LessThan 64 (matchedAmountA * priceScaled - matchedAmountB * priceScale) priceScale 1
  minA_le : GreaterEqThan 64 matchedAmountB minOutputA 1
  minB_le : GreaterEqThan 64 matchedAmountA minOutputB 1

/-- The constraints on the price and the minimum outputs of an assignment. -/
theorem Satisfied.priced {H : Hash} {a : Assignment treeDepth associationDepth}
    (hs : Satisfied H a) :
  Priced a.matchedAmountA a.matchedAmountB a.priceScaled a.priceScale a.minOutputA a.minOutputB
  := ⟨hs.priceScale, hs.scaled_le_prod, hs.rem_lt, hs.minOutputA, hs.minOutputB⟩

end MpcPricedSettlement

end Shade
