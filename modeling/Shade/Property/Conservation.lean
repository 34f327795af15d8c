import Shade.Pool.Deployment

/-!
# Conservation of value

What the four circuits that spend notes do to value. A circuit consumes notes, creates
notes, and releases a public amount of one asset. Asset by asset and over the integers, the
consumed value is the created value, the released amount, and what the circuit leaves
unspent: `Withdraw` and `MpcSettlement` create no note for the rest of a note that is not
used up, `PrivateTransfer` and `MpcPricedSettlement` leave nothing.
-/

namespace Shade

/-- The value of the notes of an asset. -/
def worth (asset : Fr) (notes : List Note) : ℤ :=
  (notes.map fun n => if n.assetId = asset then (n.value.val : ℤ) else 0).sum

/-- What a spend does to value: the notes it consumes and creates, and the amount it
releases of an asset. -/
structure Flow where
  consumed : List Note
  created : List Note
  asset : Fr
  released : ℤ

/-- The consumed value is the created value, the released amount and the given loss in the
asset released, for every asset. -/
def Flow.Balances (f : Flow) (lost : ℤ) : Prop :=
  ∀ asset, worth asset f.consumed
    = worth asset f.created + if f.asset = asset then f.released + lost else 0

/-- An assignment of one of the circuits that spend notes. -/
inductive SpendAssignment (treeDepth associationDepth : ℕ) where
  | withdraw (a : Withdraw.Assignment treeDepth associationDepth)
  | privateTransfer (a : PrivateTransfer.Assignment treeDepth associationDepth)
  | mpcSettlement (a : MpcSettlement.Assignment treeDepth associationDepth)
  | mpcPricedSettlement (a : MpcPricedSettlement.Assignment treeDepth associationDepth)

namespace SpendAssignment

variable {treeDepth associationDepth : ℕ}

/-- The assignment satisfies the constraints of its circuit. -/
def Satisfied (H : Hash) : SpendAssignment treeDepth associationDepth → Prop
  | withdraw a => Withdraw.Satisfied H a
  | privateTransfer a => PrivateTransfer.Satisfied H a
  | mpcSettlement a => MpcSettlement.Satisfied H a
  | mpcPricedSettlement a => MpcPricedSettlement.Satisfied H a

/-- The values of the notes and the public amounts. -/
def amounts : SpendAssignment treeDepth associationDepth → List Fr
  | withdraw a => [a.value, a.withdrawnValue, a.relayerFee]
  | privateTransfer a => [a.inValue, a.outValue, a.feePublic]
  | mpcSettlement a => [a.valueA, a.valueB, a.outValueA, a.outValueB, a.matchedAmount7dp]
  | mpcPricedSettlement a => [a.matchedAmountA, a.matchedAmountB]

/-- The amounts have at most 120 bits. -/
def Small (a : SpendAssignment treeDepth associationDepth) : Prop :=
  ∀ x ∈ a.amounts, x.val < 2 ^ 120

instance (a : SpendAssignment treeDepth associationDepth) : Decidable a.Small :=
  List.decidableBAll _ a.amounts

/-- What the circuit does to value. -/
def flow : SpendAssignment treeDepth associationDepth → Flow
  | withdraw a => ⟨[a.note], [], a.assetId, a.withdrawnValue.val⟩
  | privateTransfer a => ⟨[a.inNote], [a.outNote], a.inputAssetId, a.feePublic.val⟩
  | mpcSettlement a => ⟨[a.noteA, a.noteB], [a.outNoteA, a.outNoteB], a.assetId, 0⟩
  | mpcPricedSettlement a => ⟨[a.noteA, a.noteB], [a.outNoteA, a.outNoteB], a.inputAssetA, 0⟩

/-- What is left of the notes beyond what is withdrawn or matched. -/
def unspent : SpendAssignment treeDepth associationDepth → ℤ
  | withdraw a => a.value.val - a.withdrawnValue.val
  | mpcSettlement a =>
      (a.valueA.val - a.matchedAmount7dp.val) + (a.valueB.val - a.matchedAmount7dp.val)
  | privateTransfer _ => 0
  | mpcPricedSettlement _ => 0

/-- For amounts of at most 120 bits, the consumed value is the created value, the released
amount and what is left unspent, which is never negative. -/
theorem flow_balances {H : Hash} {a : SpendAssignment treeDepth associationDepth}
    (hs : a.Satisfied H) (hsmall : a.Small) :
  0 ≤ a.unspent ∧ a.flow.Balances a.unspent
  := by
  cases a with
  | withdraw a =>
      have hle := Withdraw.Satisfied.withdrawnValue_le hs
      constructor
      · simp only [unspent]
        omega
      · intro asset
        simp only [flow, unspent, worth, Withdraw.Assignment.note, List.map_cons, List.map_nil,
          List.sum_cons, List.sum_nil]
        by_cases hasset : a.assetId = asset
        · simp [hasset]
        · simp [hasset]
  | privateTransfer a =>
      have hvalue := PrivateTransfer.Satisfied.inValue_eq hs
      have hasset := PrivateTransfer.Satisfied.asset hs
      constructor
      · simp only [unspent]
        omega
      · intro asset
        simp only [flow, unspent, worth, PrivateTransfer.Assignment.inNote,
          PrivateTransfer.Assignment.outNote, List.map_cons, List.map_nil, List.sum_cons,
          List.sum_nil, ← hasset]
        by_cases hinput : a.inputAssetId = asset
        · simp [hinput, -ZMod.natCast_val]
          omega
        · simp [hinput]
  | mpcSettlement a =>
      have hmatched := hsmall a.matchedAmount7dp (by simp [amounts])
      have houtA := hsmall a.outValueA (by simp [amounts])
      have houtB := hsmall a.outValueB (by simp [amounts])
      have hmA := MpcSettlement.matched_le (MpcSettlement.Satisfied.remainA hs) (by omega)
      have hmB := MpcSettlement.matched_le (MpcSettlement.Satisfied.remainB hs) (by omega)
      have hsum := MpcSettlement.Satisfied.outValue_add hs (by omega) (by omega) (by omega)
      constructor
      · simp only [unspent]
        omega
      · intro asset
        simp only [flow, unspent, worth, MpcSettlement.Assignment.noteA,
          MpcSettlement.Assignment.noteB, MpcSettlement.Assignment.outNoteA,
          MpcSettlement.Assignment.outNoteB, List.map_cons, List.map_nil, List.sum_cons,
          List.sum_nil]
        by_cases hasset : a.assetId = asset
        · simp [hasset, -ZMod.natCast_val]
          omega
        · simp [hasset]
  | mpcPricedSettlement a =>
      have hassetA := MpcPricedSettlement.Satisfied.outputAssetA hs
      have hassetB := MpcPricedSettlement.Satisfied.outputAssetB hs
      constructor
      · simp only [unspent]
        omega
      · intro asset
        simp only [flow, unspent, worth, MpcPricedSettlement.Assignment.noteA,
          MpcPricedSettlement.Assignment.noteB, MpcPricedSettlement.Assignment.outNoteA,
          MpcPricedSettlement.Assignment.outNoteB, List.map_cons, List.map_nil, List.sum_cons,
          List.sum_nil, hassetA, hassetB, add_zero, ite_self]
        apply add_comm

end SpendAssignment

namespace Pool.Deployment

/-- The terms of a withdrawal of 400 units of the note. -/
def partialTerms : Terms where
  operationType := 1
  withdrawnValue := (400 : ℕ)
  recipientHash := 0
  relayerFee := 0
  poolId := 1
  nullifierHash := nullifierHashOf poseidon255 note.nullifier 1 (27 : ℕ)
  quoteHash := 0
  destinationDomain := 0
  destinationRecipient := 0
  maxFee := 0

theorem partialTerms_satisfied :
  Withdraw.Satisfied poseidon255 (spend partialTerms)
  := spend_satisfied rfl (by decide) (by decide)

theorem pairing_partial_satisfied :
  MpcSettlement.Satisfied poseidon255 (MpcSettlement.pairing poseidon255 10 20 10 5 15)
  := MpcSettlement.pairing_satisfied poseidon255 (by decide) (by decide) (by decide)

/-- A withdrawal of 400 out of 1000 units and a settlement of 10 out of 10 and 20 units meet
the constraints, with small amounts, and lose the rest. -/
theorem spend_loses :
  ((SpendAssignment.withdraw (spend partialTerms)).Satisfied poseidon255
      ∧ (SpendAssignment.withdraw (spend partialTerms)).Small
      ∧ ¬ (SpendAssignment.withdraw (spend partialTerms)).flow.Balances 0)
    ∧ (SpendAssignment.mpcSettlement (MpcSettlement.pairing poseidon255 10 20 10 5 15)).Satisfied
        poseidon255
      ∧ (SpendAssignment.mpcSettlement (MpcSettlement.pairing poseidon255 10 20 10 5 15)).Small
      ∧ ¬ (SpendAssignment.mpcSettlement
          (MpcSettlement.pairing poseidon255 10 20 10 5 15)).flow.Balances 0
  := by
  refine ⟨⟨partialTerms_satisfied, by decide, ?_⟩,
    pairing_partial_satisfied, by decide, ?_⟩
  · intro h
    have hworth := h usdcId.toFr
    revert hworth
    decide
  · intro h
    have hworth := h 1
    revert hworth
    decide

/-- The withdrawal leaves 600 units unspent, and the settlement 10. -/
theorem spend_balances :
  (SpendAssignment.withdraw (spend partialTerms)).flow.Balances 600
    ∧ (SpendAssignment.mpcSettlement
        (MpcSettlement.pairing poseidon255 10 20 10 5 15)).flow.Balances 10
  := by
  constructor
  · apply (SpendAssignment.flow_balances (H := poseidon255)
      (a := .withdraw (spend partialTerms)) partialTerms_satisfied (by decide)).2
  · apply (SpendAssignment.flow_balances (H := poseidon255)
      (a := .mpcSettlement (MpcSettlement.pairing poseidon255 10 20 10 5 15))
      pairing_partial_satisfied (by decide)).2

end Pool.Deployment

end Shade
