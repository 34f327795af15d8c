import Shade.Circuit.Gadget

/-!
# Spending one note

The circuits `Withdraw`, behind withdrawals, CCTP exits and RFQ settlements, and
`PrivateTransfer`. An assignment gives a value to every input and output signal of the
circuit; the signals in between are functions of these, or are quantified in the
components. The squares that only bind a public input into the constraint system put no
condition on it.
-/

namespace Shade

namespace Withdraw

/-- The input and output signals of `Withdraw(treeDepth, associationDepth)`. -/
structure Assignment (treeDepth associationDepth : ℕ) where
  operationType : Fr
  withdrawnValue : Fr
  recipientHash : Fr
  relayerFee : Fr
  deadlineLedger : Fr
  stateRoot : Fr
  associationRoot : Fr
  poolId : Fr
  chainId : Fr
  quoteHash : Fr
  intentHash : Fr
  fillReceiptHash : Fr
  destinationDomain : Fr
  destinationRecipient : Fr
  maxFee : Fr
  minFinalityThreshold : Fr
  assetId : Fr
  label : Fr
  value : Fr
  nullifier : Fr
  secret : Fr
  stateSiblings : List.Vector Fr treeDepth
  stateIndex : Fr
  labelIndex : Fr
  labelSiblings : List.Vector Fr associationDepth
  nullifierHash : Fr

variable {treeDepth associationDepth : ℕ}

/-- The note the circuit spends. -/
def Assignment.note (a : Assignment treeDepth associationDepth) : Note where
  assetId := a.assetId
  value := a.value
  label := a.label
  nullifier := a.nullifier
  secret := a.secret

/-- The public signals, the output first. -/
def Assignment.publicSignals (a : Assignment treeDepth associationDepth) : List Fr :=
  [a.nullifierHash, a.operationType, a.withdrawnValue, a.recipientHash, a.relayerFee,
    a.deadlineLedger, a.stateRoot, a.associationRoot, a.poolId, a.chainId, a.quoteHash,
    a.intentHash, a.fillReceiptHash, a.destinationDomain, a.destinationRecipient, a.maxFee,
    a.minFinalityThreshold, a.assetId]

/-- The inputs the circuit hashes. -/
def Assignment.hashInputs (H : Hash) (a : Assignment treeDepth associationDepth) :
    List (List Fr) :=
  a.note.inputs H ++ [a.nullifier, a.poolId, a.chainId]
    :: climbInputs H (a.note.commitment H) (pathOf a.stateIndex.val a.stateSiblings)
    ++ climbInputs H a.label (pathOf a.labelIndex.val a.labelSiblings)

/-- The constraints of `Withdraw`. -/
structure Satisfied (H : Hash) (a : Assignment treeDepth associationDepth) : Prop where
  nullifierHash : a.nullifierHash = nullifierHashOf H a.nullifier a.poolId a.chainId
  state : MerkleProof H a.stateSiblings (a.note.commitment H) a.stateIndex a.stateRoot
  association : MerkleProof H a.labelSiblings a.label a.labelIndex a.associationRoot
  remainingValue : RangeCheck 128 (a.value - a.withdrawnValue)
  withdrawnValue : RangeCheck 128 a.withdrawnValue
  netOutput : RangeCheck 128 (a.withdrawnValue - a.relayerFee)
  relayerFee : RangeCheck 128 a.relayerFee

/-- The withdrawn value is at most the value of the note, and what remains of the note is
their difference. -/
theorem Satisfied.value_eq {H : Hash} {a : Assignment treeDepth associationDepth}
    (hs : Satisfied H a) :
  a.value.val = (a.value - a.withdrawnValue).val + a.withdrawnValue.val
  := by
  have hrem := hs.remainingValue.val_lt (by decide)
  have hwith := hs.withdrawnValue.val_lt (by decide)
  apply PrimeField.val_eq_sub_add
  calc (a.value - a.withdrawnValue).val + a.withdrawnValue.val < 2 ^ 128 + 2 ^ 128 := by omega
    _ < r := by decide

theorem Satisfied.withdrawnValue_le {H : Hash} {a : Assignment treeDepth associationDepth}
    (hs : Satisfied H a) :
  a.withdrawnValue.val ≤ a.value.val
  := by
  have := hs.value_eq
  omega

/-- The value of the note is the sum of two numbers of 128 bits. -/
theorem Satisfied.value_lt {H : Hash} {a : Assignment treeDepth associationDepth}
    (hs : Satisfied H a) :
  a.value.val < 2 ^ 129
  := by
  have hrem := hs.remainingValue.val_lt (by decide)
  have hwith := hs.withdrawnValue.val_lt (by decide)
  have := hs.value_eq
  omega

/-- The relayer's fee is at most the withdrawn value. -/
theorem Satisfied.relayerFee_le {H : Hash} {a : Assignment treeDepth associationDepth}
    (hs : Satisfied H a) :
  a.relayerFee.val ≤ a.withdrawnValue.val
  := by
  have hnet := hs.netOutput.val_lt (by decide)
  have hfee := hs.relayerFee.val_lt (by decide)
  have hsum : (a.withdrawnValue - a.relayerFee).val + a.relayerFee.val < r := by
    calc (a.withdrawnValue - a.relayerFee).val + a.relayerFee.val < 2 ^ 128 + 2 ^ 128 := by omega
      _ < r := by decide
  have := PrimeField.val_eq_sub_add hsum
  omega

end Withdraw

namespace PrivateTransfer

/-- The input and output signals of `PrivateTransfer(treeDepth, associationDepth)`. -/
structure Assignment (treeDepth associationDepth : ℕ) where
  outputCommitment : Fr
  feePublic : Fr
  stateRoot : Fr
  associationRoot : Fr
  poolId : Fr
  chainId : Fr
  inputAssetId : Fr
  outputAssetId : Fr
  inValue : Fr
  inLabel : Fr
  inNullifier : Fr
  inSecret : Fr
  stateSiblings : List.Vector Fr treeDepth
  stateIndex : Fr
  labelIndex : Fr
  labelSiblings : List.Vector Fr associationDepth
  outValue : Fr
  outLabel : Fr
  outNullifier : Fr
  outSecret : Fr
  nullifierHash : Fr

variable {treeDepth associationDepth : ℕ}

/-- The note the circuit spends. -/
def Assignment.inNote (a : Assignment treeDepth associationDepth) : Note where
  assetId := a.inputAssetId
  value := a.inValue
  label := a.inLabel
  nullifier := a.inNullifier
  secret := a.inSecret

/-- The note the circuit creates. -/
def Assignment.outNote (a : Assignment treeDepth associationDepth) : Note where
  assetId := a.outputAssetId
  value := a.outValue
  label := a.outLabel
  nullifier := a.outNullifier
  secret := a.outSecret

/-- The public signals, the output first. -/
def Assignment.publicSignals (a : Assignment treeDepth associationDepth) : List Fr :=
  [a.nullifierHash, a.outputCommitment, a.feePublic, a.stateRoot, a.associationRoot, a.poolId,
    a.chainId, a.inputAssetId, a.outputAssetId]

/-- The constraints of `PrivateTransfer`. -/
structure Satisfied (H : Hash) (a : Assignment treeDepth associationDepth) : Prop where
  asset : a.inputAssetId = a.outputAssetId
  state : MerkleProof H a.stateSiblings (a.inNote.commitment H) a.stateIndex a.stateRoot
  nullifierHash : a.nullifierHash = nullifierHashOf H a.inNullifier a.poolId a.chainId
  outputCommitment : a.outputCommitment = a.outNote.commitment H
  conservation : a.inValue = a.outValue + a.feePublic
  outValue : RangeCheck 128 a.outValue
  feePublic : RangeCheck 128 a.feePublic
  association : MerkleProof H a.labelSiblings a.inLabel a.labelIndex a.associationRoot

/-- A transfer conserves value over the integers. -/
theorem Satisfied.inValue_eq {H : Hash} {a : Assignment treeDepth associationDepth}
    (hs : Satisfied H a) :
  a.inValue.val = a.outValue.val + a.feePublic.val
  := by
  have hout := hs.outValue.val_lt (by decide)
  have hfee := hs.feePublic.val_lt (by decide)
  have hsum : a.outValue.val + a.feePublic.val < r := by
    calc a.outValue.val + a.feePublic.val < 2 ^ 128 + 2 ^ 128 := by omega
      _ < r := by decide
  rw [hs.conservation, ZMod.val_add_of_lt hsum]

end PrivateTransfer

end Shade
