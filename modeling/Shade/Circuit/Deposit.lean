import Shade.Circuit.Gadget

/-!
# Minting a note for a deposit

The circuit `DepositNoteMint` opens the commitment that a deposit inserts, and bounds the
value of the note by the amount that was minted.
-/

namespace Shade

namespace DepositNoteMint

/-- The input and output signals of `DepositNoteMint()`. -/
structure Assignment where
  operationType : Fr
  sourceDomain : Fr
  destinationDomain : Fr
  cctpNonceHash : Fr
  burnTxHashHash : Fr
  amount6dp : Fr
  amount7dp : Fr
  assetIdHash : Fr
  recipientPool : Fr
  encryptedNotePayloadHash : Fr
  policyIdHash : Fr
  poolId : Fr
  chainId : Fr
  value : Fr
  label : Fr
  nullifier : Fr
  secret : Fr
  commitment : Fr

/-- The note the circuit opens. -/
def Assignment.note (a : Assignment) : Note where
  assetId := a.assetIdHash
  value := a.value
  label := a.label
  nullifier := a.nullifier
  secret := a.secret

/-- The public signals, the output first. -/
def Assignment.publicSignals (a : Assignment) : List Fr :=
  [a.commitment, a.operationType, a.sourceDomain, a.destinationDomain, a.cctpNonceHash,
    a.burnTxHashHash, a.amount6dp, a.amount7dp, a.assetIdHash, a.recipientPool,
    a.encryptedNotePayloadHash, a.policyIdHash, a.poolId, a.chainId]

/-- The constraints of `DepositNoteMint`. -/
structure Satisfied (H : Hash) (a : Assignment) : Prop where
  commitment : a.commitment = a.note.commitment H
  surplus : RangeCheck 128 (a.amount7dp - a.value)
  value : RangeCheck 128 a.value

/-- The minted amount is the value of the note and a 128-bit surplus, over the integers. -/
theorem Satisfied.amount7dp_eq {H : Hash} {a : Assignment} (hs : Satisfied H a) :
  a.amount7dp.val = (a.amount7dp - a.value).val + a.value.val
  := by
  have hsurplus := hs.surplus.val_lt (by decide)
  have hvalue := hs.value.val_lt (by decide)
  apply PrimeField.val_eq_sub_add
  calc (a.amount7dp - a.value).val + a.value.val < 2 ^ 128 + 2 ^ 128 := by omega
    _ < r := by decide

end DepositNoteMint

end Shade
