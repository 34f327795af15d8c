import Shade.Circuit.Gadget

/-!
# The compliance circuit

`ComplianceMembership` proves that a label is in the allow tree and not in the deny tree. The
labels of the deny tree are sorted, and absence is shown by two leaves of it at consecutive
indices, one below the label and one above.
-/

namespace Shade

/-- The signals of `MerkleProof(depth)` other than its leaf and its output: the index of the
leaf, the siblings on its path and the digits into which the index is decomposed. -/
structure MerkleSignals (depth : ℕ) where
  leafIndex : Fr
  siblings : List.Vector Fr depth
  indices : List Fr
deriving DecidableEq

namespace MerkleSignals

variable {depth : ℕ}

/-- The constraints of the component: the path of the digits leads from the leaf to the
output. -/
def Leads (H : Hash) (m : MerkleSignals depth) (leaf out : Fr) : Prop :=
  Num2Bits depth m.leafIndex m.indices ∧ out = climb H leaf (m.indices.zip m.siblings.toList)

/-- The inputs the component hashes. -/
def hashInputs (H : Hash) (m : MerkleSignals depth) (leaf : Fr) : List (List Fr) :=
  climbInputs H leaf (m.indices.zip m.siblings.toList)

end MerkleSignals

namespace ComplianceMembership

/-- The signals of `ComplianceMembership(allowDepth, denyDepth, rangeBits)`. -/
structure Assignment (allowDepth denyDepth : ℕ) where
  allowRoot : Fr
  denyRoot : Fr
  policyId : Fr
  label : Fr
  allowP : MerkleSignals allowDepth
  denyLo : Fr
  loP : MerkleSignals denyDepth
  denyHi : Fr
  hiP : MerkleSignals denyDepth
  polBind : Fr
  ok : Fr
deriving DecidableEq

variable {allowDepth denyDepth : ℕ}

/-- The inputs the circuit hashes. -/
def Assignment.hashInputs (H : Hash) (a : Assignment allowDepth denyDepth) : List (List Fr) :=
  a.allowP.hashInputs H a.label ++ a.loP.hashInputs H a.denyLo ++ a.hiP.hashInputs H a.denyHi

/-- The constraints of `ComplianceMembership`. -/
structure Satisfied (H : Hash) (rangeBits : ℕ) (a : Assignment allowDepth denyDepth) : Prop where
  allow : a.allowP.Leads H a.label a.allowRoot
  lo : a.loP.Leads H a.denyLo a.denyRoot
  hi : a.hiP.Leads H a.denyHi a.denyRoot
  rangeLo : RangeCheck rangeBits a.denyLo
  rangeLabel : RangeCheck rangeBits a.label
  rangeHi : RangeCheck rangeBits a.denyHi
  ltLo : LessThan rangeBits a.denyLo a.label 1
  ltHi : LessThan rangeBits a.label a.denyHi 1
  adjacent : a.hiP.leafIndex = a.loP.leafIndex + 1
  polBind : a.polBind = a.policyId * a.policyId
  ok : a.ok = 1

end ComplianceMembership

/-- The comparator on numbers of as many bits as it has. -/
theorem lessThan_iff_val_lt {n : ℕ} (hn : n ≤ 253) {x y : Fr} (hx : x.val < 2 ^ n)
    (hy : y.val < 2 ^ n) :
  LessThan n x y 1 ↔ x.val < y.val
  := by
  have hr : 2 ^ n + 2 ^ n ≤ r := by
    calc 2 ^ n + 2 ^ n ≤ 2 ^ 253 + 2 ^ 253 := by
          have := Nat.pow_le_pow_right (by decide : 0 < 2) hn
          omega
      _ ≤ r := by decide
  have hcast : x + (2 ^ n : ℕ) - y = ((x.val + (2 ^ n - y.val) : ℕ) : Fr) := by
    rw [Nat.cast_add, Nat.cast_sub hy.le, ZMod.natCast_zmod_val, ZMod.natCast_zmod_val]
    ring
  rw [lessThan_one_iff hn, hcast, ZMod.val_natCast, Nat.mod_eq_of_lt (by omega)]
  omega

end Shade
