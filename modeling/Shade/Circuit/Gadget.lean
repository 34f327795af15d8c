import Shade.Host
import Shade.Library.Eager

/-!
# Circuit components

The components the circuits are made of, as relations between their input and output
signals: the bit decomposition and the comparators of circomlib, the Merkle membership
proof and the note commitment. A signal assigned by a hash component is the hash of its
inputs, so a component that only hashes is the function it computes.

The circuits use a hash of field elements as the host provides it; nothing here depends
on which one.
-/

namespace Shade

open PrimeField

/-- `Num2Bits(n)`: the output signals are the `n` binary digits of the input, least
significant first. -/
def Num2Bits (n : ℕ) (input : Fr) (out : List Fr) : Prop :=
  out.length = n ∧ Decomposes out input

/-- A signal that is decomposed by `Num2Bits(n)`, with the output not used further. -/
def RangeCheck (n : ℕ) (input : Fr) : Prop :=
  ∃ out, Num2Bits n input out

/-- A signal decomposed into fewer bits than the field has stands for an integer of that
many bits. -/
theorem RangeCheck.val_lt {n : ℕ} {x : Fr} (h : RangeCheck n x) (hn : n ≤ 254) :
  x.val < 2 ^ n
  := by
  obtain ⟨out, hlen, hbits⟩ := h
  rw [← hlen] at hn ⊢
  apply hbits.val_lt
  calc 2 ^ out.length ≤ 2 ^ 254 := Nat.pow_le_pow_right (by decide) hn
    _ ≤ r := by decide

/-- A signal that stands for an integer of `n` bits can be decomposed. -/
theorem RangeCheck.of_val_lt {n : ℕ} {x : Fr} (h : x.val < 2 ^ n) :
  RangeCheck n x
  := by
  have : NeZero r := ⟨r_prime.ne_zero⟩
  use digits n x.val, length_digits n x.val
  apply decomposes_of_val_lt h

/-- `IsZero()`. -/
def IsZero (input out : Fr) : Prop :=
  ∃ inv : Fr, out = -input * inv + 1 ∧ input * out = 0

/-- `IsEqual()`. -/
def IsEqual (x y out : Fr) : Prop :=
  IsZero (y - x) out

/-- The component answers that two signals differ exactly if they do. -/
theorem isEqual_zero_iff {x y : Fr} :
  IsEqual x y 0 ↔ x ≠ y
  := by
  constructor
  · rintro ⟨inv, hout, -⟩ rfl
    rw [sub_self, neg_zero, zero_mul, zero_add] at hout
    apply zero_ne_one hout
  · intro hne
    have hdiff : y - x ≠ 0 := sub_ne_zero.mpr (Ne.symm hne)
    use (y - x)⁻¹
    constructor
    · rw [neg_mul, mul_inv_cancel₀ hdiff, neg_add_cancel]
    · rw [mul_zero]

/-- `LessThan(n)`. -/
def LessThan (n : ℕ) (x y out : Fr) : Prop :=
  ∃ bits : List Fr, Num2Bits (n + 1) (x + (2 ^ n : ℕ) - y) bits ∧ out = 1 - bits.getD n 0

/-- `LessEqThan(n)`. -/
def LessEqThan (n : ℕ) (x y out : Fr) : Prop :=
  LessThan n x (y + 1) out

/-- `GreaterEqThan(n)`. -/
def GreaterEqThan (n : ℕ) (x y out : Fr) : Prop :=
  LessThan n y (x + 1) out

/-- The comparator answers that the first input is smaller exactly if their difference,
moved up by `2 ^ n`, stands for an integer of `n` bits. -/
theorem lessThan_one_iff {n : ℕ} {x y : Fr} (hn : n ≤ 253) :
  LessThan n x y 1 ↔ (x + (2 ^ n : ℕ) - y).val < 2 ^ n
  := by
  have hr : 2 ^ (n + 1) ≤ r := by
    calc 2 ^ (n + 1) ≤ 2 ^ 254 := Nat.pow_le_pow_right (by decide) (by omega)
      _ ≤ r := by decide
  constructor
  · rintro ⟨bits, ⟨hlen, hbits⟩, hout⟩
    obtain ⟨k, hk, hdigits, hx⟩ := hbits.exists_nat
    rw [hlen] at hk hdigits
    rw [hx, ZMod.val_natCast, Nat.mod_eq_of_lt (by omega)]
    rw [hdigits, getD_digits (Nat.lt_succ_self n)] at hout
    by_contra hge
    have hdigit : k / 2 ^ n = 1 := by
      rw [pow_succ] at hk
      apply Nat.div_eq_of_lt_le <;> omega
    rw [hdigit, if_pos rfl, sub_self] at hout
    apply one_ne_zero hout
  · intro hlt
    have hlt' : (x + (2 ^ n : ℕ) - y).val < 2 ^ (n + 1) := by
      rw [pow_succ]
      omega
    have : NeZero r := ⟨r_prime.ne_zero⟩
    use digits (n + 1) (x + (2 ^ n : ℕ) - y).val
    refine ⟨⟨length_digits _ _, decomposes_of_val_lt hlt'⟩, ?_⟩
    rw [getD_digits (Nat.lt_succ_self n), Nat.div_eq_of_lt hlt, if_neg (by decide), sub_zero]

/-- No two of the inputs have the same hash. -/
def CollisionFree (H : Hash) (inputs : List (List Fr)) : Prop :=
  ∀ x ∈ inputs, ∀ y ∈ inputs, H x = H y → x = y

/-- Hashes that differ as numbers, whenever the inputs do, make no collision. -/
theorem collisionFree_of_injectiveOn {H : Hash} {inputs : List (List Fr)}
    (h : Eager.injectiveOn (List.map ZMod.val) (fun x => (H x).val) inputs = true) :
  CollisionFree H inputs
  := by
  intro x hx y hy hxy
  have hkey := Eager.key_eq_of_injectiveOn h hx hy (congrArg ZMod.val hxy)
  have : NeZero r := ⟨r_prime.ne_zero⟩
  apply List.map_injective_iff.mpr (ZMod.val_injective r) hkey

/-! ### Merkle membership -/

/-- `MultiMux1(2)` on the two orderings of a node and its sibling. -/
def multiMux1 (s node sibling : Fr) : List Fr :=
  [(sibling - node) * s + node, (node - sibling) * s + sibling]

/-- The node above a node along a path, given from the bottom by index bits and
siblings. -/
def climb (H : Hash) : Fr → List (Fr × Fr) → Fr
  | node, [] => node
  | node, (s, sibling) :: path => climb H (H (multiMux1 s node sibling)) path

/-- The inputs hashed while climbing a path. -/
def climbInputs (H : Hash) : Fr → List (Fr × Fr) → List (List Fr)
  | _, [] => []
  | node, (s, sibling) :: path =>
      multiMux1 s node sibling :: climbInputs H (H (multiMux1 s node sibling)) path

/-- `MerkleProof(depth)`. -/
def MerkleProof (H : Hash) {depth : ℕ} (siblings : List.Vector Fr depth)
    (leaf leafIndex out : Fr) : Prop :=
  ∃ indices, Num2Bits depth leafIndex indices ∧ out = climb H leaf (indices.zip siblings.toList)

/-- The path of a leaf index through the given siblings. -/
def pathOf {depth : ℕ} (index : ℕ) (siblings : List.Vector Fr depth) : List (Fr × Fr) :=
  (digits depth index).zip siblings.toList

/-- Climbing the path of an index satisfies the membership component. -/
theorem MerkleProof.of_climb {H : Hash} {depth : ℕ} {siblings : List.Vector Fr depth}
    {leaf out : Fr} (index : ℕ) (hindex : index < 2 ^ depth)
    (hout : out = climb H leaf (pathOf index siblings)) :
  MerkleProof H siblings leaf (index : Fr) out
  := by
  use digits depth index
  constructor
  · use length_digits depth index
    apply decomposes_digits hindex
  · apply hout

/-! ### Notes -/

/-- The opening of a note. -/
structure Note where
  assetId : Fr
  value : Fr
  label : Fr
  nullifier : Fr
  secret : Fr
deriving DecidableEq

/-- `CommitmentHasher()`: the commitment of a note. -/
def Note.commitment (H : Hash) (n : Note) : Fr :=
  H [H [n.assetId, n.value, n.label], H [n.nullifier, n.secret]]

/-- The inputs `CommitmentHasher()` hashes. -/
def Note.inputs (H : Hash) (n : Note) : List (List Fr) :=
  [[n.nullifier], [n.nullifier, n.secret], [n.assetId, n.value, n.label],
    [H [n.assetId, n.value, n.label], H [n.nullifier, n.secret]]]

/-- The nullifier of a note under a pool and a chain, as the circuits hash it. -/
def nullifierHashOf (H : Hash) (nullifier poolId chainId : Fr) : Fr :=
  H [nullifier, poolId, chainId]

end Shade
