import Shade.Contract.CompleteTree
import Shade.Circuit.Gadget
import Shade.Poseidon

/-!
# The tree and its membership proofs

The incremental tree of the contract is the complete tree over its leaves: its root, its
nodes and the siblings it hands out are those of the complete tree. The membership component
of the circuits climbs that tree. With the siblings of the contract it arrives at the root,
and without collisions it arrives at the root only from a leaf of the tree.
-/

namespace Shade

open LeanIMT PrimeField

variable {H : Hash} {depth : ℕ} {leaves : List Word}

/-! ### The incremental tree -/

/-- The leaves up to the capacity of the tree can be inserted one by one. The tree that
results has the root and the nodes of the complete tree over these leaves, and once it is
full it refuses a further leaf and stays as it is. -/
theorem leanIMT_complete (H : Hash) (hdepth : depth ≤ 31) (hlen : leaves.length ≤ 2 ^ depth) :
  ∃ t, insertAll H (new H depth) leaves = .ok t
    ∧ t.root = Word.ofFr (treeRoot H depth leaves)
    ∧ (∀ level index, 1 ≤ level → level ≤ depth → index < 2 ^ (depth - level) →
        getNode H t level index = some (Word.ofFr (treeNode H leaves level index)))
    ∧ t.leaves = leaves
    ∧ (leaves.length = 2 ^ depth → ∀ leaf, insertInPlace H t leaf
        = (.error "Tree is at capacity: cannot insert more leaves", t))
  := by
  obtain ⟨t, hall, ht⟩ := (represents_new H depth).insertAll_ok hdepth leaves hlen
  rw [List.nil_append] at ht
  refine ⟨t, hall, ht.root_eq, ?_, ht.leaves_eq, ?_⟩
  · intro level index hpos hlevel _
    rw [getNode, if_neg (by omega), if_neg (by rw [ht.depth_eq]; omega),
      ht.computeNodeAtLevelScalar_eq hlevel]
  · intro hfull leaf
    apply ht.insertInPlace_full hdepth hfull.ge

/-- A tree of depth `2` with three of its four leaves. -/
theorem leanIMT_complete_three :
  ([1, 2, 3] : List Word).length ≤ 2 ^ 2
    ∧ ∃ t, insertAll poseidon255 (new poseidon255 2) [1, 2, 3] = .ok t
      ∧ t.root = Word.ofFr (treeRoot poseidon255 2 [1, 2, 3])
  := by
  have hlen : ([1, 2, 3] : List Word).length ≤ 2 ^ 2 := by decide
  obtain ⟨t, hall, hroot, -⟩ := leanIMT_complete poseidon255 (by decide : 2 ≤ 31) hlen
  exact ⟨hlen, t, hall, hroot⟩

/-! ### The membership component -/

/-- The multiplexer orders a node and its sibling by the last digit of the index. -/
theorem multiMux1_digit (index : ℕ) (x s : Fr) :
  multiMux1 (if index % 2 = 1 then 1 else 0) x s
    = [(Merkle.pair index x s).1, (Merkle.pair index x s).2]
  := by
  rw [multiMux1, Merkle.pair]
  rcases Nat.mod_two_eq_zero_or_one index with h | h
  · simp [h]
  · simp [h]

/-- Climbing by the digits of an index is climbing the tree at that index. -/
theorem climb_digits :
  ∀ (siblings : List Fr) (index : ℕ) (x : Fr),
    climb H x ((digits siblings.length index).zip siblings)
      = Merkle.climb (hashPair H) index x siblings
  | [], _, _ => rfl
  | s :: siblings, index, x => by
      rw [List.length_cons, digits, List.zip_cons_cons, climb, multiMux1_digit, Merkle.climb,
        climb_digits siblings, ← Merkle.hash_pair]
      rfl

/-- The inputs hashed by the component are the pairs hashed while climbing the tree. -/
theorem climbInputs_digits :
  ∀ (siblings : List Fr) (index : ℕ) (x : Fr),
    climbInputs H x ((digits siblings.length index).zip siblings)
      = (Merkle.climbPairs (hashPair H) index x siblings).map fun p => [p.1, p.2]
  | [], _, _ => rfl
  | s :: siblings, index, x => by
      rw [List.length_cons, digits, List.zip_cons_cons, climbInputs, multiMux1_digit,
        Merkle.climbPairs, List.map_cons, climbInputs_digits siblings, ← Merkle.hash_pair]
      rfl

/-- The index of a decomposition into as many digits as there are siblings. -/
theorem Num2Bits.exists_nat {n : ℕ} {x : Fr} {out : List Fr} (h : Num2Bits n x out) :
  ∃ i : ℕ, i < 2 ^ n ∧ out = digits n i ∧ x = i
  := by
  obtain ⟨rfl, hbits⟩ := h
  exact hbits.exists_nat

/-- The component holds of a leaf at an index exactly for the node reached by climbing. -/
theorem merkleProof_iff (hdepth : depth ≤ 31) {siblings : List.Vector Fr depth} {leaf out : Fr}
    {i : ℕ} (hi : i < 2 ^ depth) :
  MerkleProof H siblings leaf (i : Fr) out
    ↔ out = Merkle.climb (hashPair H) i leaf siblings.toList
  := by
  have hclimb : ∀ j, climb H leaf ((digits depth j).zip siblings.toList)
      = Merkle.climb (hashPair H) j leaf siblings.toList := by
    intro j
    have := climb_digits (H := H) siblings.toList j leaf
    rwa [siblings.toList_length] at this
  constructor
  · rintro ⟨indices, hbits, rfl⟩
    obtain ⟨j, hj, rfl, heq⟩ := hbits.exists_nat
    have hr : 2 ^ depth ≤ r := by
      calc 2 ^ depth ≤ 2 ^ 31 := Nat.pow_le_pow_right (by decide) hdepth
        _ ≤ r := by decide
    have hval := congrArg ZMod.val heq
    rw [ZMod.val_natCast, ZMod.val_natCast, Nat.mod_eq_of_lt (by omega),
      Nat.mod_eq_of_lt (by omega)] at hval
    rw [hval, hclimb]
  · rintro rfl
    apply MerkleProof.of_climb i hi
    rw [pathOf, hclimb]

/-- The pairs of the complete tree above a leaf are among those hashed in it. -/
theorem mem_treeInputs {i k : ℕ} (hi : i < 2 ^ depth) (hk : k < depth) :
  [treeNode H leaves k (2 * (i / 2 ^ (k + 1))), treeNode H leaves k (2 * (i / 2 ^ (k + 1)) + 1)]
    ∈ treeInputs H depth leaves
  := by
  apply List.mem_flatMap.mpr
  use k, List.mem_range.mpr hk
  apply List.mem_map.mpr
  refine ⟨i / 2 ^ (k + 1), ?_, rfl⟩
  rw [List.mem_range]
  apply Nat.div_lt_of_lt_mul
  rwa [← pow_add, Nat.sub_sub, Nat.add_sub_cancel' (by omega)]

/-- If the component leads from a leaf at an index to the root of the complete tree, and no
two of the pairs hashed on the way and in the tree collide, then the leaf is that of the tree
at the index. -/
theorem eq_leafRow_of_climb {siblings : List.Vector Fr depth} {leaf : Fr} {i : ℕ}
    (hi : i < 2 ^ depth)
    (hroot : treeRoot H depth leaves = climb H leaf ((digits depth i).zip siblings.toList))
    (hfree : CollisionFree H (treeInputs H depth leaves
      ++ climbInputs H leaf ((digits depth i).zip siblings.toList))) :
  leaf = leafRow leaves i
  := by
  have hlen := siblings.toList_length
  have hclimb := climb_digits (H := H) siblings.toList i leaf
  have hinputs := climbInputs_digits (H := H) siblings.toList i leaf
  rw [hlen] at hclimb hinputs
  rw [hinputs] at hfree
  rw [hclimb] at hroot
  have hinj : Set.InjOn (fun p : Fr × Fr => hashPair H p.1 p.2)
      {p | [p.1, p.2] ∈ treeInputs H depth leaves
        ++ (Merkle.climbPairs (hashPair H) i leaf siblings.toList).map fun p => [p.1, p.2]} := by
    intro p hp q hq hpq
    have heq := hfree _ hp _ hq hpq
    rw [List.cons.injEq, List.cons.injEq] at heq
    apply Prod.ext heq.1 heq.2.1
  change leaf = Merkle.node (hashPair H) (leafRow leaves) 0 i
  apply Merkle.eq_node_of_climb (hashPair H) hinj siblings.toList
  · intro p hp
    apply List.mem_append_right
    apply List.mem_map_of_mem (f := fun p => [p.1, p.2]) hp
  · intro k hk
    rw [hlen] at hk
    rw [Nat.zero_add]
    apply List.mem_append_left
    apply mem_treeInputs hi hk
  · rw [← hroot, hlen, Nat.zero_add, Nat.div_eq_of_lt hi, treeRoot, treeNode]

/-- The siblings of the complete tree at an index lead from the leaf there to the root. -/
theorem climb_treeSiblings {siblings : List.Vector Fr depth} {i : ℕ} (hi : i < 2 ^ depth)
    (hsiblings : siblings.toList = Merkle.siblings (hashPair H) (leafRow leaves) depth 0 i) :
  Merkle.climb (hashPair H) i (leafRow leaves i) siblings.toList = treeRoot H depth leaves
  := by
  have hclimb := Merkle.climb_siblings (hashPair H) (leafRow leaves) depth 0 i
  rw [Nat.zero_add, Nat.div_eq_of_lt hi, Merkle.node] at hclimb
  rw [hsiblings, hclimb, treeRoot, treeNode]

/-- The contract and the circuit agree on membership. The siblings the contract hands out
for an inserted leaf lead the component to the root and to nothing else. An assignment of
the component that ends in the root, when no two of the pairs hashed in it and in the tree
collide, starts at an index of the tree, in the leaf there or in zero if there is none. -/
theorem membership_agrees (hdepth : depth ≤ 31) {t : LeanIMT}
    (ht : insertAll H (new H depth) leaves = .ok t) :
  (∀ i < leaves.length, ∃ siblings : List.Vector Fr depth,
      generateProof H t i = some (siblings.toList, depth)
      ∧ ∀ out, MerkleProof H siblings (leafRow leaves i) (i : Fr) out ↔ out = t.root.toFr)
  ∧ ∀ (siblings : List.Vector Fr depth) (leaf leafIndex : Fr) (indices : List Fr),
      Num2Bits depth leafIndex indices →
      t.root.toFr = climb H leaf (indices.zip siblings.toList) →
      CollisionFree H (treeInputs H depth leaves
        ++ climbInputs H leaf (indices.zip siblings.toList)) →
      ∃ i : ℕ, i < 2 ^ depth ∧ leafIndex = (i : Fr) ∧ leaf = leafRow leaves i
  := by
  obtain ⟨hrep, hfit⟩ := represents_of_insertAll hdepth ht
  have hroot : t.root.toFr = treeNode H leaves depth 0 := by
    rw [hrep.root_eq, Word.toFr_ofFr, treeRoot]
  constructor
  · intro i hi
    have hlt : i < 2 ^ depth := hi.trans_le hfit
    obtain ⟨siblings, hsiblings⟩ : ∃ v : List.Vector Fr depth,
        v.toList = Merkle.siblings (hashPair H) (leafRow leaves) depth 0 i :=
      ⟨⟨_, Merkle.length_siblings ..⟩, rfl⟩
    use siblings
    constructor
    · rw [hrep.generateProof_eq hi, hsiblings]
    · intro out
      rw [merkleProof_iff hdepth hlt, climb_treeSiblings hlt hsiblings, hroot, treeRoot]
  · intro siblings leaf leafIndex indices hbits hclimb hfree
    obtain ⟨i, hi, rfl, rfl⟩ := hbits.exists_nat
    use i, hi, rfl
    rw [hroot, ← treeRoot] at hclimb
    apply eq_leafRow_of_climb hi hclimb hfree

/-- The siblings of the second leaf in the tree of depth `2` with three leaves. -/
def secondSiblings : List.Vector Fr 2 := ⟨[1, poseidon255 [(3 : ℕ), 0]], rfl⟩

/-- The second leaf of the tree of depth `2` with three leaves: its siblings lead to the
root, and the assignment with these siblings has no collision and comes from the tree. -/
theorem membership_agrees_second :
  ∃ t, insertAll poseidon255 (new poseidon255 2) [1, 2, 3] = .ok t
    ∧ (∃ siblings : List.Vector Fr 2,
        generateProof poseidon255 t 1 = some (siblings.toList, 2)
        ∧ MerkleProof poseidon255 siblings (leafRow [1, 2, 3] 1) 1 t.root.toFr)
    ∧ ∃ i : ℕ, i < 2 ^ 2 ∧ ((1 : ℕ) : Fr) = (i : Fr)
      ∧ leafRow [1, 2, 3] 1 = leafRow [1, 2, 3] i
  := by
  obtain ⟨t, hall, hrep⟩ := (represents_new poseidon255 2).insertAll_ok (by decide)
    [1, 2, 3] (by decide)
  have hrun : climb poseidon255 (leafRow [1, 2, 3] 1)
        ((digits 2 1).zip secondSiblings.toList) = treeRoot poseidon255 2 [1, 2, 3]
      ∧ Eager.injectiveOn (List.map ZMod.val) (fun x => (poseidon255 x).val)
        (treeInputs poseidon255 2 [1, 2, 3] ++ climbInputs poseidon255 (leafRow [1, 2, 3] 1)
          ((digits 2 1).zip secondSiblings.toList)) = true := by
    decide +kernel
  obtain ⟨hproof, hsound⟩ := membership_agrees (by decide) hall
  obtain ⟨siblings, hgenerate, hout⟩ := hproof 1 (by decide)
  refine ⟨t, hall, ⟨siblings, hgenerate, ?_⟩, ?_⟩
  · have hroot := (hout t.root.toFr).mpr rfl
    rwa [Nat.cast_one] at hroot
  · apply hsound secondSiblings _ _ (digits 2 1)
    · exact ⟨length_digits 2 1, decomposes_digits (by decide)⟩
    · rw [hrep.root_eq, Word.toFr_ofFr, hrun.1]
      rfl
    · apply collisionFree_of_injectiveOn hrun.2

end Shade
