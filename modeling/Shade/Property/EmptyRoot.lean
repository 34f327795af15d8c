import Shade.Property.Membership
import Shade.Pool.Deployment

/-!
# The root of an empty pool

A new pool stores zero as its root and marks it as known. The tree without leaves has another
root, to which the membership component leads from the zero leaf along the empty subtrees,
whatever its index: no empty subtree above the leaves is zero, up to depth `31`.
-/

namespace Shade

open LeanIMT Pool

variable {H : Hash} {depth : ℕ}

/-! ### The empty tree -/

/-- The empty subtrees beside the path of a leaf, from the bottom up. -/
def emptySiblings (H : Hash) (depth : ℕ) : List.Vector Fr depth :=
  ⟨(List.range depth).map (zeroNode H), by rw [List.length_map, List.length_range]⟩

/-- The empty subtrees are those that a new tree has cached. -/
theorem subtreeCache_new {level : ℕ} (h : level < depth) :
  (new H depth).subtreeCache.get level = (emptySiblings H depth).toList[level]?
  := by
  rw [(represents_new H depth).subtree level h.le, if_neg (by omega)]
  change _ = ((List.range depth).map (zeroNode H))[level]?
  rw [List.getElem?_map, List.getElem?_range h, Option.map_some]

theorem new_root (H : Hash) (depth : ℕ) :
  (new H depth).root = Word.ofFr (zeroNode H depth)
  := by
  rw [(represents_new H depth).root_eq, treeRoot, treeNode_eq_zeroNode (Nat.zero_le _)]

/-- The component leads from the zero leaf to the root of the empty tree and to nothing else,
at every index. -/
theorem merkleProof_empty (hdepth : depth ≤ 31) {i : ℕ} (hi : i < 2 ^ depth) (out : Fr) :
  MerkleProof H (emptySiblings H depth) 0 (i : Fr) out ↔ out = (new H depth).root.toFr
  := by
  have hclimb := Merkle.climb_const (hashPair H) 0 depth i
  rw [merkleProof_iff hdepth hi, new_root, Word.toFr_ofFr, zeroNode, ← hclimb]
  rfl

/-- The empty subtrees depend only on the hashes of pairs. -/
theorem zeroNode_congr {H' : Hash} (h : ∀ x y, H [x, y] = H' [x, y]) :
  zeroNode H = zeroNode H'
  := by
  have hpair : hashPair H = hashPair H' := by
    funext x y
    apply h
  funext level
  rw [zeroNode, hpair, zeroNode]

/-! ### Empty subtrees that are not zero -/

/-- None of the given number of nodes above an empty subtree is zero. -/
def nonzeroAbove (H : Hash) : ℕ → ℕ → Bool
  | 0, _ => true
  | n + 1, x =>
      Eager.eager (hashPair H (x : Fr) (x : Fr)).val fun y => y != 0 && nonzeroAbove H n y

theorem ne_zero_of_nonzeroAbove {n level k : ℕ}
    (h : nonzeroAbove H n (zeroNode H level).val = true) (hk : k < n) :
  zeroNode H (level + k + 1) ≠ 0
  := by
  induction n generalizing level k with
  | zero => cases hk
  | succ n ih =>
      have hparent : hashPair H (zeroNode H level) (zeroNode H level) = zeroNode H (level + 1) :=
        rfl
      rw [nonzeroAbove, Eager.eager_eq, ZMod.natCast_zmod_val, hparent, Bool.and_eq_true] at h
      obtain ⟨hne, habove⟩ := h
      cases k with
      | zero =>
          intro hzero
          rw [Nat.add_zero] at hzero
          rw [hzero, ZMod.val_zero] at hne
          cases hne
      | succ k =>
          have hnext := ih habove (Nat.lt_of_succ_lt_succ hk)
          rwa [Nat.add_right_comm level 1 k] at hnext

/-- The empty subtrees above the leaves are not zero. -/
theorem zeroNode_ne_zero {level : ℕ} (hpos : 1 ≤ level) (hlevel : level ≤ 31) :
  zeroNode poseidon255 level ≠ 0
  := by
  have habove : nonzeroAbove poseidon255 31 (zeroNode poseidon255 0).val = true := by
    decide +kernel
  have hne := ne_zero_of_nonzeroAbove habove (show level - 1 < 31 by omega)
  rwa [Nat.zero_add, Nat.sub_add_cancel hpos] at hne

/-! ### The new pool -/

/-- The root that a pool stores is known, it is the root of the empty tree, and the component
leads from the zero leaf along the empty subtrees to it and to nothing else, at every index. -/
structure StartsEmpty (H : Hash) (s : State) : Prop where
  known : s.isKnownRoot s.treeRoot = true
  tree : s.treeRoot = (new H s.treeDepth).root
  circuit : ∀ i : ℕ, i < 2 ^ s.treeDepth → ∀ out,
    MerkleProof poseidon255 (emptySiblings H s.treeDepth) 0 (i : Fr) out ↔ out = s.treeRoot.toFr

/-- An assignment of the component that ends in the root of a new pool yields two numbers that
hash to zero. -/
theorem exists_hash_eq_zero (admin usdcSac verifier nullifierRegistry : Address)
    (poolId chainId : UInt32) (hpos : 1 ≤ depth) (hdepth : depth ≤ 31)
    {siblings : List.Vector Fr depth} {leaf leafIndex : Fr}
    (h : MerkleProof H siblings leaf leafIndex (State.constructor admin usdcSac verifier
      nullifierRegistry depth poolId chainId).treeRoot.toFr) :
  ∃ x y, H [x, y] = 0
  := by
  obtain ⟨indices, hbits, hout⟩ := h
  obtain ⟨i, hi, rfl, rfl⟩ := hbits.exists_nat
  have hclimb := (merkleProof_iff hdepth hi).mp ⟨_, hbits, hout⟩
  have hne : siblings.toList ≠ [] := by
    apply List.ne_nil_of_length_pos
    rw [siblings.toList_length]
    exact hpos
  obtain ⟨x, y, hxy⟩ := Merkle.exists_climb_eq (hashPair H) siblings.toList i leaf hne
  use x, y
  apply Eq.trans hxy.symm
  apply Eq.trans hclimb.symm
  rfl

/-- A new pool does not store the root of the empty tree if that root is not zero. -/
theorem constructor_root_ne (admin usdcSac verifier nullifierRegistry : Address)
    (poolId chainId : UInt32) (hne : zeroNode H depth ≠ 0) :
  (State.constructor admin usdcSac verifier nullifierRegistry depth poolId chainId).treeRoot
    ≠ (new H depth).root
  := by
  intro heq
  apply hne
  rw [← Word.toFr_ofFr (zeroNode H depth), ← new_root, ← heq]
  exact Nat.cast_zero

/-- In a host that hashes pairs as the circuits do, a new pool of a depth from `1` to `31` does
not start with the root of the empty tree: neither is it the root of a new tree, nor does the
component lead to it from the zero leaf along the empty subtrees at any index. -/
theorem constructor_root (host : Host)
    (hposeidon : ∀ x y, host.poseidon [x, y] = poseidon255 [x, y])
    (admin usdcSac verifier nullifierRegistry : Address) (poolId chainId : UInt32)
    (hpos : 1 ≤ depth) (hdepth : depth ≤ 31) (s : State)
    (hs : s = State.constructor admin usdcSac verifier nullifierRegistry depth poolId chainId) :
  ¬ StartsEmpty host.poseidon s
    ∧ s.treeRoot ≠ (new host.poseidon depth).root
    ∧ ∀ i : ℕ, i < 2 ^ depth →
      ¬ MerkleProof poseidon255 (emptySiblings host.poseidon depth) 0 (i : Fr) s.treeRoot.toFr
  := by
  subst hs
  have hzero : zeroNode host.poseidon depth ≠ 0 := by
    rw [zeroNode_congr hposeidon]
    apply zeroNode_ne_zero hpos hdepth
  have hroot := constructor_root_ne admin usdcSac verifier nullifierRegistry poolId chainId hzero
  have hsiblings : emptySiblings host.poseidon depth = emptySiblings poseidon255 depth := by
    apply Subtype.ext
    change List.map _ _ = List.map _ _
    rw [zeroNode_congr hposeidon]
  refine ⟨fun h => hroot h.tree, hroot, ?_⟩
  intro i hi h
  rw [hsiblings, merkleProof_empty hdepth hi, new_root, Word.toFr_ofFr] at h
  apply zeroNode_ne_zero hpos hdepth
  rw [← h]
  exact Nat.cast_zero

open Deployment in
/-- The pool of depth `12` that is deployed. -/
theorem constructor_root_genesis :
  ¬ StartsEmpty poseidon255 (genesis usdc).pool
    ∧ (genesis usdc).pool.treeRoot ≠ (new poseidon255 12).root
    ∧ ∀ i : ℕ, i < 2 ^ 12 → ¬ MerkleProof poseidon255 (emptySiblings poseidon255 12) 0 (i : Fr)
      (genesis usdc).pool.treeRoot.toFr
  := constructor_root quoteHost (fun _ _ => rfl) admin usdc withdrawVerifier nullifierRegistry 1 27
    (by decide) (by decide) (genesis usdc).pool rfl

open Deployment in
/-- A new pool of depth `2` stores zero, which is not the root of the empty tree. -/
theorem zero_not_root :
  ¬ ∀ (host : Host), (∀ x y, host.poseidon [x, y] = poseidon255 [x, y]) →
    ∀ (admin usdcSac verifier nullifierRegistry : Address) (poolId chainId : UInt32) (depth : ℕ),
      1 ≤ depth → depth ≤ 31 →
      StartsEmpty host.poseidon
        (State.constructor admin usdcSac verifier nullifierRegistry depth poolId chainId)
  := by
  intro h
  have hstarts := h quoteHost (fun _ _ => rfl) admin usdc withdrawVerifier nullifierRegistry 1 27 2
    (by decide) (by decide)
  apply constructor_root_ne admin usdc withdrawVerifier nullifierRegistry 1 27 _ hstarts.tree
  apply zeroNode_ne_zero
  · decide
  · decide

end Shade
