import Shade.Contract.LeanIMT
import Shade.Library.Merkle

/-!
# The tree an incremental tree stands for

The complete tree over a list of leaves, continued with zero, and what the caches of an
incremental tree hold when its leaves are these: `subtreeCache` the nodes over zeros only,
`sparseCache` exactly the nodes over at least one inserted leaf. An insertion computes one
node of each level, the one above the new leaf, and the others do not change.
-/

namespace Shade.LeanIMT

open Merkle

variable (H : Hash)

/-- The row of the leaves of a list, continued with zero. -/
def leafRow (leaves : List Word) (index : ℕ) : Fr :=
  match leaves[index]? with
  | some leaf => leaf.toFr
  | none => 0

/-- A node of the complete tree over a list of leaves. -/
def treeNode (leaves : List Word) (level index : ℕ) : Fr :=
  node (hashPair H) (leafRow leaves) level index

/-- The root of the complete tree over a list of leaves. -/
def treeRoot (depth : ℕ) (leaves : List Word) : Fr :=
  treeNode H leaves depth 0

/-- The pairs that are hashed in the complete tree over a list of leaves. -/
def treeInputs (depth : ℕ) (leaves : List Word) : List (List Fr) :=
  (List.range depth).flatMap fun level =>
    (List.range (2 ^ (depth - level - 1))).map fun index =>
      [treeNode H leaves level (2 * index), treeNode H leaves level (2 * index + 1)]

/-- The node over zeros only. -/
def zeroNode (level : ℕ) : Fr :=
  emptyNode (hashPair H) 0 level

/-- What the sparse cache holds at a level and an index. -/
def sparseEntry (depth : ℕ) (leaves : List Word) (level index : ℕ) : Option Fr :=
  if level ≤ depth ∧ index * 2 ^ level < leaves.length then
    some (treeNode H leaves level index)
  else
    none

/-- The tree has the given depth and leaves, and its caches and its root are those of the
complete tree. -/
structure Represents (t : LeanIMT) (depth : ℕ) (leaves : List Word) : Prop where
  leaves_eq : t.leaves = leaves
  depth_eq : t.depth = depth
  capacity_eq : t.capacity = capacityOf depth
  subtree : ∀ level ≤ depth,
    t.subtreeCache.get level = if depth = 0 then none else some (zeroNode H level)
  sparse : ∀ level index,
    t.sparseCache.get (level, index) = sparseEntry H depth leaves level index
  root_eq : t.root = Word.ofFr (treeRoot H depth leaves)

/-! ### Nodes of the complete tree -/

variable {H} {depth : ℕ} {leaves : List Word} {leaf : Word}

theorem leafScalar_eq (t : LeanIMT) (index : ℕ) :
  t.leafScalar index = leafRow t.leaves index
  := rfl

theorem leafRow_of_length_le {index : ℕ} (h : leaves.length ≤ index) :
  leafRow leaves index = 0
  := by
  rw [leafRow, List.getElem?_eq_none h]

theorem leafRow_append {index : ℕ} (h : index ≠ leaves.length) :
  leafRow (leaves ++ [leaf]) index = leafRow leaves index
  := by
  rcases Nat.lt_or_gt_of_ne h with hlt | hgt
  · rw [leafRow, leafRow, List.getElem?_append_left hlt]
  · rw [leafRow_of_length_le (by simp; omega), leafRow_of_length_le (by omega)]

theorem leafRow_append_length :
  leafRow (leaves ++ [leaf]) leaves.length = leaf.toFr
  := by
  simp [leafRow]

/-- A node with no inserted leaf below it. -/
theorem treeNode_eq_zeroNode {level index : ℕ} (h : leaves.length ≤ index * 2 ^ level) :
  treeNode H leaves level index = zeroNode H level
  := by
  apply node_eq_emptyNode
  rintro j rfl
  apply leafRow_of_length_le
  apply h.trans (Nat.div_mul_le_self j _)

/-- A node that is not above the new leaf. -/
theorem treeNode_append {level index : ℕ} (h : index ≠ leaves.length / 2 ^ level) :
  treeNode H (leaves ++ [leaf]) level index = treeNode H leaves level index
  := by
  apply node_congr
  rintro j rfl
  apply leafRow_append
  rintro rfl
  apply h rfl

/-- The entry of a node that is not above the new leaf. -/
theorem sparseEntry_append {level index : ℕ} (h : index ≠ leaves.length / 2 ^ level) :
  sparseEntry H depth (leaves ++ [leaf]) level index = sparseEntry H depth leaves level index
  := by
  have hne : index * 2 ^ level ≠ leaves.length := by
    intro heq
    apply h
    rw [← heq, Nat.mul_div_cancel _ (Nat.two_pow_pos level)]
  have hiff : index * 2 ^ level < (leaves ++ [leaf]).length
      ↔ index * 2 ^ level < leaves.length := by
    rw [List.length_append, List.length_singleton]
    omega
  simp only [sparseEntry, treeNode_append h, hiff]

/-- The entry of the node above the new leaf. -/
theorem sparseEntry_append_self {level : ℕ} (h : level ≤ depth) :
  sparseEntry H depth (leaves ++ [leaf]) level (leaves.length / 2 ^ level)
    = some (treeNode H (leaves ++ [leaf]) level (leaves.length / 2 ^ level))
  := by
  rw [sparseEntry, if_pos]
  use h
  rw [List.length_append, List.length_singleton, Nat.lt_succ_iff]
  apply Nat.div_mul_le_self

/-! ### Reading the caches -/

/-- The cached value of a node, when the caches are those of the complete tree. -/
theorem getCachedNode_eq {t : LeanIMT} {level index : ℕ} (hlevel : level ≤ depth)
    (hdepth : depth ≠ 0)
    (hsubtree : t.subtreeCache.get level = if depth = 0 then none else some (zeroNode H level))
    (hsparse : t.sparseCache.get (level, index) = sparseEntry H depth leaves level index) :
  t.getCachedNode level index = some (treeNode H leaves level index)
  := by
  rw [getCachedNode, hsparse, hsubtree, if_neg hdepth, sparseEntry]
  by_cases h : index * 2 ^ level < leaves.length
  · rw [if_pos ⟨hlevel, h⟩]
  · rw [if_neg (by tauto), treeNode_eq_zeroNode (by omega)]

/-- The computed value of a node is the node of the complete tree. -/
theorem Represents.computeNodeAtLevelScalar_eq {t : LeanIMT} (ht : Represents H t depth leaves)
    {level index : ℕ} (hlevel : level ≤ depth) :
  computeNodeAtLevelScalar H t level index = treeNode H leaves level index
  := by
  by_cases hdepth : depth = 0
  · obtain rfl : level = 0 := by omega
    rw [computeNodeAtLevelScalar, getCachedNode, ht.sparse, ht.subtree 0 hlevel, if_pos hdepth,
      sparseEntry, leafScalar_eq, ht.leaves_eq]
    by_cases h : index * 2 ^ 0 < leaves.length
    · rw [if_pos ⟨hlevel, h⟩]
    · rw [if_neg (by tauto)]
      rfl
  · have hcached := getCachedNode_eq hlevel hdepth (ht.subtree level hlevel) (ht.sparse level index)
    cases level with
    | zero => rw [computeNodeAtLevelScalar, hcached]
    | succ level =>
        rw [computeNodeAtLevelScalar, if_neg (by rw [ht.depth_eq]; omega), hcached]

/-! ### The empty tree -/

/-- The caching loop, started at a level with the node over zeros, ends with the node over
zeros at the last level and has cached one for each level. -/
theorem cacheSubtreeLevels_eq (n level : ℕ) (cache : Store ℕ Fr) :
  (cacheSubtreeLevels H n level (zeroNode H level) cache).2 = zeroNode H (level + n)
    ∧ ∀ k, (cacheSubtreeLevels H n level (zeroNode H level) cache).1.get k
      = if level ≤ k ∧ k ≤ level + n then some (zeroNode H k) else cache.get k
  := by
  induction n generalizing level cache with
  | zero =>
      constructor
      · rfl
      · intro k
        rw [cacheSubtreeLevels, Store.get_set]
        by_cases hk : level = k
        · rw [if_pos hk, if_pos (by omega), hk]
        · rw [if_neg hk, if_neg (by omega)]
  | succ n ih =>
      obtain ⟨hnode, hcache⟩ := ih (level + 1) (cache.set level (zeroNode H level))
      rw [cacheSubtreeLevels]
      constructor
      · rw [← Nat.add_assoc, Nat.add_right_comm]
        exact hnode
      · intro k
        apply (hcache k).trans
        rw [Store.get_set]
        by_cases hk : level = k
        · rw [if_neg (by omega), if_pos hk, if_pos (by omega), hk]
        · rw [if_neg hk]
          apply if_congr _ rfl rfl
          omega

/-- A new tree is the tree of no leaves. -/
theorem represents_new (H : Hash) (depth : ℕ) :
  Represents H (new H depth) depth []
  := by
  have hroot : treeRoot H depth [] = zeroNode H depth := by
    apply treeNode_eq_zeroNode
    simp
  have hsparse : ∀ level index, sparseEntry H depth [] level index = none := by
    intro level index
    rw [sparseEntry, if_neg (by simp)]
  obtain ⟨hnode, hcache⟩ := cacheSubtreeLevels_eq (H := H) depth 0 Store.empty
  by_cases hdepth : depth = 0
  · subst hdepth
    constructor
    · rfl
    · rfl
    · rfl
    · intro level _
      rfl
    · intro level index
      rw [hsparse]
      rfl
    · rw [hroot]
      rfl
  · have hnew : new H depth
        = { leaves := []
            depth := depth
            capacity := capacityOf depth
            root := Word.ofFr (cacheSubtreeLevels H depth 0 (zeroNode H 0) Store.empty).2
            subtreeCache := (cacheSubtreeLevels H depth 0 (zeroNode H 0) Store.empty).1
            sparseCache := Store.empty } := by
      rw [new, recomputeTree, if_neg hdepth]
      rfl
    rw [hnew]
    constructor
    · rfl
    · rfl
    · rfl
    · intro level hlevel
      rw [hcache, if_pos (by omega), if_neg hdepth]
    · intro level index
      rw [hsparse]
      rfl
    · rw [hroot, hnode, Nat.zero_add]

/-! ### Insertion -/

/-- The hash of a node above the new leaf and its sibling is the next node above the leaf. -/
theorem hash_orderedPair {t : LeanIMT} {level : ℕ}
    (h : siblingScalar H t level (leaves.length / 2 ^ level)
      = treeNode H (leaves ++ [leaf]) level (sibling (leaves.length / 2 ^ level))) :
  H (orderedPair H t level (leaves.length / 2 ^ level)
      (treeNode H (leaves ++ [leaf]) level (leaves.length / 2 ^ level)))
    = treeNode H (leaves ++ [leaf]) (level + 1) (leaves.length / 2 ^ (level + 1))
  := by
  rw [orderedPair, h, pow_succ, ← Nat.div_div_eq_div_mul]
  apply Eq.trans _ (parent_node (hashPair H) (leafRow (leaves ++ [leaf])) level _)
  rw [parent]
  split
  · rfl
  · rfl

/-- What holds of the tree before a turn of the loop and gives the sibling the loop asks for,
and holds again when the next node is cached, holds after the loop, which returns the root. -/
theorem recomputePath_invariant {I : LeanIMT → ℕ → Prop}
    (hsibling : ∀ level t, I t level → level < depth →
      siblingScalar H t level (leaves.length / 2 ^ level)
        = treeNode H (leaves ++ [leaf]) level (sibling (leaves.length / 2 ^ level)))
    (hstep : ∀ level t, I t level → level < depth →
      I { t with
          sparseCache := t.sparseCache.set (level + 1, leaves.length / 2 ^ (level + 1))
            (treeNode H (leaves ++ [leaf]) (level + 1) (leaves.length / 2 ^ (level + 1))) }
        (level + 1)) :
  ∀ {n : ℕ} {t : LeanIMT} {level : ℕ}, I t level → level + n = depth →
    I (recomputePath H n level (leaves.length / 2 ^ level)
        (treeNode H (leaves ++ [leaf]) level (leaves.length / 2 ^ level)) t).1 depth
    ∧ (recomputePath H n level (leaves.length / 2 ^ level)
        (treeNode H (leaves ++ [leaf]) level (leaves.length / 2 ^ level)) t).2
      = treeNode H (leaves ++ [leaf]) depth (leaves.length / 2 ^ depth)
  | 0, t, level, ht, hn => by
      obtain rfl : level = depth := by omega
      exact ⟨ht, rfl⟩
  | n + 1, t, level, ht, hn => by
      have hindex : leaves.length / 2 ^ level / 2 = leaves.length / 2 ^ (level + 1) := by
        rw [Nat.div_div_eq_div_mul, pow_succ]
      rw [recomputePath, hash_orderedPair (hsibling level t ht (by omega)), hindex]
      apply recomputePath_invariant hsibling hstep (hstep level t ht (by omega))
      omega

/-- A tree in the course of an insertion: the caches are those of the complete tree with
the new leaf up to a level, and those of the complete tree without it above. -/
structure Updating (H : Hash) (t : LeanIMT) (depth : ℕ) (leaves : List Word) (leaf : Word)
    (level : ℕ) : Prop where
  leaves_eq : t.leaves = leaves ++ [leaf]
  depth_eq : t.depth = depth
  capacity_eq : t.capacity = capacityOf depth
  subtree : ∀ k ≤ depth,
    t.subtreeCache.get k = if depth = 0 then none else some (zeroNode H k)
  sparse : ∀ k index, t.sparseCache.get (k, index)
    = sparseEntry H depth (if k ≤ level then leaves ++ [leaf] else leaves) k index

/-- The sibling of the node above the new leaf. -/
theorem Updating.siblingScalar_eq {t : LeanIMT} {level : ℕ}
    (ht : Updating H t depth leaves leaf level) (hlevel : level < depth) :
  siblingScalar H t level (leaves.length / 2 ^ level)
    = treeNode H (leaves ++ [leaf]) level (sibling (leaves.length / 2 ^ level))
  := by
  rw [siblingScalar]
  split
  · next h =>
      subst h
      rw [leafScalar_eq, ht.leaves_eq]
      rfl
  · have hsparse := ht.sparse level (siblingIndex (leaves.length / 2 ^ level))
    rw [if_pos le_rfl] at hsparse
    rw [getCachedNode_eq (by omega) (by omega) (ht.subtree level (by omega)) hsparse]
    rfl

/-- One turn of the loop caches the node of the next level above the new leaf. -/
theorem Updating.step {t : LeanIMT} {level : ℕ} (ht : Updating H t depth leaves leaf level)
    (hlevel : level < depth) :
  Updating H
    { t with
      sparseCache := t.sparseCache.set (level + 1, leaves.length / 2 ^ (level + 1))
        (treeNode H (leaves ++ [leaf]) (level + 1) (leaves.length / 2 ^ (level + 1))) }
    depth leaves leaf (level + 1)
  := by
  constructor
  · exact ht.leaves_eq
  · exact ht.depth_eq
  · exact ht.capacity_eq
  · exact ht.subtree
  · intro k index
    rw [Store.get_set, ht.sparse]
    by_cases hk : k = level + 1
    · subst hk
      have hold : ¬ level + 1 ≤ level := by omega
      rw [if_neg hold, if_pos (le_refl (level + 1))]
      by_cases hindex : leaves.length / 2 ^ (level + 1) = index
      · rw [if_pos (by rw [hindex]), ← hindex, sparseEntry_append_self (by omega)]
      · rw [if_neg (by simpa using hindex), sparseEntry_append (Ne.symm hindex)]
    · rw [if_neg (fun h => hk (congrArg Prod.fst h).symm)]
      congr 1
      apply if_congr _ rfl rfl
      omega

/-- The loop caches the nodes of all levels above the new leaf and returns the root. -/
theorem Updating.recomputePath_eq {n level : ℕ} {t : LeanIMT}
    (ht : Updating H t depth leaves leaf level) (hn : level + n = depth) :
  Updating H (recomputePath H n level (leaves.length / 2 ^ level)
      (treeNode H (leaves ++ [leaf]) level (leaves.length / 2 ^ level)) t).1
    depth leaves leaf depth
  ∧ (recomputePath H n level (leaves.length / 2 ^ level)
      (treeNode H (leaves ++ [leaf]) level (leaves.length / 2 ^ level)) t).2
    = treeNode H (leaves ++ [leaf]) depth (leaves.length / 2 ^ depth)
  := by
  apply recomputePath_invariant (I := fun t level => Updating H t depth leaves leaf level) _ _ ht hn
  · intro level t ht hlevel
    apply ht.siblingScalar_eq hlevel
  · intro level t ht hlevel
    apply ht.step hlevel

/-- An insertion into a tree that is not full leads to the tree with the new leaf. -/
theorem Represents.incrementalUpdate {t : LeanIMT} (ht : Represents H t depth leaves)
    (hlen : leaves.length < 2 ^ depth) :
  Represents H (incrementalUpdate H { t with leaves := t.leaves ++ [leaf] }) depth
    (leaves ++ [leaf])
  := by
  obtain ⟨rfl, rfl, hcapacity, hsubtree, hsparse, -⟩ := ht
  have hindex : (t.leaves ++ [leaf]).length - 1 = t.leaves.length := by simp
  have hstart : Updating H
      { t with
        leaves := t.leaves ++ [leaf]
        sparseCache := t.sparseCache.set (0, t.leaves.length) leaf.toFr }
      t.depth t.leaves leaf 0 := by
    constructor
    · rfl
    · rfl
    · exact hcapacity
    · exact hsubtree
    · intro k index
      rw [Store.get_set, hsparse]
      by_cases hk : k = 0
      · subst hk
        rw [if_pos le_rfl]
        by_cases hi : index = t.leaves.length
        · subst hi
          have hself := @sparseEntry_append_self H t.depth t.leaves leaf 0
            (Nat.zero_le t.depth)
          rw [pow_zero, Nat.div_one] at hself
          rw [if_pos rfl, hself, treeNode, node, leafRow_append_length]
        · rw [if_neg (by simpa using Ne.symm hi), sparseEntry_append (by simpa using hi)]
      · rw [if_neg (fun h => hk (congrArg Prod.fst h).symm), if_neg (by omega)]
  obtain ⟨hdone, hroot⟩ := hstart.recomputePath_eq (n := t.depth) (Nat.zero_add _)
  rw [pow_zero, Nat.div_one, treeNode, node, leafRow_append_length] at hdone hroot
  rw [Nat.div_eq_of_lt hlen] at hroot
  have hscalar : ({ t with leaves := t.leaves ++ [leaf] } : LeanIMT).leafScalar t.leaves.length
      = leaf.toFr := leafRow_append_length
  simp only [LeanIMT.incrementalUpdate, hindex, hscalar]
  constructor
  · exact hdone.leaves_eq
  · exact hdone.depth_eq
  · exact hdone.capacity_eq
  · exact hdone.subtree
  · intro level index
    apply (hdone.sparse level index).trans
    by_cases hlevel : level ≤ t.depth
    · rw [if_pos hlevel]
    · rw [if_neg hlevel, sparseEntry, sparseEntry, if_neg (by tauto), if_neg (by tauto)]
  · rw [hroot]
    rfl

/-- A tree of depth up to `31` has room for a leaf as long as it is not full. -/
theorem capacityOf_eq (hdepth : depth ≤ 31) :
  capacityOf depth = 2 ^ depth
  := by
  rw [capacityOf, if_pos (by omega)]

theorem Represents.insert_ok {t : LeanIMT} (ht : Represents H t depth leaves) (leaf : Word)
    (hdepth : depth ≤ 31) (hlen : leaves.length < 2 ^ depth) :
  ∃ t', insert H t leaf = .ok t' ∧ Represents H t' depth (leaves ++ [leaf])
  := by
  use LeanIMT.incrementalUpdate H { t with leaves := t.leaves ++ [leaf] }
  constructor
  · rw [insert, if_neg]
    rw [ht.capacity_eq, capacityOf_eq hdepth, ht.leaves_eq]
    omega
  · apply ht.incrementalUpdate hlen

/-- A full tree refuses the next leaf and stays as it is. -/
theorem Represents.insertInPlace_full {t : LeanIMT} (ht : Represents H t depth leaves)
    (hdepth : depth ≤ 31) (hlen : 2 ^ depth ≤ leaves.length) :
  insertInPlace H t leaf = (.error "Tree is at capacity: cannot insert more leaves", t)
  := by
  rw [insertInPlace, if_pos]
  rwa [ht.capacity_eq, capacityOf_eq hdepth, ht.leaves_eq]

/-- Inserting leaves one by one, as far as there is room, leads to the tree of all of
them. -/
theorem Represents.insertAll_ok (hdepth : depth ≤ 31) :
  ∀ (leaves' : List Word) {leaves : List Word} {t : LeanIMT}, Represents H t depth leaves →
    (leaves ++ leaves').length ≤ 2 ^ depth →
    ∃ t', insertAll H t leaves' = .ok t' ∧ Represents H t' depth (leaves ++ leaves')
  | [], leaves, t, ht, _ => by
      rw [List.append_nil]
      use t, rfl
  | leaf :: leaves', leaves, t, ht, hlen => by
      rw [List.length_append, List.length_cons] at hlen
      obtain ⟨t₁, hinsert, ht₁⟩ := ht.insert_ok leaf hdepth (by omega)
      obtain ⟨t', hall, ht'⟩ := insertAll_ok hdepth leaves' ht₁ (by simp; omega)
      rw [List.append_assoc, List.singleton_append] at ht'
      use t'
      constructor
      · rw [insertAll, List.foldlM_cons, hinsert]
        exact hall
      · exact ht'

/-- Insertion of more leaves than there is room for fails. -/
theorem Represents.insertAll_error (hdepth : depth ≤ 31) :
  ∀ {leaves' : List Word} {leaves : List Word} {t : LeanIMT}, Represents H t depth leaves →
    leaves.length ≤ 2 ^ depth → 2 ^ depth < (leaves ++ leaves').length →
    ∃ e, insertAll H t leaves' = .error e
  | [], leaves, t, ht, hle, hlen => by
      rw [List.append_nil] at hlen
      omega
  | leaf :: leaves', leaves, t, ht, hle, hlen => by
      rw [insertAll, List.foldlM_cons]
      rcases Nat.lt_or_ge leaves.length (2 ^ depth) with hroom | hfull
      · obtain ⟨t₁, hinsert, ht₁⟩ := ht.insert_ok leaf hdepth hroom
        rw [hinsert]
        apply insertAll_error hdepth ht₁ (by simp; omega) (by simpa using hlen)
      · rw [insert_eq_insertInPlace, ht.insertInPlace_full hdepth hfull]
        exact ⟨_, rfl⟩

/-- A tree into which leaves have been inserted had room for them and stands for the
complete tree over them. -/
theorem represents_of_insertAll (hdepth : depth ≤ 31) {t : LeanIMT}
    (ht : insertAll H (new H depth) leaves = .ok t) :
  Represents H t depth leaves ∧ leaves.length ≤ 2 ^ depth
  := by
  rcases Nat.lt_or_ge (2 ^ depth) leaves.length with hlen | hlen
  · obtain ⟨e, he⟩ := (represents_new H depth).insertAll_error hdepth (by simp) hlen
    rw [he] at ht
    cases ht
  · obtain ⟨t', hall, ht'⟩ := (represents_new H depth).insertAll_ok hdepth leaves hlen
    rw [hall] at ht
    cases ht
    exact ⟨ht', hlen⟩

/-! ### Siblings -/

/-- The siblings handed out for an inserted leaf are those of the complete tree. -/
theorem Represents.generateProof_eq {t : LeanIMT} (ht : Represents H t depth leaves)
    {i : ℕ} (hi : i < leaves.length) :
  generateProof H t i
    = some (siblings (hashPair H) (leafRow leaves) depth 0 i, depth)
  := by
  rw [generateProof, ht.leaves_eq, ht.depth_eq, if_neg (by omega)]
  split
  · next h =>
      obtain ⟨rfl, hlen⟩ := h
      have hsibling : (if i = 0 then 1 else 0) = sibling i := by
        rw [sibling]
        split <;> split <;> omega
      rw [hsibling, leafScalar_eq, ht.leaves_eq]
      rfl
  · rw [siblings_eq_map]
    congr 2
    apply List.map_congr_left
    intro level hlevel
    rw [List.mem_range] at hlevel
    split
    · next h =>
        subst h
        rw [leafScalar_eq, ht.leaves_eq, pow_zero, Nat.div_one]
        rfl
    · rw [ht.computeNodeAtLevelScalar_eq hlevel.le, Nat.zero_add]
      rfl

end Shade.LeanIMT
