import Shade.Contract.CompleteTree

/-!
# Storing a tree and reading it back

Only the leaves, the depth and the root of an incremental tree are stored. The tree that is
read back has empty caches, unless it has no leaves, so that it computes nodes by recursion
where the original one finds them. What both have in common is that the nodes they do find are
those of the complete tree; an insertion keeps this, and nothing else can be observed.
-/

namespace Shade.LeanIMT

open Merkle

variable {H : Hash} {depth : ℕ} {leaves : List Word} {leaf : Word} {t u : LeanIMT}

/-! ### Trees that cache the right nodes -/

/-- The nodes a tree finds in its caches up to a level are those of the complete tree over a
list of leaves. -/
def CachesUpTo (H : Hash) (t : LeanIMT) (leaves : List Word) (level : ℕ) : Prop :=
  ∀ k ≤ level, ∀ index x, t.getCachedNode k index = some x → x = treeNode H leaves k index

/-- The tree has the given depth and leaves and the root of the complete tree, and what it
caches are nodes of the complete tree. It need not cache all of them. -/
structure Caches (H : Hash) (t : LeanIMT) (depth : ℕ) (leaves : List Word) : Prop where
  leaves_eq : t.leaves = leaves
  depth_eq : t.depth = depth
  capacity_eq : t.capacity = capacityOf depth
  cached : CachesUpTo H t leaves depth
  root_eq : t.root = Word.ofFr (treeRoot H depth leaves)

/-- The computed value of a node is the node of the complete tree, whether it is found in the
caches or computed from the nodes below it. -/
theorem CachesUpTo.computeNodeAtLevelScalar_eq {level : ℕ} (ht : CachesUpTo H t t.leaves level)
    (hlevel : level ≤ t.depth) (index : ℕ) :
  computeNodeAtLevelScalar H t level index = treeNode H t.leaves level index
  := by
  induction level generalizing index with
  | zero =>
      rw [computeNodeAtLevelScalar]
      cases hcached : t.getCachedNode 0 index with
      | some x => apply ht 0 le_rfl index x hcached
      | none => rfl
  | succ level ih =>
      have ht' : CachesUpTo H t t.leaves level := fun k hk => ht k (hk.trans (Nat.le_succ level))
      rw [computeNodeAtLevelScalar, if_neg (by omega)]
      cases hcached : t.getCachedNode (level + 1) index with
      | some x => apply ht (level + 1) le_rfl index x hcached
      | none =>
          change hashPair H _ _ = _
          rw [ih ht' (by omega), ih ht' (by omega), Nat.mul_comm]
          rfl

/-- A tree with the caches of the complete tree caches the right nodes. -/
theorem Represents.caches (ht : Represents H t depth leaves) :
  Caches H t depth leaves
  := by
  refine ⟨ht.leaves_eq, ht.depth_eq, ht.capacity_eq, ?_, ht.root_eq⟩
  intro level hlevel index x hx
  by_cases hdepth : depth = 0
  · have hnode : computeNodeAtLevelScalar H t level index = treeNode H leaves level index :=
      ht.computeNodeAtLevelScalar_eq hlevel
    obtain rfl : level = 0 := by omega
    rw [computeNodeAtLevelScalar, hx] at hnode
    exact hnode
  · rw [getCachedNode_eq hlevel hdepth (ht.subtree level hlevel) (ht.sparse level index)] at hx
    exact (Option.some.inj hx).symm

/-! ### Insertion -/

/-- What is found in the caches after a node is cached. -/
theorem getCachedNode_set (t : LeanIMT) (level index k i : ℕ) (x : Fr) :
  getCachedNode { t with sparseCache := t.sparseCache.set (level, index) x } k i
    = if level = k ∧ index = i then some x else t.getCachedNode k i
  := by
  rw [getCachedNode, Store.get_set]
  by_cases h : level = k ∧ index = i
  · rw [if_pos (Prod.mk.injEq .. ▸ h), if_pos h]
  · rw [if_neg (Prod.mk.injEq .. ▸ h), if_neg h]
    rfl

/-- A tree in the course of an insertion: what it caches are nodes of the complete tree with
the new leaf up to a level, and of the complete tree without it above. -/
structure Refreshing (H : Hash) (t : LeanIMT) (depth : ℕ) (leaves : List Word) (leaf : Word)
    (level : ℕ) : Prop where
  leaves_eq : t.leaves = leaves ++ [leaf]
  depth_eq : t.depth = depth
  capacity_eq : t.capacity = capacityOf depth
  cached : CachesUpTo H t (leaves ++ [leaf]) level
  stale : ∀ k ≤ depth, level < k → ∀ index x, t.getCachedNode k index = some x →
    x = treeNode H leaves k index

/-- The sibling of the node above the new leaf. -/
theorem Refreshing.siblingScalar_eq {level : ℕ} (ht : Refreshing H t depth leaves leaf level)
    (hlevel : level < depth) :
  siblingScalar H t level (leaves.length / 2 ^ level)
    = treeNode H (leaves ++ [leaf]) level (sibling (leaves.length / 2 ^ level))
  := by
  have hcached := ht.cached
  rw [← ht.leaves_eq] at hcached ⊢
  rw [siblingScalar]
  split
  · next h =>
      subst h
      rfl
  · cases hx : t.getCachedNode level (siblingIndex (leaves.length / 2 ^ level)) with
    | some x => apply hcached level le_rfl _ x hx
    | none =>
        apply hcached.computeNodeAtLevelScalar_eq
        rw [ht.depth_eq]
        exact hlevel.le

/-- One turn of the loop caches the node of the next level above the new leaf. -/
theorem Refreshing.step {level : ℕ} (ht : Refreshing H t depth leaves leaf level)
    (hlevel : level < depth) :
  Refreshing H
    { t with
      sparseCache := t.sparseCache.set (level + 1, leaves.length / 2 ^ (level + 1))
        (treeNode H (leaves ++ [leaf]) (level + 1) (leaves.length / 2 ^ (level + 1))) }
    depth leaves leaf (level + 1)
  := by
  refine ⟨ht.leaves_eq, ht.depth_eq, ht.capacity_eq, ?_, ?_⟩
  · intro k hk index x hx
    rw [getCachedNode_set] at hx
    split at hx
    · next h =>
        obtain ⟨rfl, rfl⟩ := h
        exact (Option.some.inj hx).symm
    · next h =>
        rcases Nat.lt_or_ge level k with hlt | hge
        · obtain rfl : k = level + 1 := by omega
          have hindex : index ≠ leaves.length / 2 ^ (level + 1) := fun hi => h ⟨rfl, hi.symm⟩
          rw [treeNode_append hindex]
          apply ht.stale (level + 1) hlevel hlt index x hx
        · apply ht.cached k hge index x hx
  · intro k hk hlt index x hx
    rw [getCachedNode_set, if_neg (by omega)] at hx
    apply ht.stale k hk (by omega) index x hx

/-- An insertion into a tree that is not full keeps the caches right. -/
theorem Caches.incrementalUpdate (ht : Caches H t depth leaves) (hlen : leaves.length < 2 ^ depth) :
  Caches H (incrementalUpdate H { t with leaves := t.leaves ++ [leaf] }) depth (leaves ++ [leaf])
  := by
  obtain ⟨rfl, rfl, hcapacity, hcached, -⟩ := ht
  have hindex : (t.leaves ++ [leaf]).length - 1 = t.leaves.length := by simp
  have hleaf : treeNode H (t.leaves ++ [leaf]) 0 t.leaves.length = leaf.toFr :=
    leafRow_append_length
  have hstart : Refreshing H
      { t with
        leaves := t.leaves ++ [leaf]
        sparseCache := t.sparseCache.set (0, t.leaves.length) leaf.toFr }
      t.depth t.leaves leaf 0 := by
    refine ⟨rfl, rfl, hcapacity, ?_, ?_⟩
    · intro k hk index x hx
      obtain rfl : k = 0 := by omega
      rw [getCachedNode_set { t with leaves := t.leaves ++ [leaf] }] at hx
      split at hx
      · next h =>
          obtain ⟨-, rfl⟩ := h
          rw [hleaf]
          exact (Option.some.inj hx).symm
      · next h =>
          rw [treeNode_append (by rw [pow_zero, Nat.div_one]; exact fun hi => h ⟨rfl, hi.symm⟩)]
          apply hcached 0 (Nat.zero_le _) index x hx
    · intro k hk hlt index x hx
      rw [getCachedNode_set { t with leaves := t.leaves ++ [leaf] }, if_neg (by omega)] at hx
      apply hcached k hk index x hx
  obtain ⟨hdone, hroot⟩ := recomputePath_invariant
    (I := fun t' level => Refreshing H t' t.depth t.leaves leaf level)
    (fun level t' ht' hlevel => ht'.siblingScalar_eq hlevel)
    (fun level t' ht' hlevel => ht'.step hlevel) hstart (Nat.zero_add t.depth)
  rw [pow_zero, Nat.div_one, hleaf] at hdone hroot
  rw [Nat.div_eq_of_lt hlen] at hroot
  have hscalar : ({ t with leaves := t.leaves ++ [leaf] } : LeanIMT).leafScalar t.leaves.length
      = leaf.toFr := leafRow_append_length
  simp only [LeanIMT.incrementalUpdate, hindex, hscalar]
  refine ⟨hdone.leaves_eq, hdone.depth_eq, hdone.capacity_eq, hdone.cached, ?_⟩
  rw [hroot]
  rfl

/-- An insertion answers by the number of leaves, and keeps the caches right. -/
theorem Caches.insertInPlace (ht : Caches H t depth leaves) (hdepth : depth ≤ 31) (leaf : Word) :
  if 2 ^ depth ≤ leaves.length then
    insertInPlace H t leaf = (.error "Tree is at capacity: cannot insert more leaves", t)
  else
    ∃ t', insertInPlace H t leaf = (.ok (), t') ∧ Caches H t' depth (leaves ++ [leaf])
  := by
  have hfull : t.capacity ≤ t.leaves.length ↔ 2 ^ depth ≤ leaves.length := by
    rw [ht.capacity_eq, capacityOf_eq hdepth, ht.leaves_eq]
  split
  · next h => rw [LeanIMT.insertInPlace, if_pos (hfull.mpr h)]
  · next h =>
      rw [LeanIMT.insertInPlace, if_neg (hfull.not.mpr h)]
      exact ⟨_, rfl, ht.incrementalUpdate (not_le.mp h)⟩

/-- Two trees that cache the right nodes of one complete tree answer the insertions of a list
alike, and cache the right nodes of one complete tree again. -/
theorem Caches.insertAllInPlace (ht : Caches H t depth leaves) (hu : Caches H u depth leaves)
    (hdepth : depth ≤ 31) (further : List Word) :
  (insertAllInPlace H t further).1 = (insertAllInPlace H u further).1
    ∧ ∃ leaves', Caches H (insertAllInPlace H t further).2 depth leaves'
      ∧ Caches H (insertAllInPlace H u further).2 depth leaves'
  := by
  induction further generalizing t u leaves with
  | nil => exact ⟨rfl, leaves, ht, hu⟩
  | cons leaf further ih =>
      have ht' := ht.insertInPlace hdepth leaf
      have hu' := hu.insertInPlace hdepth leaf
      rw [LeanIMT.insertAllInPlace, LeanIMT.insertAllInPlace]
      split at ht'
      · next hfull =>
          rw [if_pos hfull] at hu'
          rw [ht', hu']
          obtain ⟨hanswers, hcaches⟩ := ih ht hu
          exact ⟨congrArg (List.cons _) hanswers, hcaches⟩
      · next hroom =>
          rw [if_neg hroom] at hu'
          obtain ⟨t', ht', hcachest⟩ := ht'
          obtain ⟨u', hu', hcachesu⟩ := hu'
          rw [ht', hu']
          obtain ⟨hanswers, hcaches⟩ := ih hcachest hcachesu
          exact ⟨congrArg (List.cons _) hanswers, hcaches⟩

/-! ### What can be observed of a tree -/

/-- Two trees have the same root, the same leaves and as many of them, the same nodes at every
level and every index of that level, and the same siblings for every leaf. -/
structure ObservedAlike (H : Hash) (t u : LeanIMT) : Prop where
  root : t.root = u.root
  leafCount : t.leaves.length = u.leaves.length
  leaves : t.leaves = u.leaves
  node : ∀ level index, index < 2 ^ (t.depth - level) →
    getNode H t level index = getNode H u level index
  proof : ∀ leafIndex, generateProof H t leafIndex = generateProof H u leafIndex

/-- A node of a tree that caches the right nodes. -/
theorem Caches.computeNodeAtLevelScalar_eq (ht : Caches H t depth leaves) {level : ℕ}
    (hlevel : level ≤ depth) (index : ℕ) :
  computeNodeAtLevelScalar H t level index = treeNode H leaves level index
  := by
  obtain ⟨rfl, rfl, -, hcached, -⟩ := ht
  apply CachesUpTo.computeNodeAtLevelScalar_eq _ hlevel
  intro k hk
  apply hcached k (hk.trans hlevel)

/-- The siblings of a leaf, in a tree that caches the right nodes. -/
theorem Caches.generateProof_eq (ht : Caches H t depth leaves) (leafIndex : ℕ) :
  generateProof H t leafIndex
    = if leaves.length ≤ leafIndex then
        none
      else if depth = 1 ∧ leaves.length = 2 then
        some ([leafRow leaves (if leafIndex = 0 then 1 else 0)], depth)
      else
        some ((List.range depth).map fun level =>
            if level = 0 then
              leafRow leaves (siblingIndex leafIndex)
            else
              treeNode H leaves level (siblingIndex (leafIndex / 2 ^ level)),
          depth)
  := by
  have hscalar : ∀ i, t.leafScalar i = leafRow leaves i := by
    intro i
    rw [leafScalar_eq, ht.leaves_eq]
  have hnodes : (List.range depth).map (fun level =>
        if level = 0 then leafRow leaves (siblingIndex leafIndex)
        else computeNodeAtLevelScalar H t level (siblingIndex (leafIndex / 2 ^ level)))
      = (List.range depth).map (fun level =>
        if level = 0 then leafRow leaves (siblingIndex leafIndex)
        else treeNode H leaves level (siblingIndex (leafIndex / 2 ^ level))) := by
    apply List.map_congr_left
    intro level hlevel
    rw [ht.computeNodeAtLevelScalar_eq (List.mem_range.mp hlevel).le]
  rw [generateProof, ht.leaves_eq, ht.depth_eq]
  simp only [hscalar]
  rw [hnodes]

/-- Two trees that cache the right nodes of one complete tree are observed alike. -/
theorem Caches.observedAlike (ht : Caches H t depth leaves) (hu : Caches H u depth leaves) :
  ObservedAlike H t u
  := by
  have hleaves : t.leaves = u.leaves := by rw [ht.leaves_eq, hu.leaves_eq]
  refine ⟨by rw [ht.root_eq, hu.root_eq], by rw [hleaves], hleaves, ?_, ?_⟩
  · intro level index _
    rw [getNode, getNode, ht.depth_eq, hu.depth_eq, hleaves]
    split
    · rfl
    · split
      · rfl
      · next hlevel =>
          rw [ht.computeNodeAtLevelScalar_eq (not_lt.mp hlevel),
            hu.computeNodeAtLevelScalar_eq (not_lt.mp hlevel)]
  · intro leafIndex
    rw [ht.generateProof_eq, hu.generateProof_eq]

/-! ### Storage -/

/-- Without leaves the tree that is read back is a new one. -/
theorem fromStorage_nil (H : Hash) (depth : ℕ) (root : Word) :
  fromStorage H [] depth root = new H depth
  := by
  change recomputeTree H _ = recomputeTree H _
  rw [recomputeTree, recomputeTree]

/-- The tree that is read back caches the right nodes. -/
theorem caches_fromStorage {root : Word} (hroot : root = Word.ofFr (treeRoot H depth leaves)) :
  Caches H (fromStorage H leaves depth root) depth leaves
  := by
  cases leaves with
  | nil =>
      rw [fromStorage_nil]
      exact (represents_new H depth).caches
  | cons leaf leaves =>
      refine ⟨rfl, rfl, rfl, ?_, hroot⟩
      intro k hk index x hx
      cases hx

/-- A tree reached by insertions, stored and read back, is observed like the tree itself, and
so are the two after any further insertions, which they answer alike. -/
theorem storage_round_trip (hdepth : depth ≤ 31)
    (ht : insertAll H (new H depth) leaves = .ok t) (further : List Word) :
  ObservedAlike H t (fromStorage H t.toStorage.1 t.toStorage.2.1 t.toStorage.2.2)
    ∧ (insertAllInPlace H t further).1
      = (insertAllInPlace H (fromStorage H t.toStorage.1 t.toStorage.2.1 t.toStorage.2.2)
          further).1
    ∧ ObservedAlike H (insertAllInPlace H t further).2
      (insertAllInPlace H (fromStorage H t.toStorage.1 t.toStorage.2.1 t.toStorage.2.2)
        further).2
  := by
  have hcaches := (represents_of_insertAll hdepth ht).1.caches
  have hstored : Caches H (fromStorage H t.toStorage.1 t.toStorage.2.1 t.toStorage.2.2) depth
      leaves := by
    rw [toStorage, hcaches.leaves_eq, hcaches.depth_eq]
    apply caches_fromStorage hcaches.root_eq
  obtain ⟨hanswers, leaves', ht', hu'⟩ := hcaches.insertAllInPlace hstored hdepth further
  exact ⟨hcaches.observedAlike hstored, hanswers, ht'.observedAlike hu'⟩

/-- A tree of depth 2 with three leaves, of which one further leaf makes it full, with the sum
in the place of the hash. -/
theorem storage_round_trip_three :
  ∃ t, insertAll List.sum (new List.sum 2) [1, 2, 3] = .ok t
    ∧ ObservedAlike List.sum (insertAllInPlace List.sum t [4, 5]).2
      (insertAllInPlace List.sum
        (fromStorage List.sum t.toStorage.1 t.toStorage.2.1 t.toStorage.2.2) [4, 5]).2
  := by
  obtain ⟨t, ht, -⟩ := (represents_new List.sum 2).insertAll_ok (by decide) [1, 2, 3] (by decide)
  exact ⟨t, ht, (storage_round_trip (by decide) ht [4, 5]).2.2⟩

end Shade.LeanIMT
