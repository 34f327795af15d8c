import Shade.Host
import Shade.Library.Store

/-!
# The incremental Merkle tree

The tree the pool keeps its commitments in: a complete binary tree of fixed depth, with
the missing leaves taken as zero. The hashes of the empty subtrees are computed once, when
the tree is made; an insertion computes the nodes on the path from the new leaf to the
root and keeps them in a cache.
-/

namespace Shade

/-- An incremental Merkle tree. `subtreeCache` holds the node shared by all empty subtrees
of a level, `sparseCache` the nodes that an insertion has computed, by level and index. -/
structure LeanIMT where
  leaves : List Word
  depth : ℕ
  capacity : ℕ
  root : Word
  subtreeCache : Store ℕ Fr
  sparseCache : Store (ℕ × ℕ) Fr
deriving DecidableEq

namespace LeanIMT

variable (H : Hash)

def hashPair (left right : Fr) : Fr := H [left, right]

/-- `1u32.checked_shl(depth).unwrap_or(u32::MAX)`. -/
def capacityOf (depth : ℕ) : ℕ :=
  if depth < 32 then 2 ^ depth else 2 ^ 32 - 1

/-- The caching loop of `recomputeTree`: the hashes of the empty subtrees from a level on,
for the given number of levels above it. -/
def cacheSubtreeLevels : ℕ → ℕ → Fr → Store ℕ Fr → Store ℕ Fr × Fr
  | 0, level, hash, cache => (cache.set level hash, hash)
  | n + 1, level, hash, cache =>
      cacheSubtreeLevels n (level + 1) (hashPair H hash hash) (cache.set level hash)

/-- Fill the cache of the empty subtrees. A tree of depth `0` has no cache and the root
zero. -/
def recomputeTree (t : LeanIMT) : LeanIMT :=
  if t.depth = 0 then
    { t with root := 0 }
  else
    let (cache, hash) := cacheSubtreeLevels H t.depth 0 0 t.subtreeCache
    { t with subtreeCache := cache, root := Word.ofFr hash }

/-- The empty tree of a given depth. -/
def new (depth : ℕ) : LeanIMT :=
  recomputeTree H
    { leaves := []
      depth := depth
      capacity := capacityOf depth
      root := 0
      subtreeCache := Store.empty
      sparseCache := Store.empty }

/-- The cached value of a node: the node itself if an insertion computed it, or else the
node of the empty subtrees of its level. -/
def getCachedNode (t : LeanIMT) (level index : ℕ) : Option Fr :=
  match t.sparseCache.get (level, index) with
  | some x => some x
  | none => t.subtreeCache.get level

/-- A leaf as a scalar, zero if it is missing. -/
def leafScalar (t : LeanIMT) (index : ℕ) : Fr :=
  match t.leaves[index]? with
  | some leaf => leaf.toFr
  | none => 0

/-- The value of a node, from the cache or from the nodes below it. -/
def computeNodeAtLevelScalar (t : LeanIMT) : ℕ → ℕ → Fr
  | 0, index =>
      match t.getCachedNode 0 index with
      | some x => x
      | none => t.leafScalar index
  | level + 1, index =>
      if t.depth < level + 1 then 0
      else
        match t.getCachedNode (level + 1) index with
        | some x => x
        | none =>
            hashPair H (computeNodeAtLevelScalar t level (index * 2))
              (computeNodeAtLevelScalar t level (index * 2 + 1))

/-- The index of the sibling of a node. -/
def siblingIndex (index : ℕ) : ℕ :=
  if index % 2 = 0 then index + 1 else index - 1

/-- The value of the sibling of a node: at the bottom a leaf, above a node. -/
def siblingScalar (t : LeanIMT) (level index : ℕ) : Fr :=
  if level = 0 then
    t.leafScalar (siblingIndex index)
  else
    match t.getCachedNode level (siblingIndex index) with
    | some x => x
    | none => computeNodeAtLevelScalar H t level (siblingIndex index)

/-- A node and its sibling, the left one first. -/
def orderedPair (t : LeanIMT) (level index : ℕ) (scalar : Fr) : List Fr :=
  if index % 2 = 0 then
    [scalar, siblingScalar H t level index]
  else
    [siblingScalar H t level index, scalar]

/-- Compute and cache the nodes above a node, for the given number of levels. -/
def recomputePath : ℕ → ℕ → ℕ → Fr → LeanIMT → LeanIMT × Fr
  | 0, _, _, scalar, t => (t, scalar)
  | n + 1, level, index, scalar, t =>
      let parent := H (orderedPair H t level index scalar)
      recomputePath n (level + 1) (index / 2) parent
        { t with sparseCache := t.sparseCache.set (level + 1, index / 2) parent }

/-- The pairs hashed by `recomputePath`. -/
def recomputePathInputs : ℕ → ℕ → ℕ → Fr → LeanIMT → List (List Fr)
  | 0, _, _, _, _ => []
  | n + 1, level, index, scalar, t =>
      let pair := orderedPair H t level index scalar
      pair :: recomputePathInputs n (level + 1) (index / 2) (H pair)
        { t with sparseCache := t.sparseCache.set (level + 1, index / 2) (H pair) }

/-- Cache the last leaf and recompute the path above it. -/
def incrementalUpdate (t : LeanIMT) : LeanIMT :=
  let index := t.leaves.length - 1
  let scalar := t.leafScalar index
  let cached := { t with sparseCache := t.sparseCache.set (0, index) scalar }
  let (updated, root) := recomputePath H t.depth 0 index scalar cached
  { updated with root := Word.ofFr root }

/-- Append a leaf; fails when the tree is full. -/
def insert (t : LeanIMT) (leaf : Word) : Except String LeanIMT :=
  if t.capacity ≤ t.leaves.length then
    .error "Tree is at capacity: cannot insert more leaves"
  else
    .ok (incrementalUpdate H { t with leaves := t.leaves ++ [leaf] })

/-- `insert` as it acts on a tree that is changed in place: its answer, and the tree after
it. -/
def insertInPlace (t : LeanIMT) (leaf : Word) : Except String Unit × LeanIMT :=
  if t.capacity ≤ t.leaves.length then
    (.error "Tree is at capacity: cannot insert more leaves", t)
  else
    (.ok (), incrementalUpdate H { t with leaves := t.leaves ++ [leaf] })

/-- `insert` returns the tree that is left in place when the answer is not an error. -/
theorem insert_eq_insertInPlace (t : LeanIMT) (leaf : Word) :
  insert H t leaf = (insertInPlace H t leaf).1.map fun _ => (insertInPlace H t leaf).2
  := by
  rw [insert, insertInPlace]
  split
  · rfl
  · rfl

/-- Append the leaves of a list, in order. -/
def insertAll (t : LeanIMT) (leaves : List Word) : Except String LeanIMT :=
  leaves.foldlM (insert H) t

/-- The siblings along the path of an inserted leaf, from the bottom, and the depth. -/
def generateProof (t : LeanIMT) (leafIndex : ℕ) : Option (List Fr × ℕ) :=
  if t.leaves.length ≤ leafIndex then
    none
  else if t.depth = 1 ∧ t.leaves.length = 2 then
    some ([t.leafScalar (if leafIndex = 0 then 1 else 0)], t.depth)
  else
    some ((List.range t.depth).map fun level =>
        if level = 0 then
          t.leafScalar (siblingIndex leafIndex)
        else
          computeNodeAtLevelScalar H t level (siblingIndex (leafIndex / 2 ^ level)),
      t.depth)

/-- The value of a node: at the bottom an inserted leaf, above any node. -/
def getNode (t : LeanIMT) (level index : ℕ) : Option Word :=
  if level = 0 then
    t.leaves[index]?
  else if t.depth < level then
    none
  else
    some (Word.ofFr (computeNodeAtLevelScalar H t level index))

/-! ### Storage -/

/-- What is kept of a tree. -/
def toStorage (t : LeanIMT) : List Word × ℕ × Word := (t.leaves, t.depth, t.root)

/-- The caches of an empty tree are made anew; those of another tree are left empty. -/
def rebuildCacheFromLeaves (t : LeanIMT) : LeanIMT :=
  if t.leaves.isEmpty then
    recomputeTree H t
  else
    { t with subtreeCache := Store.empty, sparseCache := Store.empty }

/-- The tree that is made of what has been kept. -/
def fromStorage (leaves : List Word) (depth : ℕ) (root : Word) : LeanIMT :=
  rebuildCacheFromLeaves H
    { leaves := leaves
      depth := depth
      capacity := capacityOf depth
      root := root
      subtreeCache := Store.empty
      sparseCache := Store.empty }

/-- Insert the leaves of a list one after the other, whether or not there is room: the answers,
and the tree after them. -/
def insertAllInPlace : LeanIMT → List Word → List (Except String Unit) × LeanIMT
  | t, [] => ([], t)
  | t, leaf :: leaves =>
      let (answer, t') := insertInPlace H t leaf
      let (answers, t'') := insertAllInPlace t' leaves
      (answer :: answers, t'')

/-! ### The pairs a tree hashes -/

/-- The pairs hashed for the empty subtrees above a node, for the given number of levels. -/
def cacheSubtreeInputs : ℕ → Fr → List (List Fr)
  | 0, _ => []
  | n + 1, hash => [hash, hash] :: cacheSubtreeInputs n (hashPair H hash hash)

/-- The pairs hashed by an insertion. -/
def insertInputs (t : LeanIMT) (leaf : Word) : List (List Fr) :=
  if t.capacity ≤ t.leaves.length then
    []
  else
    recomputePathInputs H t.depth 0 t.leaves.length leaf.toFr
      { t with
        leaves := t.leaves ++ [leaf]
        sparseCache := t.sparseCache.set (0, t.leaves.length) leaf.toFr }

/-- The pairs hashed by the insertions of a list of leaves. -/
def insertAllInputs : LeanIMT → List Word → List (List Fr)
  | _, [] => []
  | t, leaf :: leaves =>
      insertInputs H t leaf ++
        match insert H t leaf with
        | .ok t' => insertAllInputs t' leaves
        | .error _ => []

/-- The pairs hashed when a tree is made and the leaves are inserted. -/
def buildInputs (depth : ℕ) (leaves : List Word) : List (List Fr) :=
  cacheSubtreeInputs H depth 0 ++ insertAllInputs H (new H depth) leaves

end LeanIMT

end Shade
