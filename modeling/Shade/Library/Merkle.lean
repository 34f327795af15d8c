import Mathlib

/-!
# Merkle trees

The complete binary tree over a row of leaves `leaf : ℕ → α`, with a function `hash` of two
nodes. Level `0` is the row itself, and the nodes of a level are paired into those of the
next. A tree of finitely many leaves is the tree of the row that continues with a default.
`climb` goes from a node to the root along a path, given by the siblings it meets; without
collisions it ends in a node of the tree only if it starts in the node below.
-/

namespace Merkle

variable {α : Type*} (hash : α → α → α)

/-- The node of a level at an index. -/
def node (leaf : ℕ → α) : ℕ → ℕ → α
  | 0, index => leaf index
  | level + 1, index => hash (node leaf level (2 * index)) (node leaf level (2 * index + 1))

/-- The node of a level over default leaves. -/
def emptyNode (zero : α) : ℕ → α
  | 0 => zero
  | level + 1 => hash (emptyNode zero level) (emptyNode zero level)

/-- A node depends only on the leaves below it. -/
theorem node_congr {leaf leaf' : ℕ → α} :
  ∀ {level index : ℕ}, (∀ j, j / 2 ^ level = index → leaf j = leaf' j) →
    node hash leaf level index = node hash leaf' level index
  | 0, index, h => h index (by simp)
  | level + 1, index, h => by
      have hbelow : ∀ k, k / 2 = index →
          node hash leaf level k = node hash leaf' level k := by
        intro k hk
        apply node_congr
        intro j hj
        apply h
        rw [pow_succ, ← Nat.div_div_eq_div_mul, hj, hk]
      rw [node, node, hbelow (2 * index) (by omega), hbelow (2 * index + 1) (by omega)]

theorem node_const (zero : α) (level index : ℕ) :
  node hash (fun _ => zero) level index = emptyNode hash zero level
  := by
  induction level generalizing index with
  | zero => rfl
  | succ level ih => rw [node, emptyNode, ih, ih]

/-- A node over default leaves only. -/
theorem node_eq_emptyNode {leaf : ℕ → α} {zero : α} {level index : ℕ}
    (h : ∀ j, j / 2 ^ level = index → leaf j = zero) :
  node hash leaf level index = emptyNode hash zero level
  := by
  rw [← node_const hash zero level index]
  apply node_congr
  exact h

/-! ### Paths -/

/-- The index of the sibling of a node. -/
def sibling (index : ℕ) : ℕ :=
  if index % 2 = 0 then index + 1 else index - 1

/-- The hash of a node and its sibling, the left one first. -/
def parent (index : ℕ) (x sibling : α) : α :=
  if index % 2 = 0 then hash x sibling else hash sibling x

/-- A node is the parent of each of the nodes below it. -/
theorem parent_node (leaf : ℕ → α) (level index : ℕ) :
  parent hash index (node hash leaf level index) (node hash leaf level (sibling index))
    = node hash leaf (level + 1) (index / 2)
  := by
  rw [parent, sibling, node]
  split
  · have hleft : 2 * (index / 2) = index := by omega
    rw [hleft]
  · have hleft : 2 * (index / 2) = index - 1 := by omega
    have hright : 2 * (index / 2) + 1 = index := by omega
    rw [hright, hleft]

/-- The node reached from a node at an index along its siblings, from the bottom up. -/
def climb : ℕ → α → List α → α
  | _, x, [] => x
  | index, x, s :: siblings => climb (index / 2) (parent hash index x s) siblings

/-- The siblings that are met from a node up, for the given number of levels. -/
def siblings (leaf : ℕ → α) : ℕ → ℕ → ℕ → List α
  | 0, _, _ => []
  | n + 1, level, index =>
      node hash leaf level (sibling index) :: siblings leaf n (level + 1) (index / 2)

theorem length_siblings (leaf : ℕ → α) (n level index : ℕ) :
  (siblings hash leaf n level index).length = n
  := by
  induction n generalizing level index with
  | zero => rfl
  | succ n ih => rw [siblings, List.length_cons, ih]

/-- The siblings that are met, by the level at which they are. -/
theorem siblings_eq_map (leaf : ℕ → α) (n level index : ℕ) :
  siblings hash leaf n level index
    = (List.range n).map fun k => node hash leaf (level + k) (sibling (index / 2 ^ k))
  := by
  induction n generalizing level index with
  | zero => rfl
  | succ n ih =>
      rw [siblings, ih, List.range_succ_eq_map, List.map_cons, List.map_map]
      congr 1
      · simp
      · apply List.map_congr_left
        intro k _
        simp only [Function.comp, Nat.succ_eq_add_one, pow_succ', Nat.div_div_eq_div_mul]
        congr 1
        omega

/-- Climbing along the siblings of the tree reaches the nodes of the tree. -/
theorem climb_siblings (leaf : ℕ → α) (n level index : ℕ) :
  climb hash index (node hash leaf level index) (siblings hash leaf n level index)
    = node hash leaf (level + n) (index / 2 ^ n)
  := by
  induction n generalizing level index with
  | zero => simp [climb, siblings]
  | succ n ih =>
      rw [siblings, climb, parent_node, ih, Nat.div_div_eq_div_mul, ← pow_succ']
      congr 1
      omega

/-- The siblings in the tree over default leaves. -/
theorem siblings_const (zero : α) (n level index : ℕ) :
  siblings hash (fun _ => zero) n level index
    = (List.range n).map fun k => emptyNode hash zero (level + k)
  := by
  rw [siblings_eq_map]
  apply List.map_congr_left
  intro k _
  apply node_const

/-- Climbing from a default leaf along default subtrees reaches the default root, at every
index. -/
theorem climb_const (zero : α) (n index : ℕ) :
  climb hash index zero ((List.range n).map (emptyNode hash zero)) = emptyNode hash zero n
  := by
  have hclimb := climb_siblings hash (fun _ => zero) n 0 index
  simp only [siblings_const, node_const, Nat.zero_add] at hclimb
  exact hclimb

/-! ### Collisions -/

/-- The pair that is hashed into the parent of a node. -/
def pair (index : ℕ) (x sibling : α) : α × α :=
  if index % 2 = 0 then (x, sibling) else (sibling, x)

theorem hash_pair (index : ℕ) (x s : α) :
  hash (pair index x s).1 (pair index x s).2 = parent hash index x s
  := by
  rw [pair, parent]
  split
  · rfl
  · rfl

/-- Climbing ends in a hash. -/
theorem exists_climb_eq :
  ∀ (path : List α) (index : ℕ) (x : α), path ≠ [] →
    ∃ left right, climb hash index x path = hash left right
  | [], _, _, h => absurd rfl h
  | [s], index, x, _ => by
      use (pair index x s).1, (pair index x s).2
      rw [hash_pair hash]
      rfl
  | s :: s' :: path, index, x, _ => by
      rw [climb]
      apply exists_climb_eq (s' :: path)
      apply List.cons_ne_nil

/-- The pairs that are hashed while climbing. -/
def climbPairs : ℕ → α → List α → List (α × α)
  | _, _, [] => []
  | index, x, s :: siblings =>
      pair index x s :: climbPairs (index / 2) (parent hash index x s) siblings

/-- The pairs hashed while climbing along the siblings of the tree are pairs of nodes of the
tree. -/
theorem mem_climbPairs_siblings {leaf : ℕ → α} {q : α × α} :
  ∀ (n : ℕ) {level index : ℕ},
    q ∈ climbPairs hash index (node hash leaf level index) (siblings hash leaf n level index) →
    ∃ k < n, q = (node hash leaf (level + k) (2 * (index / 2 ^ (k + 1))),
      node hash leaf (level + k) (2 * (index / 2 ^ (k + 1)) + 1))
  | 0, _, _, h => by cases h
  | n + 1, level, index, h => by
      rw [siblings, climbPairs, parent_node] at h
      rcases List.mem_cons.mp h with rfl | h
      · use 0, Nat.succ_pos n
        rw [pair, sibling]
        simp only [Nat.add_zero, Nat.zero_add, pow_one]
        split
        · have hleft : 2 * (index / 2) = index := by omega
          rw [hleft]
        · have hleft : 2 * (index / 2) = index - 1 := by omega
          have hright : index - 1 + 1 = index := by omega
          rw [hleft, hright]
      · obtain ⟨k, hk, rfl⟩ := mem_climbPairs_siblings n h
        use k + 1, Nat.succ_lt_succ hk
        rw [Nat.div_div_eq_div_mul, ← pow_succ', Nat.add_assoc, Nat.add_comm 1 k]

/-- If climbing reaches a node of the tree, and no two of the pairs hashed on the way and of
those in the tree collide, then it starts in the node of the tree below. -/
theorem eq_node_of_climb {leaf : ℕ → α} {S : Set (α × α)}
    (hinj : S.InjOn fun p => hash p.1 p.2) :
  ∀ (path : List α) {level index : ℕ} {x : α},
    (∀ p ∈ climbPairs hash index x path, p ∈ S) →
    (∀ k < path.length, (node hash leaf (level + k) (2 * (index / 2 ^ (k + 1))),
      node hash leaf (level + k) (2 * (index / 2 ^ (k + 1)) + 1)) ∈ S) →
    climb hash index x path = node hash leaf (level + path.length) (index / 2 ^ path.length) →
    x = node hash leaf level index
  | [], level, index, x, _, _, h => by simpa [climb] using h
  | s :: path, level, index, x, hclimb, htree, h => by
      have hparent : parent hash index x s = node hash leaf (level + 1) (index / 2) := by
        apply eq_node_of_climb hinj path
        · intro p hp
          apply hclimb p (List.mem_cons_of_mem _ hp)
        · intro k hk
          have := htree (k + 1) (Nat.succ_lt_succ hk)
          rwa [Nat.div_div_eq_div_mul, ← pow_succ', Nat.add_assoc, Nat.add_comm 1 k]
        · rw [Nat.div_div_eq_div_mul, ← pow_succ', Nat.add_assoc, Nat.add_comm 1]
          exact h
      have hpair := hclimb _ (List.mem_cons_self ..)
      have hnode := htree 0 (Nat.succ_pos _)
      rw [Nat.add_zero, Nat.zero_add, pow_one] at hnode
      have heq := hinj hpair hnode ((hash_pair hash index x s).trans (by rw [hparent, node]))
      rw [pair] at heq
      split at heq
      · have hleft : 2 * (index / 2) = index := by omega
        rw [hleft] at heq
        exact congrArg Prod.fst heq
      · have hright : 2 * (index / 2) + 1 = index := by omega
        rw [hright] at heq
        exact congrArg Prod.snd heq

end Merkle
