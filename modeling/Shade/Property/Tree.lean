import Shade.Contract.CompleteTree
import Shade.Pool.Deployment

/-!
# The commitment tree of the pool

The pool keeps the list of its leaves, a counter, the last root and the roots it has had. In
every state a run reaches these fit together: the counter is the length of the list, the
root is that of the complete tree over the list, and the roots known are those of its
prefixes. The list only grows, and the root that a caller hands over is compared with the
one the pool computes but decides nothing else.
-/

namespace Shade.Pool

open Txn

variable {host : Host} {tx : Tx} {w w' : World} {H : Hash} {depth : ℕ}

/-! ### What a call does to the tree -/

/-- A list of leaves is appended to the tree, one after the other, each with the root of the
tree that has it. -/
inductive Appends (H : Hash) : State → List Word → State → Prop
  | nil {s s' : State} (hdepth : s'.treeDepth = s.treeDepth)
      (hleaves : s'.treeLeaves = s.treeLeaves) (hroot : s'.treeRoot = s.treeRoot)
      (hknown : s'.knownRoot = s.knownRoot) :
      Appends H s [] s'
  | cons {s s' : State} {commitment root : Word} {commitments : List Word}
      (hroot : appendRoot H s.treeDepth s.treeLeaves commitment = .ok root)
      (h : Appends H
        { s with
          treeLeaves := s.treeLeaves ++ [commitment]
          treeRoot := root
          knownRoot := s.knownRoot.set root true }
        commitments s') :
      Appends H s (commitment :: commitments) s'

/-- A settlement appends both its outputs. -/
theorem Settlement.appends {verifier : Option Address} {deadlineIndex : ℕ} {args : MpcArgs}
    (x : Settlement host w verifier deadlineIndex args) (event : Event) :
  Appends host.poseidon w.pool [args.outputCommitmentA, args.outputCommitmentB]
    (x.world.emit event).pool
  := by
  apply Appends.cons x.rootA_eq
  apply Appends.cons x.newRoot_eq
  exact .nil rfl rfl rfl rfl

/-- An accepted call appends the leaves it counts. -/
theorem Call.exec_appends {c : Call} (h : c.exec host tx w = some w') :
  ∃ commitments, Appends host.poseidon w.pool commitments w'.pool
    ∧ w'.pool.leafCount = w.pool.leafCount + commitments.length
  := by
  cases exec_outcome h with
  | receiveCctpDeposit args x =>
      use [args.commitment], .cons x.root_eq (.nil rfl rfl rfl rfl)
      rfl
  | withdraw args x => exact ⟨[], .nil rfl rfl rfl rfl, rfl⟩
  | withdrawCctp args x => exact ⟨[], .nil rfl rfl rfl rfl, rfl⟩
  | rfqSettle args x => exact ⟨[], .nil rfl rfl rfl rfl, rfl⟩
  | rfqSettleAtomicSwap args x => exact ⟨[], .nil rfl rfl rfl rfl, rfl⟩
  | privateTransferSettle args x =>
      use [x.signals.getD 1 0], .cons x.root_eq (.nil rfl rfl rfl rfl)
      rfl
  | mpcSettle args x =>
      use [args.outputCommitmentA, args.outputCommitmentB], x.appends _
      rfl
  | mpcSettlePriced args x =>
      use [args.outputCommitmentA, args.outputCommitmentB], x.appends _
      rfl
  | registerAsset assetId token hadmin hnew => exact ⟨[], .nil rfl rfl rfl rfl, rfl⟩
  | config c hadmin =>
      use []
      cases c <;> exact ⟨.nil rfl rfl rfl rfl, rfl⟩

theorem Appends.treeLeaves_eq {s s' : State} {commitments : List Word}
    (h : Appends H s commitments s') :
  s'.treeLeaves = s.treeLeaves ++ commitments
  := by
  induction h with
  | nil hdepth hleaves hroot hknown => rw [hleaves, List.append_nil]
  | cons hroot h ih => rw [ih, List.append_assoc, List.singleton_append]

/-! ### The invariant -/

/-- The leaves fit in the tree, the root is that of the complete tree over them, and the
roots known are zero and those of the prefixes of the leaves. -/
structure TreeInvariant (H : Hash) (depth : ℕ) (s : State) : Prop where
  depth_eq : s.treeDepth = depth
  length_le : s.treeLeaves.length ≤ 2 ^ depth
  root_eq : s.treeLeaves ≠ [] →
    s.treeRoot = Word.ofFr (LeanIMT.treeRoot H depth s.treeLeaves)
  known : ∀ root, s.isKnownRoot root = true ↔ root = 0 ∨ ∃ k, 0 < k ∧ k ≤ s.treeLeaves.length
    ∧ root = Word.ofFr (LeanIMT.treeRoot H depth (s.treeLeaves.take k))

theorem treeInvariant_constructor (H : Hash) (admin usdcSac verifier nullifierRegistry : Address)
    (depth : ℕ) (poolId chainId : UInt32) :
  TreeInvariant H depth
    (State.constructor admin usdcSac verifier nullifierRegistry depth poolId chainId)
  := by
  constructor
  · rfl
  · apply Nat.zero_le _
  · intro h
    exact absurd rfl h
  · intro root
    rw [State.isKnownRoot, State.constructor, Store.get_set, Store.get_empty]
    constructor
    · intro h
      left
      by_contra hroot
      rw [if_neg (Ne.symm hroot)] at h
      cases h
    · rintro (rfl | ⟨k, hpos, hle, -⟩)
      · rfl
      · rw [List.length_nil] at hle
        omega

/-- The root computed for an append is the root of the tree into which all leaves are
inserted. -/
theorem appendRoot_eq (H : Hash) (depth : ℕ) (leaves : List Word) (commitment : Word) :
  appendRoot H depth leaves commitment
    = (LeanIMT.insertAll H (LeanIMT.new H depth) (leaves ++ [commitment])).map LeanIMT.root
  := by
  rw [appendRoot, LeanIMT.insertAll, LeanIMT.insertAll, List.foldlM_append]
  cases leaves.foldlM (LeanIMT.insert H) (LeanIMT.new H depth) with
  | error e => rfl
  | ok t =>
      change (LeanIMT.insert H t commitment >>= _)
        = (LeanIMT.insert H t commitment >>= pure).map LeanIMT.root
      cases LeanIMT.insert H t commitment with
      | error e => rfl
      | ok t' => rfl

/-- The root computed for an append is that of the complete tree with the new leaf, which
fits in it. -/
theorem appendRoot_ok (hdepth : depth ≤ 31) {leaves : List Word} {commitment root : Word}
    (h : appendRoot H depth leaves commitment = .ok root) :
  (leaves ++ [commitment]).length ≤ 2 ^ depth
    ∧ root = Word.ofFr (LeanIMT.treeRoot H depth (leaves ++ [commitment]))
  := by
  rw [appendRoot_eq] at h
  cases hall : LeanIMT.insertAll H (LeanIMT.new H depth) (leaves ++ [commitment]) with
  | error e =>
      rw [hall] at h
      cases h
  | ok t =>
      rw [hall] at h
      cases h
      obtain ⟨hrep, hlen⟩ := LeanIMT.represents_of_insertAll hdepth hall
      exact ⟨hlen, hrep.root_eq⟩

/-- Appending a leaf keeps the invariant. -/
theorem TreeInvariant.append (hdepth : depth ≤ 31) {s : State} {commitment root : Word}
    (hs : TreeInvariant H depth s)
    (hroot : appendRoot H s.treeDepth s.treeLeaves commitment = .ok root) :
  TreeInvariant H depth
    { s with
      treeLeaves := s.treeLeaves ++ [commitment]
      treeRoot := root
      knownRoot := s.knownRoot.set root true }
  := by
  rw [hs.depth_eq] at hroot
  obtain ⟨hlen, rfl⟩ := appendRoot_ok hdepth hroot
  constructor
  · exact hs.depth_eq
  · exact hlen
  · intro _
    rfl
  · intro root'
    have hset : State.isKnownRoot
          { s with
            treeLeaves := s.treeLeaves ++ [commitment]
            treeRoot := Word.ofFr (LeanIMT.treeRoot H depth (s.treeLeaves ++ [commitment]))
            knownRoot := s.knownRoot.set
              (Word.ofFr (LeanIMT.treeRoot H depth (s.treeLeaves ++ [commitment]))) true } root'
          = true
        ↔ root' = Word.ofFr (LeanIMT.treeRoot H depth (s.treeLeaves ++ [commitment]))
          ∨ s.isKnownRoot root' = true := by
      rw [State.isKnownRoot, State.isKnownRoot, Store.get_set]
      split
      · next h => simp [h]
      · next h => simp [Ne.symm h]
    rw [hset, hs.known]
    constructor
    · rintro (rfl | rfl | ⟨k, hpos, hle, rfl⟩)
      · right
        refine ⟨(s.treeLeaves ++ [commitment]).length, by simp, le_rfl, ?_⟩
        rw [List.take_length]
      · left
        rfl
      · right
        refine ⟨k, hpos, by simp; omega, ?_⟩
        rw [List.take_append_of_le_length hle]
    · rintro (rfl | ⟨k, hpos, hle, rfl⟩)
      · right
        left
        rfl
      · rcases Nat.lt_or_ge s.treeLeaves.length k with hk | hk
        · left
          rw [List.take_of_length_le (by simp; omega)]
        · right
          right
          refine ⟨k, hpos, hk, ?_⟩
          rw [List.take_append_of_le_length hk]

/-- Appending a list of leaves keeps the invariant. -/
theorem TreeInvariant.appends (hdepth : depth ≤ 31) {s s' : State} {commitments : List Word}
    (happends : Appends H s commitments s') (hs : TreeInvariant H depth s) :
  TreeInvariant H depth s'
  := by
  induction happends with
  | nil htree hleaves hroot hknown =>
      obtain ⟨hdepth', hlength, hroot', hknown'⟩ := hs
      constructor
      · rw [htree, hdepth']
      · rwa [hleaves]
      · rwa [hleaves, hroot]
      · intro root
        rw [hleaves, ← hknown' root, State.isKnownRoot, State.isKnownRoot, hknown]
  | cons hroot h ih =>
      apply ih
      apply hs.append hdepth hroot

/-- The counter is the length of the list, and the tree invariant holds. -/
theorem step_tree (hdepth : depth ≤ 31) {a : Action} (h : step host a w = some w')
    (hw : w.pool.leafCount = w.pool.treeLeaves.length ∧ TreeInvariant host.poseidon depth w.pool) :
  w'.pool.leafCount = w'.pool.treeLeaves.length ∧ TreeInvariant host.poseidon depth w'.pool
  := by
  rcases step_cases h with ⟨tx, c, rfl, hexec⟩ | ⟨-, hkeep⟩
  · obtain ⟨commitments, happends, hcount⟩ := Call.exec_appends hexec
    constructor
    · rw [hcount, happends.treeLeaves_eq, List.length_append, hw.1]
    · apply hw.2.appends hdepth happends
  · rwa [hkeep]

/-- No action takes a leaf away. -/
theorem step_treeLeaves {a : Action} (h : step host a w = some w') :
  w.pool.treeLeaves <+: w'.pool.treeLeaves
  := by
  rcases step_cases h with ⟨tx, c, rfl, hexec⟩ | ⟨-, hkeep⟩
  · obtain ⟨commitments, happends, -⟩ := Call.exec_appends hexec
    rw [happends.treeLeaves_eq]
    apply List.prefix_append
  · rw [hkeep]

/-- A run only adds leaves. -/
theorem run_treeLeaves (host : Host) (w : World) (actions : List Action) :
  w.pool.treeLeaves <+: (run host w actions).pool.treeLeaves
  := by
  apply Machine.invariant_run_of_step
    (I := fun s : World => w.pool.treeLeaves <+: s.pool.treeLeaves)
  · intro s a s' hs h
    apply hs.trans (step_treeLeaves h)
  · exact List.prefix_rfl

/-! ### The root of the caller -/

/-- The call with another root handed over. -/
def Call.withNewRoot (root : Word) : Call → Call
  | receiveCctpDeposit args => receiveCctpDeposit { args with newRoot := root }
  | privateTransferSettle args => privateTransferSettle { args with newRoot := root }
  | mpcSettle args => mpcSettle { args with newRoot := root }
  | mpcSettlePriced args => mpcSettlePriced { args with newRoot := root }
  | c => c

/-- A call is accepted with one root at most. -/
theorem Call.withNewRoot_eq {c : Call} {root root' : Word} {w₁ w₂ : World}
    (h₁ : (c.withNewRoot root).exec host tx w = some w₁)
    (h₂ : (c.withNewRoot root').exec host tx w = some w₂) :
  c.withNewRoot root = c.withNewRoot root'
  := by
  cases c with
  | receiveCctpDeposit args =>
      cases exec_outcome h₁ with
      | receiveCctpDeposit _ x₁ =>
          cases exec_outcome h₂ with
          | receiveCctpDeposit _ x₂ =>
              have hroot := x₁.root_eq.symm.trans x₂.root_eq
              have h₁ : root = x₁.root := x₁.newRoot_eq
              have h₂ : root' = x₂.root := x₂.newRoot_eq
              rw [h₁, h₂, Except.ok.inj hroot]
  | privateTransferSettle args =>
      cases exec_outcome h₁ with
      | privateTransferSettle _ x₁ =>
          cases exec_outcome h₂ with
          | privateTransferSettle _ x₂ =>
              have hsignals := Option.some.inj (x₁.parsed.symm.trans x₂.parsed)
              have hroot := x₁.root_eq
              rw [hsignals, x₂.root_eq] at hroot
              have h₁ : root = x₁.root := x₁.newRoot_eq
              have h₂ : root' = x₂.root := x₂.newRoot_eq
              rw [h₁, h₂, Except.ok.inj hroot]
  | mpcSettle args =>
      cases exec_outcome h₁ with
      | mpcSettle _ x₁ =>
          cases exec_outcome h₂ with
          | mpcSettle _ x₂ =>
              have hroot := x₁.newRoot_eq.symm.trans x₂.newRoot_eq
              obtain rfl : root = root' := Except.ok.inj hroot
              rfl
  | mpcSettlePriced args =>
      cases exec_outcome h₁ with
      | mpcSettlePriced _ x₁ =>
          cases exec_outcome h₂ with
          | mpcSettlePriced _ x₂ =>
              have hroot := x₁.newRoot_eq.symm.trans x₂.newRoot_eq
              obtain rfl : root = root' := Except.ok.inj hroot
              rfl
  | withdraw args => rfl
  | withdrawCctp args => rfl
  | rfqSettle args => rfl
  | rfqSettleAtomicSwap args => rfl
  | registerAsset assetId token => rfl
  | config c => rfl

/-- Whatever root is handed over with a call, the call reverts or leads to one and the same
world. -/
theorem Call.exec_withNewRoot (host : Host) (tx : Tx) (w : World) (c : Call) :
  ∃ w₀, ∀ root, (c.withNewRoot root).exec host tx w = none
    ∨ (c.withNewRoot root).exec host tx w = some w₀
  := by
  by_cases h : ∃ root w₀, (c.withNewRoot root).exec host tx w = some w₀
  · obtain ⟨root, w₀, hw₀⟩ := h
    use w₀
    intro root'
    cases hexec : (c.withNewRoot root').exec host tx w with
    | none =>
        left
        rfl
    | some w₁ =>
        right
        rw [← hexec, ← withNewRoot_eq hw₀ hexec, hw₀]
  · use w
    intro root
    left
    rw [Option.eq_none_iff_forall_ne_some]
    intro w₀ hw₀
    apply h ⟨root, w₀, hw₀⟩

/-! ### Every reachable state -/

/-- After any actions, from a pool made with a depth up to `31`: the counter is the length of
the list of leaves, which fits in the tree; the root is that of the complete tree over a list
that is not empty; the known roots are zero and the roots of the prefixes that are not empty;
further actions only add leaves; and the root a caller hands over only decides whether the
call reverts. -/
theorem run_treeInvariant (host : Host) (admin usdcSac verifier nullifierRegistry : Address)
    (hdepth : depth ≤ 31) (poolId chainId : UInt32) (registry : NullifierRegistry.State)
    (tokens : Token.Ledger) (sequence : ℕ) (actions : List Action) (reached : World)
    (hreached : reached = run host (World.init (State.constructor admin usdcSac verifier
      nullifierRegistry depth poolId chainId) registry tokens sequence) actions) :
  reached.pool.leafCount = reached.pool.treeLeaves.length
    ∧ reached.pool.leafCount ≤ 2 ^ depth
    ∧ (reached.pool.treeLeaves ≠ [] → reached.pool.treeRoot
        = Word.ofFr (LeanIMT.treeRoot host.poseidon depth reached.pool.treeLeaves))
    ∧ (∀ root, reached.pool.isKnownRoot root = true ↔ root = 0
        ∨ ∃ k, 0 < k ∧ k ≤ reached.pool.treeLeaves.length ∧ root = Word.ofFr
          (LeanIMT.treeRoot host.poseidon depth (reached.pool.treeLeaves.take k)))
    ∧ (∀ later, reached.pool.treeLeaves <+: (run host reached later).pool.treeLeaves)
    ∧ ∀ tx c, ∃ w₀, ∀ root, (Call.withNewRoot root c).exec host tx reached = none
        ∨ (Call.withNewRoot root c).exec host tx reached = some w₀
  := by
  have hinv : reached.pool.leafCount = reached.pool.treeLeaves.length
      ∧ TreeInvariant host.poseidon depth reached.pool := by
    subst hreached
    apply Machine.invariant_run_of_step
      (I := fun s : World => s.pool.leafCount = s.pool.treeLeaves.length
        ∧ TreeInvariant host.poseidon depth s.pool)
    · intro s a s' hs h
      apply step_tree hdepth h hs
    · exact ⟨rfl, treeInvariant_constructor _ _ _ _ _ _ _ _⟩
  obtain ⟨hcount, htree⟩ := hinv
  refine ⟨hcount, ?_, htree.root_eq, htree.known, ?_, ?_⟩
  · rw [hcount]
    exact htree.length_le
  · apply run_treeLeaves
  · intro tx c
    apply Call.exec_withNewRoot

open Deployment in
/-- The pool after the deposit of a note, whose root is that of the tree with its
commitment. -/
theorem run_treeInvariant_deposited :
  12 ≤ 31 ∧ (deposited usdc).pool.treeLeaves = [commitment]
    ∧ (deposited usdc).pool.leafCount = 1
    ∧ (deposited usdc).pool.treeRoot
      = Word.ofFr (LeanIMT.treeRoot poseidon255 12 [commitment])
  := by
  have hleaves : (deposited usdc).pool.treeLeaves = [commitment] := by decide +kernel
  obtain ⟨hcount, -, hroot, -⟩ := run_treeInvariant quoteHost admin usdc withdrawVerifier
    nullifierRegistry (by decide : 12 ≤ 31) 1 27 (genesis usdc).registry (genesis usdc).tokens 100
    (setup ++ [depositNote]) (deposited usdc) rfl
  rw [hleaves] at hcount hroot
  exact ⟨by decide, hleaves, hcount, hroot (List.cons_ne_nil _ _)⟩

end Shade.Pool
