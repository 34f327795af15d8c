import Shade.Property.Audit

/-!
# Which roots the root auditor accepts

A registrar may keep either of two conventions: the root over all leaves in order, or the root
over the last leaf alone. The auditor accepts a root exactly if it is one of these two. Where
there are more leaves than one, a root that leaves out all but the last of them passes as well.
-/

namespace Shade.Auditor

open Text

/-- The root over leaves, zero if there are none. -/
def rootOver (H : Hash) (depth : ℕ) (leaves : List Word) : Except String Word :=
  if leaves = [] then
    .ok 0
  else
    (LeanIMT.insertAll H (LeanIMT.new H depth) leaves).map LeanIMT.root

/-- A root as a hexadecimal text with its mark. -/
def rootHex (root : Word) : Text := "0x".toList ++ hexBytes root.toBytes

theorem norm_rootHex (root : Word) :
  norm (rootHex root) = rootHex root
  := by
  have hmark : toLower "0x".toList = "0x".toList := by
    decide
  rw [norm, rootHex, if_pos (List.prefix_append _ _), toLower, List.map_append, ← toLower,
    ← toLower, toLower_hexBytes, hmark]

theorem rootHex_injective {root root' : Word} (h : rootHex root = rootHex root') :
  root = root'
  := by
  have hdigits := congrArg ofHex (List.append_cancel_left h)
  rw [ofHex_hexBytes, ofHex_hexBytes, ofBE_toBytes, ofBE_toBytes] at hdigits
  apply BitVec.eq_of_toNat_eq hdigits

section

variable {H : Hash} {depth : ℕ} {coinutils : List Text → ℕ} {leaves : List Word} {root : Word}

/-- Leaves have a root as long as the tree has room for them. -/
theorem exists_rootOver (hdepth : depth ≤ 31) (hlen : leaves.length ≤ 2 ^ depth) :
  ∃ root, rootOver H depth leaves = .ok root
  := by
  by_cases hnil : leaves = []
  · use 0
    rw [rootOver, if_pos hnil]
  · obtain ⟨t, ht, -⟩ := (LeanIMT.represents_new H depth).insertAll_ok hdepth leaves hlen
    use t.root
    rw [rootOver, if_neg hnil, ht]
    rfl

/-- The recomputed root is the text of the root over the leaves. -/
theorem ComputesRoot.recomputeRoot_rootOver (h : ComputesRoot H depth coinutils)
    (hroot : rootOver H depth leaves = .ok root) :
  recomputeRoot coinutils (leaves.map fun x => decimal x.toNat) = rootHex root
  := by
  rw [rootOver] at hroot
  split at hroot
  · next hnil =>
      cases hroot
      rw [hnil]
      rfl
  · next hne => apply h.recomputeRoot_eq hne hroot

/-- The normalized texts of two roots agree just if the roots do. -/
theorem norm_eq_norm_recomputeRoot_iff (h : ComputesRoot H depth coinutils) (hdepth : depth ≤ 31)
    (hlen : leaves.length ≤ 2 ^ depth) (onchain : Word) :
  norm (rootHex onchain) = norm (recomputeRoot coinutils (leaves.map fun x => decimal x.toNat))
    ↔ rootOver H depth leaves = .ok onchain
  := by
  obtain ⟨root, hroot⟩ := exists_rootOver (H := H) hdepth hlen
  rw [h.recomputeRoot_rootOver hroot, norm_rootHex, norm_rootHex, hroot, Except.ok.injEq]
  constructor
  · intro heq
    apply rootHex_injective heq.symm
  · rintro rfl
    rfl

end

/-- The auditor accepts a root exactly if it is the root over all leaves, in the order of their
indices, or over the last one alone. -/
theorem compareRoots_ok_iff {H : Hash} {depth : ℕ} (hdepth : depth ≤ 31)
    {coinutils : List Text → ℕ} (h : ComputesRoot H depth coinutils) {leaves : List DepositLeaf}
    {commitments : List Word} (hfits : commitments.length ≤ 2 ^ depth)
    (hleaves : (sortLeaves leaves).map DepositLeaf.commitmentDecimal
      = commitments.map fun x => decimal x.toNat)
    (poolContract : Text) (onchain : Word) (source : Source) :
  (compareRoots poolContract coinutils leaves (rootHex onchain) source).status = .ok
    ↔ rootOver H depth commitments = .ok onchain
      ∨ ∃ c, commitments.getLast? = some c ∧ rootOver H depth [c] = .ok onchain
  := by
  have hone : ∀ c : Word, [c].length ≤ 2 ^ depth := fun c => Nat.one_le_two_pow
  have hlast : (sortLeaves leaves).getLast?.map DepositLeaf.commitmentDecimal
      = commitments.getLast?.map fun x => decimal x.toNat := by
    rw [← List.getLast?_map, hleaves, List.getLast?_map]
  have hstatus : (compareRoots poolContract coinutils leaves (rootHex onchain) source).status = .ok
      ↔ norm (rootHex onchain)
          = norm (recomputeRoot coinutils (commitments.map fun x => decimal x.toNat))
        ∨ ∃ c, commitments.getLast? = some c ∧ norm (rootHex onchain)
          = norm (recomputeRoot coinutils ([c].map fun x => decimal x.toNat)) := by
    rw [compareRoots]
    simp only [hleaves]
    cases hl : (sortLeaves leaves).getLast? with
    | none =>
        rw [hl, Option.map_none, eq_comm, Option.map_eq_none_iff] at hlast
        rw [hlast]
        simp
    | some l =>
        rw [hl, Option.map_some, eq_comm, Option.map_eq_some_iff] at hlast
        obtain ⟨c, hc, hdecimal⟩ := hlast
        simp only [hc, Option.some.injEq, exists_eq_left', List.map_cons, List.map_nil, hdecimal]
        split
        · simp_all
        · simp_all
  rw [hstatus, norm_eq_norm_recomputeRoot_iff h hdepth hfits]
  apply or_congr_right
  apply exists_congr
  intro c
  rw [norm_eq_norm_recomputeRoot_iff h hdepth (hone c)]

open Pool Deployment

/-- With the leaves of two deposits, the root over both of them passes. -/
theorem compareRoots_ok_both :
  (compareRoots "pool".toList (treeRootOf poseidon255 12) ([commitment, commitmentB].mapIdx leafOf)
    (rootHex pairRoot) .events).status = .ok
  := by
  obtain ⟨-, -, -, hpair, -⟩ := settled_roots
  have hleaves : (sortLeaves ([commitment, commitmentB].mapIdx leafOf)).map
      DepositLeaf.commitmentDecimal
      = [commitment, commitmentB].map fun x => decimal x.toNat := by
    rw [sortLeaves_mapIdx, map_commitmentDecimal]
  apply (compareRoots_ok_iff (by decide) (computesRoot_treeRootOf poseidon255 12)
    (by decide) hleaves "pool".toList pairRoot .events).mpr
  left
  rw [rootOver, if_neg (List.cons_ne_nil _ _), hpair]

/-- With the leaves of two deposits, the root over the second one passes, although it is not the
root over both. -/
theorem compareRoots_ok_latest :
  ComputesRoot poseidon255 12 (treeRootOf poseidon255 12)
    ∧ (compareRoots "pool".toList (treeRootOf poseidon255 12)
        ([commitment, commitmentB].mapIdx leafOf) (rootHex latestRoot) .events).status = .ok
    ∧ rootOver poseidon255 12 [commitment, commitmentB] = .ok pairRoot
    ∧ latestRoot ≠ pairRoot
  := by
  obtain ⟨-, -, -, hpair, hlatest, -⟩ := settled_roots
  have hcoinutils := computesRoot_treeRootOf poseidon255 12
  refine ⟨hcoinutils, ?_, ?_, by decide⟩
  · have hlast := hcoinutils.recomputeRoot_eq (List.cons_ne_nil _ _) hlatest
    rw [compareRoots]
    simp only [sortLeaves_mapIdx, map_commitmentDecimal]
    rw [if_pos]
    right
    exact congrArg norm hlast.symm
  · rw [rootOver, if_neg (List.cons_ne_nil _ _), hpair]

end Shade.Auditor
