import Shade.Property.Membership
import Shade.Proving.Compliance

/-!
# Compliance

An assignment of the compliance circuit over an allow tree and a sorted deny tree has a label
that is in the allow list and not in the deny list, as long as the indices of the deny tree
are smaller than the order of the field. The padding of the trees does no harm: the label is
above a leaf of the deny tree, hence not zero, and below one, hence the two leaves are not
padding and no label is between them. In a deeper tree the index of padding may be the same
field element as that of a leaf, and a denied label is accepted. The witness builder finds
the two leaves whenever they exist and fails for a denied label.
-/

namespace Shade

open LeanIMT PrimeField ComplianceMembership Proving Text Eager

/-! ### Neighbours in a sorted list -/

/-- A value strictly between two neighbours of a strictly increasing list is not in it. -/
theorem ne_of_between {α β : Type} [Preorder β] {value : α → β} {l : List α}
    (hsorted : l.Pairwise fun x y => value x < value y) {i : ℕ} (hi : i + 1 < l.length) {z : β}
    (hlo : value l[i] < z) (hhi : z < value l[i + 1]) {x : α} (hx : x ∈ l) :
  value x ≠ z
  := by
  obtain ⟨k, hk, rfl⟩ := List.getElem_of_mem hx
  have hmono := List.pairwise_iff_getElem.mp hsorted
  rintro rfl
  rcases Nat.lt_trichotomy k i with hlt | rfl | hgt
  · apply lt_asymm hlo (hmono k i hk (by omega) hlt)
  · apply lt_irrefl _ hlo
  · rcases Nat.lt_or_ge (i + 1) k with hlt | hge
    · apply lt_asymm hhi (hmono (i + 1) k hi hk hlt)
    · obtain rfl : k = i + 1 := by omega
      apply lt_irrefl _ hhi

/-! ### Soundness -/

section

variable {H : Hash} {allowDepth denyDepth depth : ℕ} {leaves : List Word}

theorem leafRow_getElem {i : ℕ} (hi : i < leaves.length) :
  leafRow leaves i = leaves[i].toFr
  := by
  rw [leafRow, List.getElem?_eq_getElem hi]

/-- A leaf that is not zero is an entry of the list. -/
theorem leafRow_of_ne_zero {i : ℕ} (h : leafRow leaves i ≠ 0) :
  ∃ hi : i < leaves.length, leafRow leaves i = leaves[i].toFr
  := by
  have hi : i < leaves.length := by
    by_contra hge
    apply h (leafRow_of_length_le (by omega))
  use hi, leafRow_getElem hi

/-- The component leads to the root of a tree only from a leaf of the tree, at an index that
its index signal stands for. -/
theorem MerkleSignals.Leads.exists_index {m : MerkleSignals depth} {leaf : Fr}
    (h : m.Leads H leaf (treeRoot H depth leaves))
    (hfree : CollisionFree H (treeInputs H depth leaves ++ m.hashInputs H leaf)) :
  ∃ i : ℕ, i < 2 ^ depth ∧ m.leafIndex = (i : Fr) ∧ leaf = leafRow leaves i
  := by
  obtain ⟨hbits, hroot⟩ := h
  obtain ⟨i, hi, hindices, hindex⟩ := hbits.exists_nat
  rw [MerkleSignals.hashInputs, hindices] at hfree
  rw [hindices] at hroot
  use i, hi, hindex
  apply eq_leafRow_of_climb hi hroot hfree

/-- Consecutive indices below the order of the field are consecutive numbers. -/
theorem eq_succ_of_cast {i j : ℕ} (hdepth : depth ≤ 254) (hi : i < 2 ^ depth) (hj : j < 2 ^ depth)
    (h : (j : Fr) = (i : Fr) + 1) :
  j = i + 1
  := by
  have hr : 2 ^ depth < r := by
    calc 2 ^ depth ≤ 2 ^ 254 := Nat.pow_le_pow_right (by decide) hdepth
      _ < r := by decide
  have hval := congrArg ZMod.val h
  rw [← Nat.cast_add_one, ZMod.val_natCast, ZMod.val_natCast, Nat.mod_eq_of_lt (by omega),
    Nat.mod_eq_of_lt (by omega)] at hval
  exact hval

/-- The integer of an entry of at most 252 bits. -/
theorem val_toFr_of_lt {x : Word} (h : x.toNat < 2 ^ 252) :
  x.toFr.val = x.toNat
  := by
  have hr : 2 ^ 252 < r := by decide
  apply Word.Canonical.val_toFr
  rw [Word.Canonical]
  omega

/-- The inputs hashed in both trees and by an assignment. -/
def complianceInputs (H : Hash) (allow deny : List Word)
    (a : Assignment allowDepth denyDepth) : List (List Fr) :=
  treeInputs H allowDepth allow ++ treeInputs H denyDepth deny ++ a.hashInputs H

/-- The label is an entry of the allow list and none of the deny list. -/
def Complies (allow deny : List Word) (label : Fr) : Prop :=
  (∃ x ∈ allow, x.toNat = label.val) ∧ ∀ x ∈ deny, x.toNat ≠ label.val

/-- A part of the inputs has no collision either. -/
theorem CollisionFree.mono {inputs inputs' : List (List Fr)} (h : CollisionFree H inputs)
    (hsub : inputs' ⊆ inputs) :
  CollisionFree H inputs'
  := by
  intro x hx y hy
  apply h x (hsub hx) y (hsub hy)

/-- The inputs hashed in a tree and by the component that climbs it have no collision. -/
theorem CollisionFree.parts {allow deny : List Word} {a : Assignment allowDepth denyDepth}
    (h : CollisionFree H (complianceInputs H allow deny a)) :
  CollisionFree H (treeInputs H allowDepth allow ++ a.allowP.hashInputs H a.label)
    ∧ CollisionFree H (treeInputs H denyDepth deny ++ a.loP.hashInputs H a.denyLo)
    ∧ CollisionFree H (treeInputs H denyDepth deny ++ a.hiP.hashInputs H a.denyHi)
  := by
  refine ⟨h.mono ?_, h.mono ?_, h.mono ?_⟩
  all_goals
    intro x hx
    simp only [complianceInputs, Assignment.hashInputs, List.mem_append] at hx ⊢
    tauto

/-- The circuit is sound for deny trees of a depth up to `254`. -/
theorem ComplianceMembership.Satisfied.complies {allow deny : List Word}
    (hdepth : denyDepth ≤ 254)
    (hallow : ∀ x ∈ allow, x.toNat < 2 ^ 252) (hdeny : ∀ x ∈ deny, x.toNat < 2 ^ 252)
    (hsorted : deny.Pairwise fun x y => x.toNat < y.toNat) {a : Assignment allowDepth denyDepth}
    (hs : Satisfied H 252 a) (hallowRoot : a.allowRoot = treeRoot H allowDepth allow)
    (hdenyRoot : a.denyRoot = treeRoot H denyDepth deny)
    (hfree : CollisionFree H (complianceInputs H allow deny a)) :
  Complies allow deny a.label
  := by
  obtain ⟨hallowP, hlo, hhi, hrangeLo, hrangeLabel, hrangeHi, hltLo, hltHi, hadjacent, -⟩ := hs
  have hloVal := hrangeLo.val_lt (by decide)
  have hlabelVal := hrangeLabel.val_lt (by decide)
  have hhiVal := hrangeHi.val_lt (by decide)
  rw [lessThan_iff_val_lt (by decide) hloVal hlabelVal] at hltLo
  rw [lessThan_iff_val_lt (by decide) hlabelVal hhiVal] at hltHi
  rw [hallowRoot] at hallowP
  rw [hdenyRoot] at hlo hhi
  obtain ⟨hfreeAllow, hfreeLo, hfreeHi⟩ := hfree.parts
  obtain ⟨k, -, -, hlabel⟩ := hallowP.exists_index hfreeAllow
  obtain ⟨i, hi, hiIndex, hdenyLo⟩ := hlo.exists_index hfreeLo
  obtain ⟨j, hj, hjIndex, hdenyHi⟩ := hhi.exists_index hfreeHi
  rw [hiIndex, hjIndex] at hadjacent
  obtain rfl := eq_succ_of_cast hdepth hi hj hadjacent
  constructor
  · have hne : leafRow allow k ≠ 0 := by
      rintro hzero
      rw [hlabel, hzero, ZMod.val_zero] at hltLo
      omega
    obtain ⟨hk, hentry⟩ := leafRow_of_ne_zero hne
    use allow[k], List.getElem_mem hk
    rw [hlabel, hentry, val_toFr_of_lt (hallow _ (List.getElem_mem hk))]
  · have hne : leafRow deny (i + 1) ≠ 0 := by
      intro hzero
      rw [hdenyHi, hzero, ZMod.val_zero] at hltHi
      omega
    obtain ⟨hsucc, hentryHi⟩ := leafRow_of_ne_zero hne
    rw [hdenyLo, leafRow_getElem (by omega), val_toFr_of_lt (hdeny _ (List.getElem_mem _))] at hltLo
    rw [hdenyHi, hentryHi, val_toFr_of_lt (hdeny _ (List.getElem_mem _))] at hltHi
    intro x hx
    apply ne_of_between hsorted hsucc hltLo hltHi hx

/-! ### Assignments from positions in the trees -/

/-- The signals of the component at a position of a tree, with the siblings of the tree. -/
def treeSignals (H : Hash) (depth : ℕ) (leaves : List Word) (i : ℕ) : MerkleSignals depth where
  leafIndex := (i : Fr)
  siblings := ⟨Merkle.siblings (hashPair H) (leafRow leaves) depth 0 i, Merkle.length_siblings ..⟩
  indices := digits depth i

/-- The siblings of the tree lead to its root. -/
theorem treeSignals_leads {i : ℕ} (hi : i < 2 ^ depth) :
  (treeSignals H depth leaves i).Leads H (leafRow leaves i) (treeRoot H depth leaves)
  := by
  use ⟨length_digits depth i, decomposes_digits hi⟩
  have hclimb := climb_digits (H := H) (treeSignals H depth leaves i).siblings.toList i
    (leafRow leaves i)
  rw [List.Vector.toList_length, climb_treeSiblings hi rfl] at hclimb
  apply hclimb.symm

/-- The component hashes nothing that is not hashed in the tree. -/
theorem treeSignals_hashInputs {i : ℕ} (hi : i < 2 ^ depth) :
  (treeSignals H depth leaves i).hashInputs H (leafRow leaves i) ⊆ treeInputs H depth leaves
  := by
  have hinputs := climbInputs_digits (H := H) (treeSignals H depth leaves i).siblings.toList i
    (leafRow leaves i)
  rw [List.Vector.toList_length] at hinputs
  intro x hx
  have hmem := Eq.mp (congrArg (x ∈ ·) hinputs) hx
  obtain ⟨q, hq, rfl⟩ := List.mem_map.mp hmem
  have hpairs : q ∈ Merkle.climbPairs (hashPair H) i (Merkle.node (hashPair H) (leafRow leaves) 0 i)
      (Merkle.siblings (hashPair H) (leafRow leaves) depth 0 i) := hq
  obtain ⟨k, hk, rfl⟩ := Merkle.mem_climbPairs_siblings (hashPair H) depth hpairs
  rw [Nat.zero_add]
  apply mem_treeInputs hi hk

/-- The assignment for an entry of the allow tree and two leaves of the deny tree, given by
their positions. -/
def ofPositions (H : Hash) (allow deny : List Word) (k i j : ℕ) (policyId : Fr) :
    Assignment allowDepth denyDepth where
  allowRoot := treeRoot H allowDepth allow
  denyRoot := treeRoot H denyDepth deny
  policyId := policyId
  label := leafRow allow k
  allowP := treeSignals H allowDepth allow k
  denyLo := leafRow deny i
  loP := treeSignals H denyDepth deny i
  denyHi := leafRow deny j
  hiP := treeSignals H denyDepth deny j
  polBind := policyId * policyId
  ok := 1

/-- The assignment satisfies the circuit if the label is between the two leaves, and the
indices of these are consecutive as field elements. -/
theorem ofPositions_satisfied {allow deny : List Word} {k i j : ℕ} (hk : k < 2 ^ allowDepth)
    (hi : i < 2 ^ denyDepth) (hj : j < 2 ^ denyDepth) (hnext : (j : Fr) = (i : Fr) + 1)
    (hlo : (leafRow deny i).val < (leafRow allow k).val)
    (hhi : (leafRow allow k).val < (leafRow deny j).val) (hlt : (leafRow deny j).val < 2 ^ 252)
    (policyId : Fr) :
  Satisfied H 252 (ofPositions H allow deny k i j policyId : Assignment allowDepth denyDepth)
  := by
  constructor
  · apply treeSignals_leads hk
  · apply treeSignals_leads hi
  · apply treeSignals_leads hj
  · apply RangeCheck.of_val_lt (hlo.trans (hhi.trans hlt))
  · apply RangeCheck.of_val_lt (hhi.trans hlt)
  · apply RangeCheck.of_val_lt hlt
  · apply (lessThan_iff_val_lt (by decide) (hlo.trans (hhi.trans hlt)) (hhi.trans hlt)).mpr hlo
  · apply (lessThan_iff_val_lt (by decide) (hhi.trans hlt) hlt).mpr hhi
  · apply hnext
  · rfl
  · rfl

/-- The assignment hashes nothing that is not hashed in the trees. -/
theorem complianceInputs_ofPositions {allow deny : List Word} {k i j : ℕ}
    (hk : k < 2 ^ allowDepth) (hi : i < 2 ^ denyDepth) (hj : j < 2 ^ denyDepth) (policyId : Fr) :
  complianceInputs H allow deny
      (ofPositions H allow deny k i j policyId : Assignment allowDepth denyDepth)
    ⊆ treeInputs H allowDepth allow ++ treeInputs H denyDepth deny
  := by
  intro x hx
  simp only [complianceInputs, Assignment.hashInputs, List.mem_append] at hx ⊢
  rcases hx with (hx | hx) | (hx | hx) | hx
  · exact .inl hx
  · exact .inr hx
  · exact .inl (treeSignals_hashInputs hk hx)
  · exact .inr (treeSignals_hashInputs hi hx)
  · exact .inr (treeSignals_hashInputs hj hx)

/-! ### Completeness -/

/-- The texts denote the words, one by one. -/
def Reads (labels : List Text) (words : List Word) : Prop :=
  labels.map toInt? = words.map fun x => some (x.toNat : ℤ)

theorem Reads.length_eq {labels : List Text} {words : List Word} (h : Reads labels words) :
  labels.length = words.length
  := by
  have hlength := congrArg List.length h
  rwa [List.length_map, List.length_map] at hlength

theorem Reads.toInt?_getElem {labels : List Text} {words : List Word} (h : Reads labels words)
    {i : ℕ} (hi : i < labels.length) (hi' : i < words.length) :
  toInt? labels[i] = some (words[i].toNat : ℤ)
  := by
  have hget := congrArg (·[i]?) h
  simpa [hi, hi'] using hget

/-- Coinutils prints the proofs of the complete tree over the leaves. -/
def CorrectProofs (H : Hash) (merkleProof : List Text → ℕ → ℕ → Except String MProof) : Prop :=
  ∀ labels words index depth, Reads labels words → index < words.length →
    words.length ≤ 2 ^ depth → ∃ proof, merkleProof labels index depth = .ok proof
      ∧ readFr proof.root = some (treeRoot H depth words)
      ∧ proof.siblings.map readFr
        = (Merkle.siblings (hashPair H) (leafRow words) depth 0 index).map some

theorem readFr_of_toInt? {t : Text} {x : Word} (h : toInt? t = some (x.toNat : ℤ)) :
  readFr t = some x.toFr
  := by
  rw [readFr, h, Option.map_some, Int.cast_natCast, Word.toFr]

theorem readFr_decimal (n : ℕ) :
  readFr (decimal n) = some (n : Fr)
  := by
  rw [readFr, toInt?_decimal, Option.map_some, Int.cast_natCast]

/-- A text denotes the leaf at its place. -/
theorem Reads.readFr_getD {labels : List Text} {words : List Word} (h : Reads labels words)
    {i : ℕ} (hi : i < words.length) :
  readFr (labels.getD i []) = some (leafRow words i)
  := by
  have hi' : i < labels.length := h.length_eq ▸ hi
  rw [leafRow_getElem hi, List.getD_eq_getElem _ _ hi']
  apply readFr_of_toInt? (h.toInt?_getElem hi' hi)

/-- The texts are in the order of the words they denote. -/
theorem Reads.below_iff {x y : Text} {a b : Word} (hx : toInt? x = some (a.toNat : ℤ))
    (hy : toInt? y = some (b.toNat : ℤ)) :
  Below x y ↔ a.toNat < b.toNat
  := by
  constructor
  · rintro ⟨a', b', ha', hb', hlt⟩
    obtain rfl := Option.some.inj (hx.symm.trans ha')
    obtain rfl := Option.some.inj (hy.symm.trans hb')
    omega
  · intro hlt
    exact ⟨_, _, hx, hy, by omega⟩

theorem Reads.pairwise_below {labels : List Text} {words : List Word} (h : Reads labels words)
    (hsorted : words.Pairwise fun x y => x.toNat < y.toNat) :
  labels.Pairwise Below
  := by
  have hlength := h.length_eq
  apply List.pairwise_iff_getElem.mpr
  intro i j hi hj hij
  apply (Reads.below_iff (h.toInt?_getElem hi (by omega)) (h.toInt?_getElem hj (by omega))).mpr
  apply List.pairwise_iff_getElem.mp hsorted i j (by omega) (by omega) hij

section

variable {p : ComplianceParams} {allow deny : List Word} {label : Word}

/-- The first place of the label in the allow list. -/
theorem exists_allowIdx (hallow : Reads p.allowLabels allow) (hmem : p.label ∈ p.allowLabels)
    (hlabel : toInt? p.label = some (label.toNat : ℤ)) :
  ∃ k, p.allowLabels.idxOf? p.label = some k
    ∧ ∃ hk : k < allow.length, allow[k].toNat = label.toNat
  := by
  obtain ⟨k, hidx⟩ := Option.isSome_iff_exists.mp (List.isSome_idxOf?.mpr hmem)
  obtain ⟨hk, hkLabel, -⟩ := List.idxOf?_eq_some_iff.mp hidx
  have hk' : k < allow.length := hallow.length_eq ▸ hk
  use k, hidx, hk'
  have hread := hallow.toInt?_getElem hk hk'
  rw [hkLabel, hlabel] at hread
  have := Option.some.inj hread
  omega

/-- The second loop finds neighbours of the deny list that bound the label, if there are
any. -/
theorem exists_loIdx (hdeny : Reads p.denyLabels deny)
    (hlabel : toInt? p.label = some (label.toNat : ℤ)) {i : ℕ} (hi : i + 1 < deny.length)
    (hlo : deny[i].toNat < label.toNat) (hhi : label.toNat < deny[i + 1].toNat) :
  ∃ loIdx, findLo p.label p.denyLabels 0 = .ok (some loIdx)
    ∧ ∃ h : loIdx + 1 < deny.length,
      deny[loIdx].toNat < label.toNat ∧ label.toNat < deny[loIdx + 1].toNat
  := by
  have hlength := hdeny.length_eq
  have hreads : ∀ t ∈ p.denyLabels, ∃ a, toInt? t = some a := by
    intro t ht
    obtain ⟨j, hj, rfl⟩ := List.getElem_of_mem ht
    exact ⟨_, hdeny.toInt?_getElem hj (by omega)⟩
  obtain ⟨loIdx, hfind⟩ := exists_findLo hreads (by omega : i + 1 < p.denyLabels.length)
    ((Reads.below_iff (hdeny.toInt?_getElem _ _) hlabel).mpr hlo)
    ((Reads.below_iff hlabel (hdeny.toInt?_getElem _ _)).mpr hhi) 0
  obtain ⟨j, hj, hjLength, hjLo, hjHi⟩ := findLo_eq_some hfind
  obtain rfl : loIdx = j := by omega
  rw [Reads.below_iff (hdeny.toInt?_getElem _ (by omega)) hlabel] at hjLo
  rw [Reads.below_iff hlabel (hdeny.toInt?_getElem _ (by omega))] at hjHi
  exact ⟨loIdx, hfind, by omega, hjLo, hjHi⟩

/-- The builder returns an input of the circuit for every label of the allow list between two
neighbours of the deny list. -/
theorem buildComplianceWitness_complete
    {merkleProof : List Text → ℕ → ℕ → Except String MProof} (hproofs : CorrectProofs H merkleProof)
    (hallow : Reads p.allowLabels allow) (hdeny : Reads p.denyLabels deny)
    (hallowFits : allow.length ≤ 2 ^ 2) (hdenyFits : deny.length ≤ 2 ^ 2)
    (hdenyLt : ∀ x ∈ deny, x.toNat < 2 ^ 252)
    (hsorted : deny.Pairwise fun x y => x.toNat < y.toNat)
    (hmem : p.label ∈ p.allowLabels) (hlabel : toInt? p.label = some (label.toNat : ℤ))
    {i : ℕ} (hi : i + 1 < deny.length) (hlo : deny[i].toNat < label.toNat)
    (hhi : label.toNat < deny[i + 1].toNat) {policyId : Fr}
    (hpolicy : readFr p.policyId = some policyId) :
  ∃ input a, buildComplianceWitness merkleProof p = .ok input ∧ input.Denotes a
    ∧ Satisfied H 252 a ∧ a.allowRoot = treeRoot H 2 allow ∧ a.denyRoot = treeRoot H 2 deny
  := by
  obtain ⟨k, hidx, hk, hkLabel⟩ := exists_allowIdx hallow hmem hlabel
  obtain ⟨loIdx, hfind, hloIdx, hlo, hhi⟩ := exists_loIdx hdeny hlabel hi hlo hhi
  have hhiLt := hdenyLt _ (List.getElem_mem hloIdx)
  obtain ⟨allowP, hallowP, hallowRoot, hallowSiblings⟩ := hproofs _ _ k 2 hallow hk hallowFits
  obtain ⟨loP, hloP, hdenyRoot, hloSiblings⟩ := hproofs _ _ loIdx 2 hdeny (by omega) hdenyFits
  obtain ⟨hiP, hhiP, -, hhiSiblings⟩ := hproofs _ _ (loIdx + 1) 2 hdeny hloIdx hdenyFits
  have hallowLeaf := leafRow_getElem hk
  have hloLeaf := leafRow_getElem (by omega : loIdx < deny.length)
  have hhiLeaf := leafRow_getElem hloIdx
  refine ⟨_, ofPositions H allow deny k loIdx (loIdx + 1) policyId,
    buildComplianceWitness_eq hidx ((checkSorted_iff _).mpr (hdeny.pairwise_below hsorted)) hfind
      hallowP hloP hhiP, ?_, ?_, rfl, rfl⟩
  · constructor
    · exact hallowRoot
    · exact hdenyRoot
    · exact hpolicy
    · change _ = some (leafRow allow k)
      rw [hallowLeaf]
      apply readFr_of_toInt?
      rw [hlabel, hkLabel]
    · apply readFr_decimal
    · exact hallowSiblings
    · apply hdeny.readFr_getD (by omega)
    · apply readFr_decimal
    · exact hloSiblings
    · apply hdeny.readFr_getD hloIdx
    · apply readFr_decimal
    · exact hhiSiblings
  · apply ofPositions_satisfied (by omega) (by omega) (by omega) (Nat.cast_succ loIdx)
    · rw [hloLeaf, hallowLeaf, val_toFr_of_lt (by omega), val_toFr_of_lt (by omega)]
      omega
    · rw [hhiLeaf, hallowLeaf, val_toFr_of_lt (by omega), val_toFr_of_lt (by omega)]
      omega
    · rw [hhiLeaf, val_toFr_of_lt hhiLt]
      exact hhiLt

end

/-- The builder throws for a denied label. -/
theorem buildComplianceWitness_denied
    (merkleProof : List Text → ℕ → ℕ → Except String MProof) {p : ComplianceParams} {t : Text}
    (ht : t ∈ p.denyLabels) (hdenied : toInt? t = toInt? p.label) :
  ∃ e, buildComplianceWitness merkleProof p = .error e
  := by
  cases hbuild : buildComplianceWitness merkleProof p with
  | error e => exact ⟨e, rfl⟩
  | ok input =>
      obtain ⟨hsorted, j, hj, ⟨a, z, ha, hz, hlo⟩, ⟨z', b, hz', hb, hhi⟩⟩ :=
        of_buildComplianceWitness hbuild
      obtain rfl := Option.some.inj (hz.symm.trans hz')
      have hsorted' : p.denyLabels.Pairwise fun x y => (toInt? x).getD 0 < (toInt? y).getD 0 := by
        apply hsorted.imp
        rintro x y ⟨a, b, ha, hb, hlt⟩
        rwa [ha, hb]
      have hne := ne_of_between hsorted' hj (z := z) (by rwa [ha]) (by rwa [hb]) ht
      rw [hdenied, hz] at hne
      exact absurd rfl hne

end

/-! ### Both together -/

/-- The circuit is sound for every depth of the allow tree and every depth of the deny tree up
to `254`. At depth `2` the builder is complete: it returns an input that satisfies the circuit
for every label of the allow list between two neighbours of the deny list, and it throws for
every denied label. -/
theorem compliance_sound_and_complete (H : Hash) :
  (∀ (allowDepth denyDepth : ℕ) (allow deny : List Word) (a : Assignment allowDepth denyDepth),
      denyDepth ≤ 254 → (∀ x ∈ allow, x.toNat < 2 ^ 252) → (∀ x ∈ deny, x.toNat < 2 ^ 252) →
      (deny.Pairwise fun x y => x.toNat < y.toNat) →
      CollisionFree H (complianceInputs H allow deny a) → Satisfied H 252 a →
      a.allowRoot = treeRoot H allowDepth allow → a.denyRoot = treeRoot H denyDepth deny →
      Complies allow deny a.label)
  ∧ (∀ merkleProof, CorrectProofs H merkleProof →
      ∀ (p : ComplianceParams) (allow deny : List Word) (label : Word) (policyId : Fr) (i : ℕ)
        (hi : i + 1 < deny.length),
      Reads p.allowLabels allow → Reads p.denyLabels deny → allow.length ≤ 2 ^ 2 →
      deny.length ≤ 2 ^ 2 → (∀ x ∈ deny, x.toNat < 2 ^ 252) →
      (deny.Pairwise fun x y => x.toNat < y.toNat) → p.label ∈ p.allowLabels →
      toInt? p.label = some (label.toNat : ℤ) → readFr p.policyId = some policyId →
      deny[i].toNat < label.toNat → label.toNat < deny[i + 1].toNat →
      ∃ input a, buildComplianceWitness merkleProof p = .ok input ∧ input.Denotes a
        ∧ Satisfied H 252 a ∧ a.allowRoot = treeRoot H 2 allow ∧ a.denyRoot = treeRoot H 2 deny)
  ∧ ∀ (merkleProof : List Text → ℕ → ℕ → Except String MProof) (p : ComplianceParams),
      (∃ t ∈ p.denyLabels, toInt? t = toInt? p.label) →
      ∃ e, buildComplianceWitness merkleProof p = .error e
  := by
  refine ⟨?_, ?_, ?_⟩
  · intro allowDepth denyDepth allow deny a hdepth hallow hdeny hsorted hfree hs hallowRoot
      hdenyRoot
    apply hs.complies hdepth hallow hdeny hsorted hallowRoot hdenyRoot hfree
  · intro merkleProof hproofs p allow deny label policyId i hi hallow hdeny hallowFits hdenyFits
      hdenyLt hsorted hmem hlabel hpolicy hlo hhi
    apply buildComplianceWitness_complete hproofs hallow hdeny hallowFits hdenyFits hdenyLt
      hsorted hmem hlabel hi hlo hhi hpolicy
  · rintro merkleProof p ⟨t, ht, hdenied⟩
    apply buildComplianceWitness_denied merkleProof ht hdenied

/-- The proofs of the complete tree over the leaves that decimal texts denote. -/
def treeProof (H : Hash) (labels : List Text) (index depth : ℕ) : Except String MProof :=
  let words := labels.map fun t => BitVec.ofNat 256 ((toInt? t).getD 0).toNat
  .ok
    { root := decimal (treeRoot H depth words).val
      leafIndex := index
      siblings := (Merkle.siblings (hashPair H) (leafRow words) depth 0 index).map
        fun x => decimal x.val }

theorem correctProofs_treeProof (H : Hash) :
  CorrectProofs H (treeProof H)
  := by
  have : NeZero r := ⟨r_prime.ne_zero⟩
  intro labels words index depth hreads _ _
  have hwords : (labels.map fun t => BitVec.ofNat 256 ((toInt? t).getD 0).toNat) = words := by
    have hmap := congrArg (List.map fun o : Option ℤ => BitVec.ofNat 256 (o.getD 0).toNat) hreads
    rw [List.map_map, List.map_map] at hmap
    apply hmap.trans
    apply List.map_id''
    intro x
    simp
  have hval : ∀ x : Fr, readFr (decimal x.val) = some x := by
    intro x
    rw [readFr_decimal, ZMod.natCast_zmod_val]
  refine ⟨_, rfl, ?_, ?_⟩
  · simp only [hwords, hval]
  · simp only [hwords, List.map_map]
    apply List.map_congr_left
    intro x _
    apply hval

/-- The parameters for a label that is allowed as the only one, where 3 and 7 are denied. -/
def params (label : ℕ) : ComplianceParams where
  label := decimal label
  allowLabels := [decimal label]
  denyLabels := [decimal 3, decimal 7]
  policyId := decimal 1

theorem reads_decimal (labels : List Word) :
  Reads (labels.map fun x => decimal x.toNat) labels
  := by
  rw [Reads, List.map_map]
  apply List.map_congr_left
  intro x _
  apply toInt?_decimal

/-- The label 5 complies, the builder returns an input for it, and it throws for 7. -/
theorem five_complies :
  Complies [5] [3, 7] (leafRow [5] 0)
    ∧ (∃ input a, buildComplianceWitness (treeProof poseidon255) (params 5) = .ok input
      ∧ input.Denotes a ∧ Satisfied poseidon255 252 a)
    ∧ ∃ e, buildComplianceWitness (treeProof poseidon255) (params 7) = .error e
  := by
  obtain ⟨hsound, hcomplete, hdenied⟩ := compliance_sound_and_complete poseidon255
  have hinjective : Eager.injectiveOn (List.map ZMod.val) (fun x => (poseidon255 x).val)
      (treeInputs poseidon255 2 [5] ++ treeInputs poseidon255 2 [3, 7]) = true := by
    decide +kernel
  have hallow : ∀ x ∈ ([5] : List Word), x.toNat < 2 ^ 252 := by
    rw [List.forall_mem_singleton]
    decide
  have hdeny : ∀ x ∈ ([3, 7] : List Word), x.toNat < 2 ^ 252 := by
    rw [List.forall_mem_cons, List.forall_mem_singleton]
    decide
  have hsatisfied : Satisfied poseidon255 252
      (ofPositions poseidon255 [5] [3, 7] 0 0 1 1 : Assignment 2 2) := by
    apply ofPositions_satisfied <;> decide
  refine ⟨?_, ?_, ?_⟩
  · apply hsound 2 2 [5] [3, 7] (ofPositions poseidon255 [5] [3, 7] 0 0 1 1) (by decide)
      hallow hdeny (by decide) _ hsatisfied rfl rfl
    apply (collisionFree_of_injectiveOn hinjective).mono
    apply complianceInputs_ofPositions <;> decide
  · obtain ⟨input, a, hbuild, hdenotes, ha, -⟩ := hcomplete (treeProof poseidon255)
      (correctProofs_treeProof poseidon255) (params 5) [5] [3, 7] 5 1 0 (by decide)
      (reads_decimal [5]) (reads_decimal [3, 7]) (by decide) (by decide) hdeny (by decide)
      (by simp [params]) (toInt?_decimal 5) (readFr_decimal 1) (by decide) (by decide)
    use input, a
  · apply hdenied
    exact ⟨decimal 7, by simp [params], rfl⟩

/-! ### A tree too deep -/

/-- The pairs hashed along the left edge of a tree from a level on, if all other leaves are
zero: of the node on the edge and of the node over zeros beside it. -/
def edgePairs (H : Hash) : ℕ → Fr → Fr → List (List Fr)
  | 0, _, _ => []
  | n + 1, x, z => [x, z] :: [z, z] :: edgePairs H n (H [x, z]) (H [z, z])

/-- Compute the hashes of the pairs along the edge, each once, and go on with them. -/
def eagerEdge {α : Type} (H : Hash) : ℕ → ℕ → ℕ → (List ℕ → α) → α
  | 0, _, _, f => f []
  | n + 1, x, z, f =>
      eager (H [(x : Fr), (z : Fr)]).val fun x' => eager (H [(z : Fr), (z : Fr)]).val fun z' =>
        eagerEdge H n x' z' fun hashes => f (x' :: z' :: hashes)

theorem eagerEdge_eq {α : Type} (H : Hash) (n : ℕ) (x z : Fr) (f : List ℕ → α) :
  eagerEdge H n x.val z.val f = f ((edgePairs H n x z).map fun q => (H q).val)
  := by
  have : NeZero r := ⟨r_prime.ne_zero⟩
  induction n generalizing x z f with
  | zero => rfl
  | succ n ih =>
      simp only [eagerEdge, eager_eq, ZMod.natCast_zmod_val]
      rw [ih]
      rfl

section

variable {H : Hash} {leaves : List Word}

/-- Above the leaves, the nodes on the edge and those over zeros are hashed along the edge. -/
theorem mem_edgePairs {level : ℕ} (hlevel : leaves.length ≤ 2 ^ level) {n k : ℕ} (hk : k < n) :
  [treeNode H leaves (level + k) 0, zeroNode H (level + k)]
      ∈ edgePairs H n (treeNode H leaves level 0) (zeroNode H level)
    ∧ [zeroNode H (level + k), zeroNode H (level + k)]
      ∈ edgePairs H n (treeNode H leaves level 0) (zeroNode H level)
  := by
  induction n generalizing level k with
  | zero => cases hk
  | succ n ih =>
      cases k with
      | zero => simp [edgePairs]
      | succ k =>
          have hbeside : treeNode H leaves level 1 = zeroNode H level :=
            treeNode_eq_zeroNode (by omega)
          have hnode : H [treeNode H leaves level 0, zeroNode H level]
              = treeNode H leaves (level + 1) 0 := by
            rw [← hbeside]
            rfl
          have hlevel' : leaves.length ≤ 2 ^ (level + 1) := by
            rw [pow_succ]
            omega
          have hmem := ih hlevel' (Nat.lt_of_succ_lt_succ hk)
          rw [Nat.add_assoc, Nat.add_comm 1 k] at hmem
          rw [edgePairs, hnode]
          exact ⟨List.mem_cons_of_mem _ (List.mem_cons_of_mem _ hmem.1),
            List.mem_cons_of_mem _ (List.mem_cons_of_mem _ hmem.2)⟩

/-- The pairs hashed in a tree with two leaves are those of the leaves, of zeros, and along
the edge above them. -/
theorem treeInputs_pair (x y : Word) (depth : ℕ) :
  treeInputs H (depth + 1) [x, y] ⊆
    [x.toFr, y.toFr] :: [0, 0] :: edgePairs H depth (H [x.toFr, y.toFr]) (H [0, 0])
  := by
  intro q hq
  obtain ⟨level, hlevel, hq⟩ := List.mem_flatMap.mp hq
  obtain ⟨index, hindex, rfl⟩ := List.mem_map.mp hq
  rw [List.mem_range] at hlevel
  cases level with
  | zero =>
      cases index with
      | zero => apply List.mem_cons_self ..
      | succ index =>
          apply List.mem_cons_of_mem
          have hzero : ∀ i, 2 ≤ i → treeNode H [x, y] 0 i = 0 := fun i hi =>
            leafRow_of_length_le hi
          rw [hzero _ (by omega), hzero _ (by omega)]
          apply List.mem_cons_self ..
  | succ level =>
      have hmem := @mem_edgePairs H [x, y] 1 (by simp) depth level (by omega)
      rw [Nat.add_comm 1 level] at hmem
      have hpow : 2 ≤ 2 ^ (level + 1) := Nat.le_self_pow (by omega) 2
      apply List.mem_cons_of_mem
      apply List.mem_cons_of_mem
      cases index with
      | zero =>
          have hbeside : treeNode H [x, y] (level + 1) (2 * 0 + 1) = zeroNode H (level + 1) :=
            treeNode_eq_zeroNode (by simpa using hpow)
          rw [hbeside]
          exact hmem.1
      | succ index =>
          have hzero : ∀ i, 1 ≤ i →
              treeNode H [x, y] (level + 1) i = zeroNode H (level + 1) := by
            intro i hi
            apply treeNode_eq_zeroNode
            apply hpow.trans (Nat.le_mul_of_pos_left _ hi)
          rw [hzero _ (by omega), hzero _ (by omega)]
          exact hmem.2

end

/-- The assignment for the label 5 over a deny tree of depth `255` with the leaves 5 and 7.
The lower leaf is a zero at the index `r`, which is the same field element as `0`, and the
upper leaf is 7 at the index `1`. -/
def aliased (H : Hash) : Assignment 0 255 := ofPositions H [5] [5, 7] 0 r 1 0

theorem aliased_satisfied (H : Hash) :
  Satisfied H 252 (aliased H)
  := by
  have hpadding : leafRow [5, 7] r = 0 := leafRow_of_length_le (by decide)
  apply ofPositions_satisfied (by decide) (by decide) (by decide)
  · rw [ZMod.natCast_self, zero_add, Nat.cast_one]
  · rw [hpadding]
    decide
  · decide
  · decide

/-- Inputs whose hashes are told apart do not collide. -/
theorem collisionFree_of_apart {H : Hash} {bits : ℕ} {inputs : List (List Fr)}
    (h : apart bits (inputs.map fun q => (H q).val) = true) :
  CollisionFree H inputs
  := by
  intro p hp q hq hpq
  apply List.inj_on_of_nodup_map (nodup_of_apart h) hp hq
  rw [hpq]

/-- No two of the pairs hashed in the deny tree collide. -/
theorem edge_collisionFree :
  CollisionFree poseidon255
    ([Word.toFr 5, Word.toFr 7] :: [0, 0] :: edgePairs poseidon255 254
      (poseidon255 [Word.toFr 5, Word.toFr 7]) (poseidon255 [0, 0]))
  := by
  have hcheck : (eager (poseidon255 [Word.toFr 5, Word.toFr 7]).val fun x =>
      eager (poseidon255 [0, 0]).val fun z => eagerEdge poseidon255 254 x z fun hashes =>
        apart 40 (x :: z :: hashes)) = true := by
    decide +kernel
  rw [eager_eq, eager_eq, eagerEdge_eq] at hcheck
  apply @collisionFree_of_apart poseidon255 40
  rw [List.map_cons, List.map_cons]
  exact hcheck

/-- Although no two of the pairs hashed in the trees and by the assignment collide, the label
5 is accepted over a deny tree that contains it. -/
theorem aliased_denied :
  Satisfied poseidon255 252 (aliased poseidon255)
    ∧ (aliased poseidon255).allowRoot = treeRoot poseidon255 0 [5]
    ∧ (aliased poseidon255).denyRoot = treeRoot poseidon255 255 [5, 7]
    ∧ CollisionFree poseidon255 (complianceInputs poseidon255 [5] [5, 7] (aliased poseidon255))
    ∧ ¬ Complies [5] [5, 7] (aliased poseidon255).label
  := by
  refine ⟨aliased_satisfied poseidon255, rfl, rfl, ?_, ?_⟩
  · apply edge_collisionFree.mono
    intro x hx
    have hmem := complianceInputs_ofPositions (by decide) (by decide) (by decide) 0 hx
    rcases List.mem_append.mp hmem with hmem | hmem
    · cases hmem
    · apply treeInputs_pair 5 7 254 hmem
  · rintro ⟨-, hdeny⟩
    apply hdeny 5 (by simp)
    decide

end Shade
