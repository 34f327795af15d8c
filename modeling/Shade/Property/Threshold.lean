import Shade.Property.Committee

/-!
# When the committee's signatures are accepted

The check of the committee's signatures accepts a list of signers and a list of signatures
exactly if the signers are two thirds of the committee or more, rounded up, all of them different
members, and the signatures at the places of the signers verify. Two lists that are accepted for
one committee therefore have a third of it in common.
-/

namespace Shade.Pool

/-- The check of the committee's signatures returns. -/
def CommitteeAccepts (host : Host) (w : World) (batchHash : Word) (signers : List Word)
    (signatures : List Signature) : Prop :=
  ∃ w', (verifyCommitteeThreshold host batchHash signers signatures).run w = .ok ((), w')

section

variable {host : Host} {w w' : World} {committee signers signers' : List Word}
  {signatures signatures' : List Signature} {batchHash batchHash' : Word}

theorem committeeAccepts_iff_endorsed :
  CommitteeAccepts host w batchHash signers signatures
    ↔ w.pool.Endorsed host batchHash.toBytes signers signatures
  := by
  rw [CommitteeAccepts]
  constructor
  · rintro ⟨w', h⟩
    rw [← bind_pure (verifyCommitteeThreshold host batchHash signers signatures),
      verifyCommitteeThreshold_bind_ok] at h
    apply h.1
  · intro h
    use w
    rw [← bind_pure (verifyCommitteeThreshold host batchHash signers signatures),
      verifyCommitteeThreshold_bind_ok]
    use h
    rfl

/-- The threshold is two thirds, rounded up. -/
theorem threshold_le_iff (n k : ℕ) :
  threshold n ≤ k ↔ ⌈(2 * n : ℚ) / 3⌉₊ ≤ k
  := by
  have hceil : (2 * n : ℚ) / 3 ≤ k ↔ 2 * n ≤ 3 * k := by
    rw [div_le_iff₀ (by norm_num), mul_comm (k : ℚ)]
    exact_mod_cast Iff.rfl
  rw [Nat.ceil_le, hceil, threshold]
  omega

/-- The signatures of pairwise places, by the place. -/
theorem forall_zip_iff (p : Word → Signature → Prop) :
  (∀ q ∈ signers.zip signatures, p q.1 q.2)
    ↔ ∀ (i : ℕ) (hi : i < signers.length) (hi' : i < signatures.length),
      p (signers.get ⟨i, hi⟩) (signatures.get ⟨i, hi'⟩)
  := by
  constructor
  · intro h i hi hi'
    apply h (signers.get ⟨i, hi⟩, signatures.get ⟨i, hi'⟩)
    rw [List.mem_iff_getElem]
    use i, by simp [hi, hi']
    simp
  · rintro h ⟨pk, sig⟩ hq
    obtain ⟨i, hi, hq⟩ := List.mem_iff_getElem.mp hq
    rw [List.length_zip] at hi
    rw [List.getElem_zip, Prod.mk.injEq] at hq
    obtain ⟨rfl, rfl⟩ := hq
    apply h i (by omega) (by omega)

/-- Two lists of different members of a list have at least as many elements in common as their
lengths together exceed its length. -/
theorem length_add_length_le (hnodup : signers.Nodup) (hnodup' : signers'.Nodup)
    (hmem : ∀ pk ∈ signers, pk ∈ committee) (hmem' : ∀ pk ∈ signers', pk ∈ committee)
    (hcommittee : committee.Nodup) :
  signers.length + signers'.length ≤ committee.length + (signers ∩ signers').length
  := by
  have hunion : (signers.toFinset ∪ signers'.toFinset).card ≤ committee.toFinset.card := by
    apply Finset.card_le_card
    intro pk hpk
    rw [Finset.mem_union, List.mem_toFinset, List.mem_toFinset] at hpk
    rw [List.mem_toFinset]
    rcases hpk with hpk | hpk
    · apply hmem _ hpk
    · apply hmem' _ hpk
  have hinter : signers.toFinset ∩ signers'.toFinset = (signers ∩ signers').toFinset := by
    ext pk
    simp
  have hsum := Finset.card_union_add_card_inter signers.toFinset signers'.toFinset
  rw [hinter, List.toFinset_card_of_nodup hnodup, List.toFinset_card_of_nodup hnodup',
    List.toFinset_card_of_nodup (hnodup.inter signers')] at hsum
  rw [List.toFinset_card_of_nodup hcommittee] at hunion
  omega

theorem committeeAccepts_iff (hcommittee : w.pool.mpcCmte = some committee) :
  CommitteeAccepts host w batchHash signers signatures
    ↔ 0 < committee.length ∧ signers.Nodup ∧ (∀ pk ∈ signers, pk ∈ committee)
      ∧ ⌈(2 * committee.length : ℚ) / 3⌉₊ ≤ signers.length
      ∧ signers.length ≤ signatures.length
      ∧ ∀ (i : ℕ) (hi : i < signers.length) (hi' : i < signatures.length),
        host.ed25519Verify (signers.get ⟨i, hi⟩) batchHash.toBytes (signatures.get ⟨i, hi'⟩) = true
  := by
  rw [committeeAccepts_iff_endorsed, ← threshold_le_iff, List.length_pos_iff,
    ← forall_zip_iff fun pk sig => host.ed25519Verify pk batchHash.toBytes sig = true]
  constructor
  · rintro ⟨committee', hcommittee', hne, hlen, hnodup, hmem, hsigs, hverify⟩
    rw [hcommittee] at hcommittee'
    cases hcommittee'
    use hne, hnodup, hmem, hlen, hsigs, hverify
  · rintro ⟨hne, hnodup, hmem, hlen, hsigs, hverify⟩
    use committee, hcommittee, hne, hlen, hnodup, hmem, hsigs, hverify

theorem CommitteeAccepts.third_in_common (hcommittee : w.pool.mpcCmte = some committee)
    (hcommittee' : w'.pool.mpcCmte = some committee) (hnodup : committee.Nodup)
    (h : CommitteeAccepts host w batchHash signers signatures)
    (h' : CommitteeAccepts host w' batchHash' signers' signatures') :
  (committee.length / 3 : ℚ) ≤ (signers ∩ signers').length
  := by
  obtain ⟨-, hsigners, hmem, hlen, -⟩ := (committeeAccepts_iff hcommittee).mp h
  obtain ⟨-, hsigners', hmem', hlen', -⟩ := (committeeAccepts_iff hcommittee').mp h'
  have hcommon := length_add_length_le hsigners hsigners' hmem hmem' hnodup
  rw [← threshold_le_iff, threshold] at hlen hlen'
  rw [div_le_iff₀ (by norm_num)]
  have hthird : committee.length ≤ (signers ∩ signers').length * 3 := by
    omega
  exact_mod_cast hthird

end

/-- The signatures of a committee are accepted exactly if the signers are enough different
members and the signatures in their places verify. Any two lists of signers accepted for the
committee have a third of it in common if it has no member twice. -/
theorem verifyCommitteeThreshold_exact (host : Host) {committee : List Word} {w : World}
    (hcommittee : w.pool.mpcCmte = some committee) :
  (∀ batchHash signers signatures,
      CommitteeAccepts host w batchHash signers signatures
        ↔ 0 < committee.length ∧ signers.Nodup ∧ (∀ pk ∈ signers, pk ∈ committee)
          ∧ ⌈(2 * committee.length : ℚ) / 3⌉₊ ≤ signers.length
          ∧ signers.length ≤ signatures.length
          ∧ ∀ (i : ℕ) (hi : i < signers.length) (hi' : i < signatures.length),
            host.ed25519Verify (signers.get ⟨i, hi⟩) batchHash.toBytes
              (signatures.get ⟨i, hi'⟩) = true)
    ∧ (committee.Nodup → ∀ w' : World, w'.pool.mpcCmte = some committee →
      ∀ batchHash batchHash' signers signers' signatures signatures',
        CommitteeAccepts host w batchHash signers signatures →
        CommitteeAccepts host w' batchHash' signers' signatures' →
        (committee.length / 3 : ℚ) ≤ (signers ∩ signers').length)
  := by
  constructor
  · intro batchHash signers signatures
    apply committeeAccepts_iff hcommittee
  · intro hnodup w' hcommittee' batchHash batchHash' signers signers' signatures signatures' h h'
    apply h.third_in_common hcommittee hcommittee' hnodup h'

open Deployment in
/-- The signatures of two members of a committee of three are accepted. -/
theorem verifyCommitteeThreshold_two_of_three :
  CommitteeAccepts (crossHost largeHash largeSignatures)
    ((genesis usdc).mapPool fun s => { s with mpcCmte := some committee }) largeHash
    (committee.take 2) largeSignatures
  := by
  have hcommittee : ((genesis usdc).mapPool fun s =>
      { s with mpcCmte := some committee }).pool.mpcCmte = some committee := rfl
  apply ((verifyCommitteeThreshold_exact (crossHost largeHash largeSignatures)
    hcommittee).1 largeHash (committee.take 2) largeSignatures).mpr
  have hceil : ⌈(2 * committee.length : ℚ) / 3⌉₊ ≤ 2 := by
    rw [← threshold_le_iff]
    decide
  have hall : ((committee.take 2).zip largeSignatures).all (fun q =>
      (crossHost largeHash largeSignatures).ed25519Verify q.1 largeHash.toBytes q.2) = true := by
    decide +kernel
  refine ⟨by decide, by decide +kernel, fun _ => List.mem_of_mem_take, hceil, by decide, ?_⟩
  apply (forall_zip_iff fun pk sig =>
    (crossHost largeHash largeSignatures).ed25519Verify pk largeHash.toBytes sig = true).mp
  exact List.all_eq_true.mp hall

end Shade.Pool
