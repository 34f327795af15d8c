import Shade.Library.PrimeField

/-!
# The scalar field

`Fr` is the scalar field of BLS12-381, in which the circuits compute, and `Word` the type
of the 32-byte words, read big-endian, in which the contracts keep field elements, hashes
and keys. A word stands for the field element of its residue; a field element is written
as the word of its canonical representative.
-/

namespace Shade

/-- The order of the scalar field of BLS12-381. -/
def r : ℕ := 0x73eda753299d7d483339d80809a1d80553bda402fffe5bfeffffffff00000001

/-- The prime factors of `r - 1`. -/
theorem mem_of_dvd_r_sub_one {q : ℕ} (hq : q.Prime) (hdvd : q ∣ r - 1) :
  q ∈ [2, 3, 11, 19, 10177, 125527, 859267, 906349, 2508409, 2529403, 52437899, 254760293]
  := by
  have hfactors : r - 1 = 2 ^ 32 * (3 * (11 * (19 * (10177 * (125527 * (859267 * (906349 ^ 2 *
      (2508409 * (2529403 * (52437899 * 254760293 ^ 2)))))))))) := by
    norm_num [r]
  have hself : ∀ {n : ℕ}, n.Prime → q ∣ n → q = n := fun hn h =>
    (Nat.prime_dvd_prime_iff_eq hq hn).mp h
  have hpow : ∀ {n k : ℕ}, n.Prime → q ∣ n ^ k → q = n := fun hn h =>
    hself hn (hq.dvd_of_dvd_pow h)
  rw [hfactors] at hdvd
  simp only [hq.dvd_mul] at hdvd
  rcases hdvd with h | h | h | h | h | h | h | h | h | h | h | h
  · simp [hpow (by norm_num) h]
  · simp [hself (by norm_num) h]
  · simp [hself (by norm_num) h]
  · simp [hself (by norm_num) h]
  · simp [hself (by norm_num) h]
  · simp [hself (by norm_num) h]
  · simp [hself (by norm_num) h]
  · simp [hpow (by norm_num) h]
  · simp [hself (by norm_num) h]
  · simp [hself (by norm_num) h]
  · simp [hself (by norm_num) h]
  · simp [hpow (by norm_num) h]

/-- The order of the field is prime, by Lucas's test with the witness `7`. -/
theorem r_prime :
  r.Prime
  := by
  have hfactors : ∀ q : ℕ, q.Prime → q ∣ r - 1 → q ∈ _ := fun _ hq hdvd =>
    mem_of_dvd_r_sub_one hq hdvd
  rw [r] at hfactors ⊢
  apply lucas_primality _ 7
  · norm_num
    reduce_mod_char
  · intro q hq hdvd
    have hmem := hfactors q hq hdvd
    fin_cases hmem <;> norm_num <;> reduce_mod_char <;> decide

instance : Fact r.Prime := ⟨r_prime⟩

/-- The scalar field. -/
abbrev Fr : Type := ZMod r

/-- A 32-byte word, read big-endian. -/
abbrev Word : Type := BitVec 256

/-- The field element a word stands for. -/
def Word.toFr (w : Word) : Fr := (w.toNat : Fr)

/-- The word of the canonical representative of a field element. -/
def Word.ofFr (x : Fr) : Word := BitVec.ofNat 256 x.val

/-- The word is the canonical encoding of its field element. -/
def Word.Canonical (w : Word) : Prop := w.toNat < r

instance (w : Word) : Decidable w.Canonical :=
  inferInstanceAs (Decidable (w.toNat < r))

theorem Word.val_toFr (w : Word) :
  w.toFr.val = w.toNat % r
  := ZMod.val_natCast r w.toNat

/-- A canonical word is the integer its field element stands for. -/
theorem Word.Canonical.val_toFr {w : Word} (h : w.Canonical) :
  w.toFr.val = w.toNat
  := by
  rw [Word.val_toFr, Nat.mod_eq_of_lt h]

/-- Canonical words of one field element are equal. -/
theorem Word.Canonical.eq_of_toFr {w w' : Word} (h : w.Canonical) (h' : w'.Canonical)
    (heq : w.toFr = w'.toFr) :
  w = w'
  := by
  apply BitVec.eq_of_toNat_eq
  rw [← h.val_toFr, ← h'.val_toFr, heq]

theorem Word.toNat_ofFr (x : Fr) :
  (Word.ofFr x).toNat = x.val
  := by
  have hx := ZMod.val_lt x
  have hr : r < 2 ^ 256 := by decide
  rw [Word.ofFr, BitVec.toNat_ofNat, Nat.mod_eq_of_lt (by omega)]

@[simp]
theorem Word.toFr_ofFr (x : Fr) :
  (Word.ofFr x).toFr = x
  := by
  rw [Word.toFr, Word.toNat_ofFr, ZMod.natCast_zmod_val]

theorem Word.canonical_ofFr (x : Fr) :
  (Word.ofFr x).Canonical
  := by
  rw [Word.Canonical, Word.toNat_ofFr]
  apply ZMod.val_lt

end Shade
