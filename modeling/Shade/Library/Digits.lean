import Shade.Library.Endian
import Mathlib.Data.Nat.Digits.Lemmas

/-!
# Bytes of numbers of any size

`ofBE` is injective on bytes of one length: what it reads, `toBE` writes again. `toBytesBe` writes
a number with as few bytes as possible, zero with one; filled up with zero bytes it is what `toBE`
writes.
-/

namespace Endian

/-- Bytes that are not written do not matter. -/
theorem toBE_mul_pow_add (k a n : ℕ) :
  toBE k (a * 256 ^ k + n) = toBE k n
  := by
  induction k generalizing a n with
  | zero => rfl
  | succ k ih =>
      have hhead : (a * 256 ^ (k + 1) + n) / 256 ^ k = a * 256 + n / 256 ^ k := by
        rw [pow_succ, mul_comm (256 ^ k), ← mul_assoc, mul_comm, Nat.mul_add_div (by positivity)]
      have htail := ih (a * 256) n
      rw [mul_assoc, ← pow_succ'] at htail
      rw [toBE, toBE, hhead, htail]
      congr 1
      apply UInt8.toNat_inj.mp
      rw [UInt8.toNat_ofNat', UInt8.toNat_ofNat']
      omega

/-- Writing what was read gives the same bytes. -/
theorem toBE_ofBE (bs : List UInt8) :
  toBE bs.length (ofBE bs) = bs
  := by
  induction bs with
  | nil => rfl
  | cons b bs ih =>
      have hlt := ofBE_lt bs
      have hhead : (b.toNat * 256 ^ bs.length + ofBE bs) / 256 ^ bs.length = b.toNat := by
        rw [mul_comm, Nat.mul_add_div (by positivity), Nat.div_eq_of_lt hlt, add_zero]
      rw [ofBE_cons, List.length_cons, toBE, toBE_mul_pow_add, hhead, ih, UInt8.ofNat_toNat]

/-- Bytes of one length are determined by the number they denote. -/
theorem ofBE_injective {bs bs' : List UInt8} (hlen : bs.length = bs'.length)
    (h : ofBE bs = ofBE bs') :
  bs = bs'
  := by
  rw [← toBE_ofBE bs, ← toBE_ofBE bs', hlen, h]

/-- The number denoted by bytes after zero bytes. -/
theorem ofBE_replicate_append (k : ℕ) (bs : List UInt8) :
  ofBE (List.replicate k 0 ++ bs) = ofBE bs
  := by
  induction k with
  | zero => rfl
  | succ k ih =>
      rw [List.replicate_succ, List.cons_append, ofBE_cons, ih]
      simp

/-! ### As few bytes as possible -/

/-- The bytes of a number, the most significant byte first and not zero. Zero has one byte. -/
def toBytesBe (n : ℕ) : List UInt8 :=
  if n = 0 then [0] else (Nat.digits 256 n).reverse.map UInt8.ofNat

theorem ofBE_map_reverse {ds : List ℕ} (hds : ∀ d ∈ ds, d < 256) :
  ofBE (ds.reverse.map UInt8.ofNat) = Nat.ofDigits 256 ds
  := by
  induction ds with
  | nil => rfl
  | cons d ds ih =>
      rw [List.forall_mem_cons] at hds
      rw [List.reverse_cons, List.map_append, List.map_singleton, ofBE_append_singleton,
        ih hds.2, Nat.ofDigits_cons, UInt8.toNat_ofNat', Nat.mod_eq_of_lt hds.1]
      ring

theorem ofBE_toBytesBe (n : ℕ) :
  ofBE (toBytesBe n) = n
  := by
  rw [toBytesBe]
  split
  · next h =>
      rw [h]
      rfl
  · rw [ofBE_map_reverse (fun d hd => Nat.digits_lt_base (by omega) hd), Nat.ofDigits_digits]

/-- A number below a power of 256 has few bytes. -/
theorem length_toBytesBe_le {k n : ℕ} (hk : 0 < k) :
  (toBytesBe n).length ≤ k ↔ n < 256 ^ k
  := by
  rw [toBytesBe]
  split
  · next h =>
      rw [h, List.length_singleton]
      have hpos : 0 < 256 ^ k := by positivity
      omega
  · rw [List.length_map, List.length_reverse, Nat.digits_length_le_iff (by omega)]

/-- Filled up with zero bytes, the bytes are those of the given length. -/
theorem replicate_append_toBytesBe {k n : ℕ} (hk : 0 < k) (hn : n < 256 ^ k) :
  List.replicate (k - (toBytesBe n).length) 0 ++ toBytesBe n = toBE k n
  := by
  have hlen := (length_toBytesBe_le hk).mpr hn
  apply ofBE_injective
  · rw [List.length_append, List.length_replicate, length_toBE]
    omega
  · rw [ofBE_replicate_append, ofBE_toBytesBe, ofBE_toBE, Nat.mod_eq_of_lt hn]

end Endian
