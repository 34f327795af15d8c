import Mathlib.Data.Nat.Basic
import Mathlib.Data.UInt
import Mathlib.Algebra.Order.Ring.Nat
import Mathlib.Tactic.Ring

/-!
# Big-endian bytes

`ofBE` reads a list of bytes as a number, the most significant byte first, and `toBE k`
writes a number with `k` bytes, keeping its residue modulo `256 ^ k`.
-/

namespace Endian

/-- The number a list of bytes denotes, the most significant byte first. -/
def ofBE (bs : List UInt8) : ℕ :=
  bs.foldl (fun n b => n * 256 + b.toNat) 0

/-- The `k` low bytes of a number, the most significant byte first. -/
def toBE : ℕ → ℕ → List UInt8
  | 0, _ => []
  | k + 1, n => UInt8.ofNat (n / 256 ^ k) :: toBE k n

@[simp]
theorem length_toBE (k n : ℕ) :
  (toBE k n).length = k
  := by
  induction k with
  | zero => rfl
  | succ k ih => rw [toBE, List.length_cons, ih]

theorem ofBE_append_singleton (bs : List UInt8) (b : UInt8) :
  ofBE (bs ++ [b]) = ofBE bs * 256 + b.toNat
  := by
  rw [ofBE, List.foldl_append, List.foldl_cons, List.foldl_nil, ofBE]

theorem ofBE_cons (b : UInt8) (bs : List UInt8) :
  ofBE (b :: bs) = b.toNat * 256 ^ bs.length + ofBE bs
  := by
  induction bs using List.reverseRecOn with
  | nil => simp [ofBE]
  | append_singleton bs c ih =>
      rw [← List.cons_append, ofBE_append_singleton, ofBE_append_singleton, ih,
        List.length_append, List.length_singleton, pow_succ]
      ring

/-- A list of bytes denotes a number of as many bytes. -/
theorem ofBE_lt (bs : List UInt8) :
  ofBE bs < 256 ^ bs.length
  := by
  induction bs using List.reverseRecOn with
  | nil => simp [ofBE]
  | append_singleton bs b ih =>
      have hb := b.toNat_lt
      rw [ofBE_append_singleton, List.length_append, List.length_singleton, pow_succ]
      omega

/-- Reading back what `toBE` wrote gives the residue. -/
theorem ofBE_toBE (k n : ℕ) :
  ofBE (toBE k n) = n % 256 ^ k
  := by
  induction k with
  | zero => simp [toBE, ofBE, Nat.mod_one]
  | succ k ih =>
      rw [toBE, ofBE_cons, length_toBE, ih, UInt8.toNat_ofNat', pow_succ 256 k, Nat.mod_mul]
      ring

/-- Numbers that fit are determined by the bytes written. -/
theorem toBE_injective {k n m : ℕ} (hn : n < 256 ^ k) (hm : m < 256 ^ k)
    (h : toBE k n = toBE k m) :
  n = m
  := by
  have hval := congrArg ofBE h
  rwa [ofBE_toBE, ofBE_toBE, Nat.mod_eq_of_lt hn, Nat.mod_eq_of_lt hm] at hval

end Endian
