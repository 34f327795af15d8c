import Mathlib

/-!
# Integers in a prime field

An element of `ZMod p` stands for the integer `ZMod.val` in `[0, p)`. An equation of field
elements is an equation of these integers as long as no term wraps around `p`. The bit
decompositions of arithmetic circuits bound such terms: `Decomposes bs x` says that the
field elements `bs`, each `0` or `1`, are the binary digits of `x`, least significant
first, and then `x` stands for an integer below `2 ^ bs.length`.
-/

namespace PrimeField

variable {p : ℕ}

/-- The field element with the given binary digits, least significant first. -/
def ofBits : List (ZMod p) → ZMod p
  | [] => 0
  | b :: bs => b + 2 * ofBits bs

/-- The binary digits of `x`, least significant first, are the field elements `bs`. -/
def Decomposes (bs : List (ZMod p)) (x : ZMod p) : Prop :=
  (∀ b ∈ bs, b * (b - 1) = 0) ∧ ofBits bs = x

/-- The binary digits of an integer, least significant first, as field elements. -/
def digits : ℕ → ℕ → List (ZMod p)
  | 0, _ => []
  | k + 1, n => (if n % 2 = 1 then 1 else 0) :: digits k (n / 2)

@[simp]
theorem length_digits (k n : ℕ) :
  (digits k n : List (ZMod p)).length = k
  := by
  induction k generalizing n with
  | zero => rfl
  | succ k ih => rw [digits, List.length_cons, ih]

/-- The digit at a position. -/
theorem getD_digits {k i n : ℕ} (h : i < k) :
  (digits k n : List (ZMod p)).getD i 0 = if n / 2 ^ i % 2 = 1 then 1 else 0
  := by
  induction k generalizing i n with
  | zero => omega
  | succ k ih =>
      rw [digits]
      cases i with
      | zero => rw [List.getD_cons_zero, pow_zero, Nat.div_one]
      | succ i =>
          rw [List.getD_cons_succ, ih (by omega), pow_succ', Nat.div_div_eq_div_mul]

/-- Every integer below `2 ^ k` is decomposed by its `k` digits. -/
theorem decomposes_digits {k n : ℕ} (h : n < 2 ^ k) :
  Decomposes (digits k n) (n : ZMod p)
  := by
  induction k generalizing n with
  | zero =>
      obtain rfl : n = 0 := by simpa using h
      constructor
      · simp [digits]
      · simp [digits, ofBits]
  | succ k ih =>
      obtain ⟨hbits, hsum⟩ := ih (n := n / 2) (by rw [pow_succ] at h; omega)
      constructor
      · intro b hb
        rcases List.mem_cons.mp hb with rfl | hb
        · split_ifs <;> ring
        · apply hbits b hb
      · rw [digits, ofBits, hsum]
        conv_rhs => rw [← Nat.mod_add_div n 2]
        rcases Nat.mod_two_eq_zero_or_one n with h2 | h2
        · rw [h2, if_neg (by decide)]
          push_cast
          ring
        · rw [h2, if_pos rfl]
          push_cast
          ring

/-- Every element below `2 ^ k` is decomposed by the digits of its integer. -/
theorem decomposes_of_val_lt [NeZero p] {k : ℕ} {x : ZMod p} (h : x.val < 2 ^ k) :
  Decomposes (digits k x.val) x
  := by
  have hx := decomposes_digits (p := p) h
  rwa [ZMod.natCast_zmod_val] at hx

section Decomposition

variable [Fact p.Prime]

/-- The product constraint of a bit admits exactly zero and one. -/
theorem bit_iff {b : ZMod p} :
  b * (b - 1) = 0 ↔ b = 0 ∨ b = 1
  := by
  rw [mul_eq_zero, sub_eq_zero]

/-- Bits are the digits of an integer below the power of two of their number. -/
theorem exists_digits_of_bits :
  ∀ {bs : List (ZMod p)}, (∀ b ∈ bs, b * (b - 1) = 0) →
    ∃ n : ℕ, n < 2 ^ bs.length ∧ bs = digits bs.length n
  | [], _ => ⟨0, by simp, rfl⟩
  | b :: bs, h => by
      obtain ⟨n, hn, hbs⟩ := exists_digits_of_bits fun c (hc : c ∈ bs) => h c (by simp [hc])
      rw [List.length_cons, pow_succ]
      rcases bit_iff.mp (h b (by simp)) with rfl | rfl
      · use 2 * n
        constructor
        · omega
        · have hhalf : 2 * n / 2 = n := by omega
          rw [digits, if_neg (by omega), hhalf, ← hbs]
      · use 2 * n + 1
        constructor
        · omega
        · have hhalf : (2 * n + 1) / 2 = n := by omega
          rw [digits, if_pos (by omega), hhalf, ← hbs]

/-- An element that is decomposed is an integer below the power of two of the number of its
digits, and these are the digits of the integer. -/
theorem Decomposes.exists_nat {bs : List (ZMod p)} {x : ZMod p} (h : Decomposes bs x) :
  ∃ n : ℕ, n < 2 ^ bs.length ∧ bs = digits bs.length n ∧ x = n
  := by
  obtain ⟨n, hn, hbs⟩ := exists_digits_of_bits h.1
  use n, hn, hbs
  rw [← h.2, hbs, (decomposes_digits hn).2]

/-- An element with `n` binary digits stands for an integer below `2 ^ n`, when these fit
in the field. -/
theorem Decomposes.val_lt {bs : List (ZMod p)} {x : ZMod p} (h : Decomposes bs x)
    (hp : 2 ^ bs.length ≤ p) :
  x.val < 2 ^ bs.length
  := by
  obtain ⟨n, hn, -, rfl⟩ := h.exists_nat
  rw [ZMod.val_natCast, Nat.mod_eq_of_lt (lt_of_lt_of_le hn hp)]
  apply hn

end Decomposition

/-! ### Differences that do not wrap -/

/-- If the difference and the subtrahend do not wrap around together, then the minuend is
their sum as integers. -/
theorem val_eq_sub_add {x y : ZMod p} (h : (x - y).val + y.val < p) :
  x.val = (x - y).val + y.val
  := by
  rw [← ZMod.val_add_of_lt h, sub_add_cancel]

/-- A difference that stands for a small integer orders its terms, unless the subtrahend is
within that bound of the order of the field. -/
theorem val_le_of_sub_lt {x y : ZMod p} {k : ℕ} (h : (x - y).val < k) (hy : y.val + k ≤ p) :
  y.val ≤ x.val ∧ x.val < y.val + k
  := by
  have hx := val_eq_sub_add (x := x) (y := y) (by omega)
  omega

end PrimeField
