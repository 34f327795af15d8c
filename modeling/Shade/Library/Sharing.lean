import Mathlib

/-!
# Secret sharing by polynomials

A secret of a field is the value at zero of a polynomial, and its shares are the values at
other points. As many shares as the polynomial has coefficients determine the secret, by
interpolation. Fewer shares say nothing about it: whatever the secret is, adding a polynomial
without constant term moves the values at fewer points to any others.

A polynomial is the list of its coefficients, the constant first.
-/

open Polynomial

namespace Sharing

variable {F : Type} [Field F]

/-- The value of a polynomial, by Horner's rule. -/
def horner (coeffs : List F) (x : F) : F :=
  coeffs.foldr (fun c y => y * x + c) 0

@[simp]
theorem horner_nil (x : F) :
  horner [] x = 0
  := rfl

@[simp]
theorem horner_cons (c : F) (coeffs : List F) (x : F) :
  horner (c :: coeffs) x = horner coeffs x * x + c
  := rfl

/-- The value at zero is the constant coefficient. -/
theorem horner_zero (c : F) (coeffs : List F) :
  horner (c :: coeffs) 0 = c
  := by
  rw [horner_cons, mul_zero, zero_add]

/-- The values of polynomials with as many coefficients are added coefficient by
coefficient. -/
theorem horner_zipWith_add {cs ds : List F} (h : cs.length = ds.length) (x : F) :
  horner (List.zipWith (· + ·) cs ds) x = horner cs x + horner ds x
  := by
  induction cs generalizing ds with
  | nil =>
      obtain rfl := List.length_eq_zero_iff.mp h.symm
      simp
  | cons c cs ih =>
      cases ds with
      | nil => cases h
      | cons d ds =>
          rw [List.zipWith_cons_cons, horner_cons, ih (Nat.succ.inj h), horner_cons, horner_cons]
          ring

/-- The polynomial with the given coefficients. -/
noncomputable def toPoly (coeffs : List F) : F[X] :=
  coeffs.foldr (fun c p => p * X + C c) 0

theorem eval_toPoly (coeffs : List F) (x : F) :
  (toPoly coeffs).eval x = horner coeffs x
  := by
  induction coeffs with
  | nil => simp [toPoly]
  | cons c coeffs ih =>
      rw [horner_cons, ← ih]
      simp [toPoly]

theorem coeff_toPoly_of_le (coeffs : List F) {k : ℕ} (h : coeffs.length ≤ k) :
  (toPoly coeffs).coeff k = 0
  := by
  induction coeffs generalizing k with
  | nil => simp [toPoly]
  | cons c coeffs ih =>
      cases k with
      | zero => simp at h
      | succ k =>
          have hcoeff := ih (Nat.le_of_succ_le_succ h)
          simpa [toPoly, coeff_C] using hcoeff

/-- The degree of the polynomial is below the number of its coefficients. -/
theorem degree_toPoly_lt (coeffs : List F) :
  (toPoly coeffs).degree < coeffs.length
  := by
  rw [degree_lt_iff_coeff_zero]
  intro k hk
  apply coeff_toPoly_of_le coeffs hk

/-- The coefficients of a polynomial up to a number. -/
noncomputable def coefficients (p : F[X]) (m : ℕ) : List F :=
  (List.range m).map p.coeff

theorem horner_map_range (f : ℕ → F) (m : ℕ) (x : F) :
  horner ((List.range m).map f) x = ∑ i ∈ Finset.range m, f i * x ^ i
  := by
  induction m generalizing f with
  | zero => rfl
  | succ m ih =>
      rw [List.range_succ_eq_map, List.map_cons, List.map_map, horner_cons, ih,
        Finset.sum_range_succ', Finset.sum_mul, pow_zero, mul_one]
      congr 1
      apply Finset.sum_congr rfl
      intro i _
      rw [Function.comp_apply, pow_succ, mul_assoc]

/-- A polynomial of low degree is given by as many coefficients. -/
theorem horner_coefficients {p : F[X]} {m : ℕ} (h : p.degree < m) (x : F) :
  horner (coefficients p m) x = p.eval x
  := by
  rw [coefficients, horner_map_range]
  by_cases hp : p = 0
  · simp [hp]
  · rw [eval_eq_sum_range' ((natDegree_lt_iff_degree_lt hp).mpr h)]

/-! ### Interpolation -/

/-- The value at zero that interpolates values at different points. -/
def interpolate {n : ℕ} (x y : Fin n → F) : F :=
  ∑ i, y i * ((∏ j ∈ Finset.univ.erase i, -x j) * (∏ j ∈ Finset.univ.erase i, (x i - x j))⁻¹)

/-- The values of a polynomial with few coefficients at different points interpolate to its
value at zero. -/
theorem interpolate_horner {n : ℕ} {x : Fin n → F} (hx : Function.Injective x) {coeffs : List F}
    (h : coeffs.length ≤ n) :
  interpolate x (fun i => horner coeffs (x i)) = horner coeffs 0
  := by
  have hdegree : (toPoly coeffs).degree < (Finset.univ : Finset (Fin n)).card := by
    rw [Finset.card_univ, Fintype.card_fin]
    apply (degree_toPoly_lt coeffs).trans_le
    exact_mod_cast h
  rw [← eval_toPoly coeffs 0, Lagrange.eq_interpolate hx.injOn hdegree,
    Lagrange.interpolate_apply, eval_finsetSum, interpolate]
  apply Finset.sum_congr rfl
  intro i _
  rw [eval_mul, eval_C, eval_toPoly, Lagrange.basis, eval_prod, ← Finset.prod_inv_distrib,
    ← Finset.prod_mul_distrib]
  congr 1
  apply Finset.prod_congr rfl
  intro j _
  simp only [Lagrange.basisDivisor, eval_mul, eval_C, eval_sub, eval_X, zero_sub]
  ring

/-! ### Secrecy -/

/-- There is a polynomial without constant term and with as many other coefficients as there
are points, different from zero, at which its values are given. -/
theorem exists_horner_eq {points : Finset F} (hpoints : (0 : F) ∉ points) (f : F → F) {m : ℕ}
    (h : points.card ≤ m) :
  ∃ ds : List F, ds.length = m ∧ ∀ x ∈ points, horner (0 :: ds) x = f x
  := by
  classical
  have hdegree : (Lagrange.interpolate points id fun x => f x / x).degree < m := by
    apply (Lagrange.degree_interpolate_lt _ Function.injective_id.injOn).trans_le
    exact_mod_cast h
  use coefficients (Lagrange.interpolate points id fun x => f x / x) m
  constructor
  · simp [coefficients]
  · intro x hx
    have hne : x ≠ 0 := by
      rintro rfl
      apply hpoints hx
    have heval := Lagrange.eval_interpolate_at_node (fun x => f x / x)
      Function.injective_id.injOn hx
    rw [id] at heval
    rw [horner_cons, horner_coefficients hdegree, heval, add_zero, div_mul_cancel₀ _ hne]

end Sharing
