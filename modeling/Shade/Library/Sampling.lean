import Mathlib

/-!
# Independent uniform draws

`draws n` is the distribution of `n` independent uniform draws. A transformation that replaces
each draw by a permutation of it, where the permutation may depend on the draws before, leaves
the distribution as it is. Two computations on the draws of which one follows from the other by
such a transformation therefore have the same distribution.

Draws below a multiple of `m` are permuted by moving their remainders by `m` around.
-/

namespace Sampling

variable {α : Type} [Fintype α] [Nonempty α]

/-- A number of independent uniform draws. -/
noncomputable def draws : ℕ → PMF (List α)
  | 0 => PMF.pure []
  | n + 1 => (PMF.uniformOfFintype α).bind fun a => (draws n).map (a :: ·)

/-- A permutation keeps the uniform distribution. -/
theorem map_uniformOfFintype (σ : Equiv.Perm α) :
  (PMF.uniformOfFintype α).map σ = PMF.uniformOfFintype α
  := by
  ext a
  rw [PMF.map_apply, tsum_eq_single (σ.symm a)]
  · rw [if_pos (σ.apply_symm_apply a).symm, PMF.uniformOfFintype_apply,
      PMF.uniformOfFintype_apply]
  · intro b hb
    rw [if_neg]
    rintro rfl
    apply hb (σ.symm_apply_apply b).symm

/-- Replace each draw by the permutation of it that belongs to a state, which changes with the
draws. -/
def transform {S : Type} (σ : S → Equiv.Perm α) (next : S → α → S) : S → List α → List α
  | _, [] => []
  | s, a :: l => σ s a :: transform σ next (next s a) l

variable {S : Type} {σ : S → Equiv.Perm α} {next : S → α → S}

/-- The draws are distributed after the transformation as before. -/
theorem map_transform_draws (s : S) (n : ℕ) :
  (draws n).map (transform σ next s) = draws n
  := by
  induction n generalizing s with
  | zero => rw [draws, PMF.pure_map, transform]
  | succ n ih =>
      have hstep : ∀ a, ((draws n).map (a :: ·)).map (transform σ next s)
          = (draws n).map (σ s a :: ·) := by
        intro a
        conv_rhs => rw [← ih (next s a)]
        rw [PMF.map_comp, PMF.map_comp]
        rfl
      have huniform : (PMF.uniformOfFintype α).bind (fun a => (draws n).map (σ s a :: ·))
          = ((PMF.uniformOfFintype α).map (σ s)).bind fun a => (draws n).map (a :: ·) := by
        rw [PMF.bind_map]
        rfl
      rw [draws, PMF.map_bind]
      simp only [hstep]
      rw [huniform, map_uniformOfFintype]

/-- A computation is distributed as another one that gives the same on transformed draws. -/
theorem map_draws_eq {β : Type} {f g : List α → β} (s : S)
    (h : ∀ l, g (transform σ next s l) = f l) (n : ℕ) :
  (draws n).map f = (draws n).map g
  := by
  have hdraws : (draws n).map (transform σ next s) = draws n := map_transform_draws s n
  conv_rhs => rw [← hdraws]
  rw [PMF.map_comp]
  congr 1
  funext l
  exact (h l).symm

/-- The probability that the first draws, as many as there are, all have a property. -/
theorem map_draws_forall (p : α → Prop) [DecidablePred p] (n : ℕ) :
  (draws n).map (fun l => l.all fun a => decide (p a)) true
    = ((Finset.univ.filter p).card / Fintype.card α : ENNReal) ^ n
  := by
  induction n with
  | zero => simp [draws, PMF.pure_map]
  | succ n ih =>
      have hstep : ∀ a, ((draws n).map (a :: ·)).map (fun l => l.all fun a => decide (p a)) true
          = if p a then ((Finset.univ.filter p).card / Fintype.card α : ENNReal) ^ n else 0 := by
        intro a
        rw [PMF.map_comp]
        by_cases ha : p a
        · rw [if_pos ha, ← ih]
          simp [Function.comp_def, ha]
        · rw [if_neg ha]
          simp [Function.comp_def, ha]
      rw [draws, PMF.map_bind, PMF.bind_apply, tsum_fintype]
      simp only [hstep, PMF.uniformOfFintype_apply, mul_ite, mul_zero]
      rw [← Finset.sum_filter, Finset.sum_const, nsmul_eq_mul, pow_succ', div_eq_mul_inv, mul_assoc]

/-! ### Remainders -/

/-- Move the remainder of a number by `m` around. -/
def rotate (m d n : ℕ) : ℕ := n / m * m + (n % m + d) % m

theorem rotate_div {m : ℕ} (h : 0 < m) (d n : ℕ) :
  rotate m d n / m = n / m
  := by
  rw [rotate, mul_comm, Nat.mul_add_div h, Nat.div_eq_of_lt (Nat.mod_lt _ h), add_zero]

theorem rotate_mod (m d n : ℕ) :
  rotate m d n % m = (n % m + d) % m
  := by
  rw [rotate, Nat.mul_add_mod', Nat.mod_mod]

theorem rotate_lt {m k : ℕ} (h : 0 < m) (d : ℕ) {n : ℕ} :
  rotate m d n < k * m ↔ n < k * m
  := by
  rw [← Nat.div_lt_iff_lt_mul h, ← Nat.div_lt_iff_lt_mul h, rotate_div h]

theorem rotate_injective {m : ℕ} (h : 0 < m) (d : ℕ) :
  Function.Injective (rotate m d)
  := by
  intro n n' heq
  have hdiv : n / m = n' / m := by
    rw [← rotate_div h d n, heq, rotate_div h]
  have hmod : n % m = n' % m := by
    have hsum := rotate_mod m d n
    rw [heq, rotate_mod] at hsum
    have hmod : n' % m ≡ n % m [MOD m] := Nat.ModEq.add_right_cancel' d hsum
    rw [Nat.ModEq, Nat.mod_mod, Nat.mod_mod] at hmod
    exact hmod.symm
  rw [← Nat.div_add_mod n m, ← Nat.div_add_mod n' m, hdiv, hmod]

end Sampling
