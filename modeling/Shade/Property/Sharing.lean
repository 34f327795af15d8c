import Shade.Committee.Shamir
import Shade.Library.Sampling
import Shade.Library.Sharing

/-!
# What shares say about an amount

As many shares as the threshold says, or more, of whatever points and in whatever order,
recover the secret. Fewer shares are distributed independently of it.
-/

namespace Shade.Committee

open Sharing

/-! ### Integers modulo the prime -/

theorem modp_eq_emod (x : ℤ) :
  modp x = x % P
  := by
  have hP : (0 : ℤ) < P := by
    decide
  rw [modp, Int.tmod_eq_emod_of_nonneg]
  · rw [Int.add_emod_right]
    conv_rhs => rw [← Int.tmod_add_mul_tdiv x P]
    rw [Int.add_mul_emod_self_left]
  · have habs := Int.natAbs_tmod x P
    have hlt := Nat.mod_lt x.natAbs (by decide : 0 < (P : ℤ).natAbs)
    omega

theorem modp_nonneg (x : ℤ) :
  0 ≤ modp x
  := by
  rw [modp_eq_emod]
  apply Int.emod_nonneg
  decide

theorem modp_lt (x : ℤ) :
  modp x < P
  := by
  rw [modp_eq_emod]
  apply Int.emod_lt_of_pos
  decide

/-- An integer in `[0, P)` is its representative. -/
theorem modp_of_lt {x : ℤ} (h : 0 ≤ x ∧ x < P) :
  modp x = x
  := by
  rw [modp_eq_emod, Int.emod_eq_of_lt h.1 h.2]

@[simp]
theorem cast_modp (x : ℤ) :
  ((modp x : ℤ) : ZMod P) = x
  := by
  rw [modp_eq_emod, ZMod.intCast_mod]

/-- Integers in `[0, P)` that stand for the same field element are equal. -/
theorem eq_of_cast_eq {x y : ℤ} (hx : 0 ≤ x ∧ x < P) (hy : 0 ≤ y ∧ y < P)
    (h : (x : ZMod P) = y) :
  x = y
  := by
  rw [← modp_of_lt hx, ← modp_of_lt hy, modp_eq_emod, modp_eq_emod]
  apply (ZMod.intCast_eq_intCast_iff' x y P).mp h

/-- The loop of the extended Euclidean algorithm keeps what its coefficients say about the
remainders, and ends with the greatest common divisor. -/
theorem cast_modinvLoop {a : ZMod P} {oldR r oldS s : ℤ} (hold : (oldS : ZMod P) * a = oldR)
    (hnew : (s : ZMod P) * a = r) (holdR : 0 ≤ oldR) (hr : 0 ≤ r) :
  (modinvLoop oldR r oldS s : ZMod P) * a = (Int.gcd oldR r : ℕ)
  := by
  fun_induction modinvLoop oldR r oldS s with
  | case1 oldR oldS s =>
      rw [hold, Int.gcd_zero_right]
      conv_lhs => rw [← Int.natAbs_of_nonneg holdR]
      rw [Int.cast_natCast]
  | case2 oldR r oldS s hne q ih =>
      have hmod : oldR - q * r = oldR % r := by
        rw [← Int.tmod_eq_emod_of_nonneg holdR, Int.tmod_def, mul_comm]
      rw [ih hnew _ hr _]
      · rw [hmod, Int.gcd_comm, Int.gcd_emod]
      · push_cast
        rw [sub_mul, hold, mul_assoc, hnew]
      · rw [hmod]
        apply Int.emod_nonneg _ hne

/-- The inverse is the one of the field. -/
theorem cast_modinv {a : ℤ} (h : (a : ZMod P) ≠ 0) :
  ((modinv a : ℤ) : ZMod P) = (a : ZMod P)⁻¹
  := by
  have hgcd : Int.gcd (modp a) P = 1 := by
    apply Int.isCoprime_iff_gcd_eq_one.mp
    apply IsCoprime.symm
    rw [(Nat.prime_iff_prime_int.mp P_prime).coprime_iff_not_dvd,
      ← ZMod.intCast_zmod_eq_zero_iff_dvd, cast_modp]
    exact h
  rw [modinv, cast_modp]
  apply eq_inv_of_mul_eq_one_left
  rw [cast_modinvLoop _ _ (modp_nonneg a) (Int.natCast_nonneg P), hgcd, Nat.cast_one]
  · rw [Int.cast_one, one_mul, cast_modp]
  · simp

/-! ### Recovering the secret -/

theorem evaluate_nonneg_lt (coeffs : List ℤ) (x : ℤ) :
  0 ≤ evaluate coeffs x ∧ evaluate coeffs x < P
  := by
  cases coeffs with
  | nil => exact ⟨le_refl 0, Int.natCast_pos.mpr P_prime.pos⟩
  | cons c coeffs => exact ⟨modp_nonneg _, modp_lt _⟩

/-- The value of a polynomial is that of the polynomial over the field. -/
theorem cast_evaluate (coeffs : List ℤ) (x : ℤ) :
  ((evaluate coeffs x : ℤ) : ZMod P) = horner (coeffs.map fun c : ℤ => (c : ZMod P)) x
  := by
  induction coeffs with
  | nil => simp [evaluate]
  | cons c coeffs ih =>
      rw [List.map_cons, horner_cons, ← ih]
      simp [evaluate]

/-- A product over all indices but one, as a list of factors. -/
theorem prod_map_finRange {n : ℕ} (i : Fin n) (f : Fin n → ZMod P) :
  ((List.finRange n).map fun j => if i = j then 1 else f j).prod
    = ∏ j ∈ Finset.univ.erase i, f j
  := by
  have herase : ∏ j ∈ Finset.univ.erase i, (if i = j then 1 else f j)
      = ∏ j, if i = j then 1 else f j := by
    apply Finset.prod_erase
    rw [if_pos rfl]
  rw [← Fin.prod_univ_def, ← herase]
  apply Finset.prod_congr rfl
  intro j hj
  rw [if_neg (Finset.ne_of_mem_erase hj).symm]

/-- The shares of a list are taken into the products one by one. -/
theorem cast_foldl_multiply (shares : List Share) (i : Fin shares.length)
    (indices : List (Fin shares.length)) (w : ℤ × ℤ) :
  (((indices.foldl (multiply shares i) w).1 : ℤ) : ZMod P)
      = w.1 * (indices.map fun j => if i = j then 1 else -(((shares.get j).x : ℤ) : ZMod P)).prod
    ∧ (((indices.foldl (multiply shares i) w).2 : ℤ) : ZMod P)
      = w.2 * (indices.map fun j =>
          if i = j then 1 else (((shares.get i).x : ℤ) : ZMod P) - ((shares.get j).x : ℤ)).prod
  := by
  induction indices generalizing w with
  | nil => simp
  | cons j indices ih =>
      obtain ⟨hnum, hden⟩ := ih (multiply shares i w j)
      rw [List.foldl_cons, List.map_cons, List.map_cons, List.prod_cons, List.prod_cons, hnum, hden,
        multiply]
      by_cases hij : i = j
      · simp only [if_pos hij, one_mul, and_self]
      · simp only [if_neg hij]
        push_cast [cast_modp, List.get_eq_getElem, Fin.getElem_fin]
        constructor <;> ring

/-- The products of a weight are those over the other shares. -/
theorem cast_weight (shares : List Share) (i : Fin shares.length) :
  (((weight shares i).1 : ℤ) : ZMod P)
      = ∏ j ∈ Finset.univ.erase i, -(((shares.get j).x : ℤ) : ZMod P)
    ∧ (((weight shares i).2 : ℤ) : ZMod P)
      = ∏ j ∈ Finset.univ.erase i, ((((shares.get i).x : ℤ) : ZMod P) - ((shares.get j).x : ℤ))
  := by
  obtain ⟨hnum, hden⟩ := cast_foldl_multiply shares i (List.finRange shares.length) (1, 1)
  rw [Int.cast_one, one_mul, prod_map_finRange] at hnum hden
  exact ⟨hnum, hden⟩

/-- The term of a share in the sum that interpolates. -/
theorem cast_addWeighted {shares : List Share}
    (h : Function.Injective fun i : Fin shares.length => (((shares.get i).x : ℤ) : ZMod P))
    (secret : ℤ) (i : Fin shares.length) :
  ((addWeighted shares secret i : ℤ) : ZMod P)
    = secret + (((shares.get i).y : ℤ) : ZMod P)
      * ((∏ j ∈ Finset.univ.erase i, -(((shares.get j).x : ℤ) : ZMod P))
        * (∏ j ∈ Finset.univ.erase i,
          ((((shares.get i).x : ℤ) : ZMod P) - ((shares.get j).x : ℤ)))⁻¹)
  := by
  obtain ⟨hnum, hden⟩ := cast_weight shares i
  have hne : (((weight shares i).2 : ℤ) : ZMod P) ≠ 0 := by
    rw [hden, Finset.prod_ne_zero_iff]
    intro j hj
    rw [sub_ne_zero]
    intro heq
    apply Finset.ne_of_mem_erase hj
    apply h heq.symm
  rw [addWeighted]
  push_cast [cast_modp]
  rw [cast_modinv hne, hnum, hden]
  rfl

/-- What is put together is the interpolated value at zero. -/
theorem cast_shamirReconstruct {shares : List Share}
    (h : Function.Injective fun i : Fin shares.length => (((shares.get i).x : ℤ) : ZMod P)) :
  ((shamirReconstruct shares : ℤ) : ZMod P)
    = interpolate (fun i : Fin shares.length => (((shares.get i).x : ℤ) : ZMod P))
      fun i => (((shares.get i).y : ℤ) : ZMod P)
  := by
  have hfold : ∀ (indices : List (Fin shares.length)) (secret : ℤ),
      ((indices.foldl (addWeighted shares) secret : ℤ) : ZMod P)
        = secret + (indices.map fun i => (((shares.get i).y : ℤ) : ZMod P)
          * ((∏ j ∈ Finset.univ.erase i, -(((shares.get j).x : ℤ) : ZMod P))
            * (∏ j ∈ Finset.univ.erase i,
              ((((shares.get i).x : ℤ) : ZMod P) - ((shares.get j).x : ℤ)))⁻¹)).sum := by
    intro indices
    induction indices with
    | nil => simp
    | cons i indices ih =>
        intro secret
        rw [List.foldl_cons, ih, cast_addWeighted h, List.map_cons, List.sum_cons, add_assoc]
  rw [shamirReconstruct, hfold, Int.cast_zero, zero_add, interpolate, Fin.sum_univ_def]

/-- The result is in `[0, P)`. -/
theorem shamirReconstruct_nonneg_lt (shares : List Share) :
  0 ≤ shamirReconstruct shares ∧ shamirReconstruct shares < P
  := by
  have hfold : ∀ (indices : List (Fin shares.length)) (secret : ℤ), 0 ≤ secret ∧ secret < P →
      0 ≤ indices.foldl (addWeighted shares) secret
        ∧ indices.foldl (addWeighted shares) secret < P := by
    intro indices
    induction indices with
    | nil => exact fun secret h => h
    | cons i indices ih =>
        intro secret _
        apply ih _ ⟨modp_nonneg _, modp_lt _⟩
  apply hfold _ 0 ⟨le_refl 0, Int.natCast_pos.mpr P_prime.pos⟩

theorem mem_sharesOf {coeffs : List ℤ} {total : ℕ} {s : Share} :
  s ∈ sharesOf coeffs total ↔ ∃ i < total, (⟨i + 1, evaluate coeffs (i + 1)⟩ : Share) = s
  := by
  simp [sharesOf]

theorem length_sharesOf (coeffs : List ℤ) (total : ℕ) :
  (sharesOf coeffs total).length = total
  := by
  rw [sharesOf, List.length_map, List.length_range]

/-- The shares of a polynomial are at different points. -/
theorem nodup_sharesOf (coeffs : List ℤ) (total : ℕ) :
  ((sharesOf coeffs total).map Share.x).Nodup
  := by
  rw [sharesOf, List.map_map]
  apply List.Nodup.map _ List.nodup_range
  intro i j hij
  have hx : (i : ℤ) + 1 = j + 1 := hij
  omega

/-- Different points in range are different in the field. -/
theorem eq_of_cast_point_eq {i j total : ℕ} (htotal : total < P) (hi : i < total) (hj : j < total)
    (h : ((((i : ℤ) + 1) : ℤ) : ZMod P) = (((j : ℤ) + 1) : ℤ)) :
  i = j
  := by
  have heq := eq_of_cast_eq ⟨by omega, by omega⟩ ⟨by omega, by omega⟩ h
  omega

/-- Shares of a polynomial at different points, as many as it has coefficients or more, recover
its constant coefficient. -/
theorem shamirReconstruct_sharesOf {secret : ℤ} (hsecret : 0 ≤ secret ∧ secret < P)
    {coeffs : List ℤ} {total : ℕ} (htotal : total < P) {l : List Share}
    (hl : ∀ s ∈ l, s ∈ sharesOf (secret :: coeffs) total) (hnodup : (l.map Share.x).Nodup)
    (hlen : coeffs.length < l.length) :
  shamirReconstruct l = secret
  := by
  have hshare : ∀ i : Fin l.length, ∃ k < total,
      (⟨k + 1, evaluate (secret :: coeffs) (k + 1)⟩ : Share) = (l.get i) :=
    fun i => mem_sharesOf.mp (hl _ (List.getElem_mem _))
  have hinj : Function.Injective fun i : Fin l.length => (((l.get i).x : ℤ) : ZMod P) := by
    intro i j hij
    obtain ⟨k, hk, hki⟩ := hshare i
    obtain ⟨k', hk', hkj⟩ := hshare j
    have hx : (l.get i).x = (l.get j).x := by
      simp only [← hki, ← hkj] at hij ⊢
      rw [eq_of_cast_point_eq htotal hk hk' hij]
    apply (List.Nodup.of_map _ hnodup).get_inj_iff.mp
    exact List.inj_on_of_nodup_map hnodup (List.getElem_mem _) (List.getElem_mem _) hx
  have hvalue : (fun i : Fin l.length => (((l.get i).y : ℤ) : ZMod P))
      = fun i => horner ((secret :: coeffs).map fun c : ℤ => (c : ZMod P)) ((l.get i).x : ℤ) := by
    funext i
    obtain ⟨k, -, hk⟩ := hshare i
    rw [← cast_evaluate, ← hk]
  apply eq_of_cast_eq (shamirReconstruct_nonneg_lt l) hsecret
  rw [cast_shamirReconstruct hinj, hvalue, interpolate_horner hinj, List.map_cons, horner_zero]
  rw [List.length_map, List.length_cons]
  exact hlen

/-! ### Random coefficients -/

theorem length_randomCoefficients {draw : List Word → Option (ℤ × List Word)} {n : ℕ}
    {draws rest : List Word} {cs : List ℤ}
    (h : randomCoefficients draw n draws = some (cs, rest)) :
  cs.length = n
  := by
  induction n generalizing draws cs with
  | zero =>
      cases h
      rfl
  | succ n ih =>
      obtain ⟨⟨c, draws'⟩, -, h⟩ := Option.bind_eq_some_iff.mp h
      obtain ⟨⟨cs', draws''⟩, hcs, h⟩ := Option.bind_eq_some_iff.mp h
      cases h
      rw [List.length_cons, ih hcs]

/-- One of the draws is accepted if any is acceptable, and at most one of these is used. -/
theorem exists_randomFieldElement {draws : List Word}
    (h : 0 < draws.countP fun raw => raw.toNat < rejectionLimit) :
  ∃ c rest, randomFieldElement draws = some (c, rest)
    ∧ draws.countP (fun raw => raw.toNat < rejectionLimit)
      = rest.countP (fun raw => raw.toNat < rejectionLimit) + 1
  := by
  induction draws with
  | nil => contradiction
  | cons raw draws ih =>
      rw [List.countP_cons] at h ⊢
      by_cases hraw : rejectionLimit ≤ raw.toNat
      · have hdecide : decide (raw.toNat < rejectionLimit) = false :=
          decide_eq_false (Nat.not_lt.mpr hraw)
        simp only [hdecide, Bool.false_eq_true, if_false, Nat.add_zero] at h ⊢
        rw [randomFieldElement, if_pos hraw]
        exact ih h
      · have hdecide : decide (raw.toNat < rejectionLimit) = true :=
          decide_eq_true (Nat.lt_of_not_le hraw)
        rw [randomFieldElement, if_neg hraw]
        refine ⟨_, _, rfl, ?_⟩
        rw [if_pos hdecide]

theorem exists_randomCoefficients {n : ℕ} {draws : List Word}
    (h : n ≤ draws.countP fun raw => raw.toNat < rejectionLimit) :
  ∃ cs rest, randomCoefficients randomFieldElement n draws = some (cs, rest)
  := by
  induction n generalizing draws with
  | zero => exact ⟨[], draws, rfl⟩
  | succ n ih =>
      obtain ⟨c, rest, hc, hcount⟩ := exists_randomFieldElement (Nat.zero_lt_of_lt h)
      have hrest : n ≤ rest.countP fun raw => raw.toNat < rejectionLimit := by omega
      obtain ⟨cs, rest', hcs⟩ := ih hrest
      refine ⟨c :: cs, rest', ?_⟩
      rw [randomCoefficients, hc, Option.bind_eq_bind, Option.bind_some]
      dsimp only
      rw [hcs]
      rfl

/-- A split with enough acceptable draws gives as many shares as it was asked for, at different
points. -/
theorem shamirSplit_succeeds (secret : ℤ) {threshold total : ℕ} (hthreshold : 2 ≤ threshold)
    (hle : threshold ≤ total) {draws : List Word}
    (hdraws : threshold - 1 ≤ draws.countP fun raw => raw.toNat < rejectionLimit) :
  ∃ shares rest, shamirSplit secret threshold total draws = .ok (some (shares, rest))
    ∧ shares.length = total ∧ (shares.map Share.x).Nodup
  := by
  obtain ⟨cs, rest, hcs⟩ := exists_randomCoefficients hdraws
  refine ⟨sharesOf (modp secret :: cs) total, rest, ?_, length_sharesOf _ _, nodup_sharesOf _ _⟩
  rw [shamirSplit, if_neg (by omega), hcs]
  rfl

/-- An accepted split has as many random coefficients as the threshold says, less one. -/
theorem shamirSplit_ok {secret : ℤ} {threshold total : ℕ} {draws rest : List Word}
    {shares : List Share} (h : shamirSplit secret threshold total draws = .ok (some (shares, rest))) :
  2 ≤ threshold ∧ threshold ≤ total ∧ ∃ cs, cs.length = threshold - 1
    ∧ shares = sharesOf (modp secret :: cs) total
  := by
  rw [shamirSplit] at h
  split at h
  · cases h
  · next hthreshold =>
      obtain ⟨⟨cs, draws'⟩, hcs, h⟩ := Option.bind_eq_some_iff.mp (Except.ok.inj h)
      cases h
      exact ⟨by omega, by omega, cs, length_randomCoefficients hcs, rfl⟩

theorem Client.shamirSplit_some {secret : ℤ} {threshold total : ℕ} {draws rest : List Word}
    {shares : List Share} (h : Client.shamirSplit secret threshold total draws = some (shares, rest)) :
  ∃ cs, cs.length = threshold - 1 ∧ shares = sharesOf (modp secret :: cs) total
  := by
  obtain ⟨⟨cs, draws'⟩, hcs, h⟩ := Option.bind_eq_some_iff.mp h
  cases h
  exact ⟨cs, length_randomCoefficients hcs, rfl⟩

/-- Shares at different points, as many as the threshold says or more and in any order, recover
the secret, whether the library of the committee or that of the client has split it, and
whatever the random draws were. -/
theorem shamirReconstruct_shamirSplit {secret : ℤ} (hsecret : 0 ≤ secret ∧ secret < P)
    {threshold total : ℕ} (hthreshold : 2 ≤ threshold) (htotal : total < P)
    {draws rest : List Word} {shares : List Share}
    (h : shamirSplit secret threshold total draws = .ok (some (shares, rest))
      ∨ Client.shamirSplit secret threshold total draws = some (shares, rest))
    {l : List Share} (hl : ∀ s ∈ l, s ∈ shares) (hnodup : (l.map Share.x).Nodup)
    (hlen : threshold ≤ l.length) :
  shamirReconstruct l = secret
  := by
  have hsplit : ∃ cs, cs.length = threshold - 1 ∧ shares = sharesOf (modp secret :: cs) total := by
    rcases h with h | h
    · exact (shamirSplit_ok h).2.2
    · apply Client.shamirSplit_some h
  obtain ⟨cs, hcs, rfl⟩ := hsplit
  rw [modp_of_lt hsecret] at hl
  apply shamirReconstruct_sharesOf hsecret htotal hl hnodup
  omega

/-- The last and the first of three shares, of which two recover the secret. -/
theorem shamirReconstruct_shamirSplit_two_of_three :
  shamirReconstruct [⟨3, 22⟩, ⟨1, 12⟩] = 7
  := by
  have hsplit : shamirSplit 7 2 3 [5] = .ok (some ([⟨1, 12⟩, ⟨2, 17⟩, ⟨3, 22⟩], [])) := rfl
  apply shamirReconstruct_shamirSplit ⟨by decide, by decide⟩ (le_refl 2) (by decide)
    (Or.inl hsplit)
  · decide
  · decide
  · decide

end Shade.Committee
