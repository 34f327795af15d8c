import Shade.Property.Sharing

/-!
# What few shares say about an amount

Fewer shares than the threshold says are distributed independently of the secret. For any two
secrets there is a polynomial without constant term by which the shares of the one become those
of the other. Adding its coefficients permutes the vectors of coefficients. It also permutes the
draws of random bytes from which the coefficients are made, and leaves alone those that are
rejected.
-/

namespace Shade.Committee

open Sharing Sampling

/-! ### Moving coefficients -/

/-- Add a field element to a coefficient. -/
def shift (c : ℤ) (d : ZMod P) : ℤ := (c + d.val) % P

theorem shift_nonneg (c : ℤ) (d : ZMod P) :
  0 ≤ shift c d
  := by
  apply Int.emod_nonneg
  decide

@[simp]
theorem cast_shift (c : ℤ) (d : ZMod P) :
  ((shift c d : ℤ) : ZMod P) = c + d
  := by
  rw [shift, ZMod.intCast_mod, Int.cast_add, Int.cast_natCast, ZMod.natCast_zmod_val]

theorem map_zipWith_shift (cs : List ℤ) (ds : List (ZMod P)) :
  (List.zipWith shift cs ds).map (fun c : ℤ => (c : ZMod P))
    = List.zipWith (· + ·) (cs.map fun c : ℤ => (c : ZMod P)) ds
  := by
  induction cs generalizing ds with
  | nil => simp
  | cons c cs ih =>
      cases ds with
      | nil => simp
      | cons d ds => simp [ih]

/-- The shares of one secret are those of another where the coefficients have been moved by a
polynomial that makes up for the difference. -/
theorem evaluate_shift {secret secret' : ℤ} {cs : List ℤ} {ds : List (ZMod P)}
    (hlen : cs.length = ds.length) {x : ℤ}
    (h : horner (0 :: ds) (x : ZMod P) = secret - secret') :
  evaluate (modp secret' :: List.zipWith shift cs ds) x = evaluate (modp secret :: cs) x
  := by
  apply eq_of_cast_eq (evaluate_nonneg_lt _ x) (evaluate_nonneg_lt _ x)
  rw [horner_cons, add_zero] at h
  rw [cast_evaluate, cast_evaluate, List.map_cons, List.map_cons, horner_cons, horner_cons,
    map_zipWith_shift, horner_zipWith_add (by rw [List.length_map, hlen]), add_mul, h, cast_modp,
    cast_modp]
  ring

/-- For any two secrets and fewer shares than the threshold says, some polynomial makes up for
the difference at all of them. -/
theorem exists_shift {threshold total : ℕ} (htotal : total < P) {idx : Finset (Fin total)}
    (hidx : idx.card < threshold) (secret secret' : ℤ) :
  ∃ ds : Fin (threshold - 1) → ZMod P, ∀ i ∈ idx,
    horner (0 :: List.ofFn ds) ((((i : ℕ) : ℤ) + 1 : ℤ) : ZMod P) = secret - secret'
  := by
  have hzero : (0 : ZMod P) ∉ idx.image fun i : Fin total => ((((i : ℕ) : ℤ) + 1 : ℤ) : ZMod P) := by
    rw [Finset.mem_image]
    rintro ⟨i, -, hi⟩
    have hi' := i.isLt
    have heq : ((i : ℕ) : ℤ) + 1 = 0 := by
      apply eq_of_cast_eq ⟨by omega, by omega⟩ ⟨le_refl 0, Int.natCast_pos.mpr P_prime.pos⟩
      rw [hi, Int.cast_zero]
    omega
  have hcard : (idx.image fun i : Fin total => ((((i : ℕ) : ℤ) + 1 : ℤ) : ZMod P)).card
      ≤ threshold - 1 := by
    have hle := Finset.card_image_le (s := idx)
      (f := fun i : Fin total => ((((i : ℕ) : ℤ) + 1 : ℤ) : ZMod P))
    omega
  obtain ⟨ds, hds, h⟩ := exists_horner_eq hzero (fun _ => (secret : ZMod P) - secret') hcard
  use fun j => ds.get (j.cast hds.symm)
  have hofFn : List.ofFn (fun j => ds.get (Fin.cast hds.symm j)) = ds := by
    apply List.ext_get
    · rw [List.length_ofFn, hds]
    · intro j hj hj'
      simp
  rw [hofFn]
  intro i hi
  apply h
  apply Finset.mem_image_of_mem _ hi

theorem getElem?_sharesOf {coeffs : List ℤ} {total : ℕ} (i : Fin total) :
  (sharesOf coeffs total)[(i : ℕ)]? = some ⟨(i : ℕ) + 1, evaluate coeffs ((i : ℕ) + 1)⟩
  := by
  simp [sharesOf]

/-! ### Counting coefficients -/

/-- The vectors of coefficients that give the shares of a secret at some indices. -/
def coefficientsGiving (secret : ℤ) (m : ℕ) {total : ℕ} (idx : Finset (Fin total))
    (y : Fin total → Share) : Set (Fin m → Fin P) :=
  { cs | ∀ i ∈ idx,
    (sharesOf (modp secret :: List.ofFn fun j => ((cs j : ℕ) : ℤ)) total)[(i : ℕ)]? = some (y i) }

/-- Move each coefficient of a vector. -/
def moveBy {m : ℕ} (ds : Fin m → ZMod P) : (Fin m → Fin P) ≃ (Fin m → Fin P) :=
  Equiv.addRight fun j => ⟨(ds j).val, ZMod.val_lt (ds j)⟩

theorem ofFn_moveBy {m : ℕ} (ds : Fin m → ZMod P) (cs : Fin m → Fin P) :
  (List.ofFn fun j => ((moveBy ds cs j : ℕ) : ℤ))
    = List.zipWith shift (List.ofFn fun j => ((cs j : ℕ) : ℤ)) (List.ofFn ds)
  := by
  apply List.ext_getElem
  · simp
  · intro j hj hj'
    simp [moveBy, shift, Fin.val_add]

/-- As many vectors of coefficients give the same few shares, whatever the secret is. -/
theorem card_coefficientsGiving {threshold total : ℕ} (htotal : total < P)
    {idx : Finset (Fin total)} (hidx : idx.card < threshold) (y : Fin total → Share)
    (secret secret' : ℤ) :
  Nat.card (coefficientsGiving secret (threshold - 1) idx y)
    = Nat.card (coefficientsGiving secret' (threshold - 1) idx y)
  := by
  obtain ⟨ds, h⟩ := exists_shift htotal hidx secret secret'
  apply Nat.card_congr
  apply (moveBy ds).subtypeEquiv
  intro cs
  apply forall₂_congr
  intro i hi
  rw [getElem?_sharesOf, getElem?_sharesOf, ofFn_moveBy, evaluate_shift (by simp) (h i hi)]

/-! ### Distribution -/

/-- Move the coefficient that is made from a draw. A draw that is rejected stays. -/
def moveRaw (d : ZMod P) (raw : Word) : Word :=
  if rejectionLimit ≤ raw.toNat then raw else BitVec.ofNat 256 (rotate P d.val raw.toNat)

theorem toNat_moveRaw_of_lt (d : ZMod P) {raw : Word} (h : raw.toNat < rejectionLimit) :
  (moveRaw d raw).toNat = rotate P d.val raw.toNat
  := by
  have hlt : rotate P d.val raw.toNat < rejectionLimit := by
    rw [rejectionLimit, rotate_lt P_prime.pos]
    exact h
  have hlimit : rejectionLimit ≤ 2 ^ 256 := Nat.div_mul_le_self _ P
  rw [moveRaw, if_neg (Nat.not_le.mpr h), BitVec.toNat_ofNat, Nat.mod_eq_of_lt (by omega)]

/-- The same draws are rejected as before. -/
theorem rejected_moveRaw (d : ZMod P) (raw : Word) :
  rejectionLimit ≤ (moveRaw d raw).toNat ↔ rejectionLimit ≤ raw.toNat
  := by
  by_cases h : rejectionLimit ≤ raw.toNat
  · rw [moveRaw, if_pos h]
  · rw [toNat_moveRaw_of_lt d (Nat.not_le.mp h), ← not_lt, ← not_lt]
    apply not_congr
    apply rotate_lt P_prime.pos

theorem moveRaw_injective (d : ZMod P) :
  Function.Injective (moveRaw d)
  := by
  intro raw raw' heq
  by_cases h : rejectionLimit ≤ raw.toNat
  · have h' : rejectionLimit ≤ raw'.toNat := by
      rw [← rejected_moveRaw d, ← heq, rejected_moveRaw]
      exact h
    rw [moveRaw, moveRaw, if_pos h, if_pos h'] at heq
    exact heq
  · have h' : ¬ rejectionLimit ≤ raw'.toNat := by
      rw [← rejected_moveRaw d, ← heq, rejected_moveRaw]
      exact h
    apply BitVec.eq_of_toNat_eq
    apply rotate_injective P_prime.pos d.val
    rw [← toNat_moveRaw_of_lt d (Nat.not_le.mp h), ← toNat_moveRaw_of_lt d (Nat.not_le.mp h'), heq]

/-- The permutation for the first of the coefficients that are still to be drawn. -/
noncomputable def moveDraw : List (ZMod P) → Equiv.Perm Word
  | [] => Equiv.refl Word
  | d :: _ => Equiv.ofBijective (moveRaw d) (Finite.injective_iff_bijective.mp (moveRaw_injective d))

/-- A draw that is not rejected makes a coefficient. -/
def stillToDraw (ds : List (ZMod P)) (raw : Word) : List (ZMod P) :=
  if rejectionLimit ≤ raw.toNat then ds else ds.tail

theorem randomFieldElement_transform (d : ZMod P) (ds : List (ZMod P)) (draws : List Word) :
  randomFieldElement (transform moveDraw stillToDraw (d :: ds) draws)
    = (randomFieldElement draws).map fun (c, rest) =>
        (shift c d, transform moveDraw stillToDraw ds rest)
  := by
  induction draws with
  | nil => rfl
  | cons raw draws ih =>
      change randomFieldElement (moveRaw d raw :: _) = _
      rw [randomFieldElement, randomFieldElement]
      by_cases h : rejectionLimit ≤ raw.toNat
      · rw [if_pos h, if_pos ((rejected_moveRaw d raw).mpr h), stillToDraw, if_pos h, ih]
      · rw [if_neg h, if_neg (mt (rejected_moveRaw d raw).mp h), stillToDraw, if_neg h,
          toNat_moveRaw_of_lt d (Nat.not_le.mp h), rotate_mod, Option.map_some]
        simp [shift, Int.natCast_emod, Nat.cast_add]

/-- The coefficients made from the transformed draws are the ones that have been moved. -/
theorem randomCoefficients_transform (ds : List (ZMod P)) (draws : List Word) :
  randomCoefficients randomFieldElement ds.length (transform moveDraw stillToDraw ds draws)
    = (randomCoefficients randomFieldElement ds.length draws).map fun (cs, rest) =>
        (List.zipWith shift cs ds, transform moveDraw stillToDraw [] rest)
  := by
  induction ds generalizing draws with
  | nil => rfl
  | cons d ds ih =>
      rw [List.length_cons, randomCoefficients, randomFieldElement_transform]
      cases h : randomFieldElement draws with
      | none => simp [randomCoefficients, h]
      | some res =>
          obtain ⟨c, rest⟩ := res
          simp only [randomCoefficients, h, Option.map_some, Option.bind_eq_bind, Option.bind_some,
            ih]
          cases randomCoefficients randomFieldElement ds.length rest <;> simp

/-- What the holders of the shares at some indices see of a split. -/
def observe (secret : ℤ) (threshold : ℕ) {total : ℕ} (idx : Finset (Fin total))
    (draws : List Word) : Except String (Option (idx → Option Share)) :=
  (shamirSplit secret threshold total draws).map fun res =>
    res.map fun (shares, _) i => shares[(i : ℕ)]?

/-- With the transformed draws, few shares of one secret are those of the other. -/
theorem observe_transform {secret secret' : ℤ} {threshold total : ℕ} {idx : Finset (Fin total)}
    {ds : Fin (threshold - 1) → ZMod P}
    (h : ∀ i ∈ idx, horner (0 :: List.ofFn ds) ((((i : ℕ) : ℤ) + 1 : ℤ) : ZMod P)
      = secret - secret') (draws : List Word) :
  observe secret' threshold idx (transform moveDraw stillToDraw (List.ofFn ds) draws)
    = observe secret threshold idx draws
  := by
  have hcoeffs := randomCoefficients_transform (List.ofFn ds) draws
  rw [List.length_ofFn] at hcoeffs
  rw [observe, observe, shamirSplit, shamirSplit]
  split
  · rfl
  · rw [hcoeffs]
    cases hcs : randomCoefficients randomFieldElement (threshold - 1) draws with
    | none => rfl
    | some res =>
        obtain ⟨cs, rest⟩ := res
        have hlen : cs.length = (List.ofFn ds).length := by
          rw [length_randomCoefficients hcs, List.length_ofFn]
        simp only [Option.map_some, Option.bind_eq_bind, Option.bind_some, Except.map,
          Option.pure_def, Except.ok.injEq, Option.some.injEq]
        funext i
        rw [getElem?_sharesOf, getElem?_sharesOf, evaluate_shift hlen (h i i.2)]

theorem randomFieldElement_nonneg_lt {draws rest : List Word} {c : ℤ}
    (h : randomFieldElement draws = some (c, rest)) :
  0 ≤ c ∧ c < P
  := by
  induction draws with
  | nil => cases h
  | cons raw draws ih =>
      rw [randomFieldElement] at h
      split at h
      · apply ih h
      · cases h
        have hlt := Nat.mod_lt raw.toNat P_prime.pos
        omega

theorem mem_randomCoefficients {m : ℕ} {draws rest : List Word} {cs : List ℤ}
    (h : randomCoefficients randomFieldElement m draws = some (cs, rest)) :
  ∀ c ∈ cs, 0 ≤ c ∧ c < P
  := by
  induction m generalizing draws cs with
  | zero =>
      cases h
      simp
  | succ m ih =>
      obtain ⟨⟨c, draws'⟩, hc, h⟩ := Option.bind_eq_some_iff.mp h
      obtain ⟨⟨cs', draws''⟩, hcs, h⟩ := Option.bind_eq_some_iff.mp h
      cases h
      rw [List.forall_mem_cons]
      exact ⟨randomFieldElement_nonneg_lt hc, ih hcs⟩

/-- Moving coefficients by the difference of two vectors leads to the second one just from the
first. -/
theorem zipWith_shift_eq_iff {m : ℕ} {cs : List ℤ} (hcs : ∀ c ∈ cs, 0 ≤ c ∧ c < P)
    (hlen : cs.length = m) (v v' : Fin m → Fin P) :
  List.zipWith shift cs (List.ofFn fun j => (((v' j : ℕ) : ZMod P) - ((v j : ℕ) : ZMod P)))
      = List.ofFn (fun j => ((v' j : ℕ) : ℤ))
    ↔ cs = List.ofFn fun j => ((v j : ℕ) : ℤ)
  := by
  subst hlen
  have hshift : ∀ j : Fin cs.length,
      shift cs[j] (((v' j : ℕ) : ZMod P) - ((v j : ℕ) : ZMod P)) = (v' j : ℕ)
        ↔ cs[j] = ((v j : ℕ) : ℤ) := by
    intro j
    have hv := (v j).isLt
    have hv' := (v' j).isLt
    constructor
    · intro h
      apply eq_of_cast_eq (hcs _ (List.getElem_mem _)) ⟨by omega, by omega⟩
      have hcast := congrArg (fun c : ℤ => (c : ZMod P)) h
      simp only [cast_shift, Int.cast_natCast] at hcast ⊢
      linear_combination hcast
    · intro h
      apply eq_of_cast_eq ⟨shift_nonneg _ _, Int.emod_lt_of_pos _ (by decide)⟩
        ⟨by omega, by omega⟩
      rw [cast_shift, h, Int.cast_natCast, Int.cast_natCast]
      ring
  constructor
  · intro h
    apply List.ext_getElem (by simp)
    intro j hj hj'
    have hentry := congrArg (fun l => l[j]?) h
    simp only [List.getElem?_zipWith, List.getElem?_ofFn, dif_pos hj] at hentry
    rw [List.getElem_ofFn]
    apply (hshift ⟨j, hj⟩).mp
    simpa [List.getElem?_eq_getElem hj] using hentry
  · intro h
    apply List.ext_getElem (by simp)
    intro j hj hj'
    have hjlt : j < cs.length := by simpa using hj'
    rw [List.getElem_zipWith, List.getElem_ofFn, List.getElem_ofFn]
    apply (hshift ⟨j, hjlt⟩).mpr
    have hentry := congrArg (fun l => l[j]?) h
    simpa [List.getElem?_eq_getElem hjlt, hjlt] using hentry

/-- Any two vectors of coefficients are drawn with the same probability. -/
theorem randomCoefficients_uniform {m : ℕ} (v v' : Fin m → Fin P) (n : ℕ) :
  (draws n).map (fun l => (randomCoefficients randomFieldElement m l).map Prod.fst)
      (some (List.ofFn fun j => ((v j : ℕ) : ℤ)))
    = (draws n).map (fun l => (randomCoefficients randomFieldElement m l).map Prod.fst)
      (some (List.ofFn fun j => ((v' j : ℕ) : ℤ)))
  := by
  let ds : List (ZMod P) := List.ofFn fun j => (((v' j : ℕ) : ZMod P) - ((v j : ℕ) : ZMod P))
  have hmove : ∀ l, some (List.ofFn fun j => ((v' j : ℕ) : ℤ))
        = (randomCoefficients randomFieldElement m (transform moveDraw stillToDraw ds l)).map Prod.fst
      ↔ some (List.ofFn fun j => ((v j : ℕ) : ℤ))
        = (randomCoefficients randomFieldElement m l).map Prod.fst := by
    intro l
    have hcoeffs := randomCoefficients_transform ds l
    rw [List.length_ofFn] at hcoeffs
    rw [hcoeffs]
    cases h : randomCoefficients randomFieldElement m l with
    | none => simp
    | some res =>
        obtain ⟨cs, rest⟩ := res
        have hiff := zipWith_shift_eq_iff (mem_randomCoefficients h) (length_randomCoefficients h)
          v v'
        simp only [Option.map_some, Option.some.injEq]
        rw [eq_comm, eq_comm (b := cs)]
        exact hiff
  have hdraws : (draws n).map (transform moveDraw stillToDraw ds) = draws n :=
    map_transform_draws ds n
  conv_rhs => rw [← hdraws, PMF.map_comp]
  rw [PMF.map_apply, PMF.map_apply]
  apply tsum_congr
  intro l
  by_cases h : some (List.ofFn fun j => ((v j : ℕ) : ℤ))
      = (randomCoefficients randomFieldElement m l).map Prod.fst
  · rw [if_pos h, Function.comp_apply, if_pos ((hmove l).mpr h)]
  · rw [if_neg h, Function.comp_apply, if_neg (mt (hmove l).mp h)]

/-- The draws are too few for a single coefficient with a probability that vanishes with their
number. -/
theorem randomFieldElement_unfinished (n : ℕ) :
  (draws n).map (fun l => (randomFieldElement l).isNone) true
    = ((Finset.univ.filter fun raw : Word => rejectionLimit ≤ raw.toNat).card
        / Fintype.card Word : ENNReal) ^ n
  := by
  have hnone : ∀ l, (randomFieldElement l).isNone
      = l.all fun raw => decide (rejectionLimit ≤ raw.toNat) := by
    intro l
    induction l with
    | nil => rfl
    | cons raw l ih =>
        rw [randomFieldElement, List.all_cons]
        by_cases h : rejectionLimit ≤ raw.toNat
        · rw [if_pos h, ih, decide_eq_true h, Bool.true_and]
        · rw [if_neg h, decide_eq_false h, Bool.false_and]
          rfl
  rw [← map_draws_forall]
  simp only [hnone]

/-- Fewer shares than the threshold says do not depend on the secret. As many vectors of
coefficients give any shares at their indices, whatever the secret is. From random bytes every
vector of coefficients is made with the same probability, and the shares are distributed alike
for any two secrets. -/
theorem shamirSplit_secret {threshold total : ℕ} (htotal : total < P) (secret secret' : ℤ)
    (idx : Finset (Fin total)) (hidx : idx.card < threshold) :
  (∀ y : Fin total → Share,
      Nat.card (coefficientsGiving secret (threshold - 1) idx y)
        = Nat.card (coefficientsGiving secret' (threshold - 1) idx y))
    ∧ (∀ (v v' : Fin (threshold - 1) → Fin P) (n : ℕ),
      (draws n).map
          (fun l => (randomCoefficients randomFieldElement (threshold - 1) l).map Prod.fst)
          (some (List.ofFn fun j => ((v j : ℕ) : ℤ)))
        = (draws n).map
          (fun l => (randomCoefficients randomFieldElement (threshold - 1) l).map Prod.fst)
          (some (List.ofFn fun j => ((v' j : ℕ) : ℤ))))
    ∧ ∀ n, (draws n).map (observe secret threshold idx)
        = (draws n).map (observe secret' threshold idx)
  := by
  refine ⟨fun y => card_coefficientsGiving htotal hidx y secret secret',
    randomCoefficients_uniform, ?_⟩
  intro n
  obtain ⟨ds, h⟩ := exists_shift htotal hidx secret secret'
  exact map_draws_eq (List.ofFn ds) (observe_transform h) n

/-- The first of three shares, of which two recover the secret, is distributed alike for two
secrets when four random numbers are drawn. -/
theorem shamirSplit_secret_first_of_three :
  (draws 4).map (observe 7 2 ({0} : Finset (Fin 3)))
    = (draws 4).map (observe 9 2 ({0} : Finset (Fin 3)))
  := (shamirSplit_secret (by decide) 7 9 {0} (by decide)).2.2 4

end Shade.Committee
