import Shade.Field
import Shade.Library.Lucas

/-!
# Sharing amounts among the committee

How an amount is split into shares for the nodes of the committee and put together again, in
the library of the committee and in the client's. Both compute with integers of any size that
they reduce modulo the order of the scalar field of BN254. Division of integers rounds towards
zero.

Random bytes are a list of draws of 32 bytes each. A computation that needs more draws than the
list has is not finished.
-/

namespace Shade.Committee

/-- The prime modulo which shares are computed. -/
def P : ℕ := 21888242871839275222246405745257275088548364400416034343698204186575808495617

/-- A point of the polynomial whose value at zero is the secret. -/
structure Share where
  x : ℤ
  y : ℤ
deriving DecidableEq

/-- The representative of an integer in `[0, P)`. -/
def modp (x : ℤ) : ℤ := (x.tmod P + P).tmod P

/-- The loop of the extended Euclidean algorithm. -/
def modinvLoop (oldR r oldS s : ℤ) : ℤ :=
  if r = 0 then
    oldS
  else
    let q := oldR.tdiv r
    modinvLoop r (oldR - q * r) s (oldS - q * s)
termination_by r.natAbs
decreasing_by
  have hr : r ≠ 0 := by assumption
  rw [mul_comm, ← Int.tmod_def, Int.natAbs_tmod]
  apply Nat.mod_lt
  exact Int.natAbs_pos.mpr hr

/-- The inverse modulo `P`. -/
def modinv (a : ℤ) : ℤ := modp (modinvLoop (modp a) P 1 0)

/-! ### Splitting -/

/-- The largest multiple of `P` that fits in 256 bits. -/
def rejectionLimit : ℕ := 2 ^ 256 / P * P

/-- Draw until a draw is below the limit, and reduce it. -/
def randomFieldElement : List Word → Option (ℤ × List Word)
  | [] => none
  | raw :: draws =>
      if rejectionLimit ≤ raw.toNat then
        randomFieldElement draws
      else
        some ((raw.toNat % P : ℕ), draws)

/-- A number of coefficients, each of them a random field element. -/
def randomCoefficients (randomFieldElement : List Word → Option (ℤ × List Word)) :
    ℕ → List Word → Option (List ℤ × List Word)
  | 0, draws => some ([], draws)
  | n + 1, draws => do
      let (c, draws) ← randomFieldElement draws
      let (cs, draws) ← randomCoefficients randomFieldElement n draws
      return (c :: cs, draws)

/-- The value of a polynomial, by Horner's rule, reduced after each step. -/
def evaluate (coeffs : List ℤ) (x : ℤ) : ℤ :=
  coeffs.foldr (fun c y => modp (y * x + c)) 0

/-- The shares of a polynomial: its points at `1` to `total`. -/
def sharesOf (coeffs : List ℤ) (total : ℕ) : List Share :=
  (List.range total).map fun i : ℕ => ⟨(i : ℤ) + 1, evaluate coeffs ((i : ℤ) + 1)⟩

/-- Split a secret into a number of shares, of which as many as the threshold says recover it;
returns the draws that are left as well. -/
def shamirSplit (secret : ℤ) (threshold total : ℕ) (draws : List Word) :
    Except String (Option (List Share × List Word)) :=
  if threshold < 2 ∨ threshold > total then
    .error "invalid threshold"
  else
    .ok do
      let (coeffs, draws) ← randomCoefficients randomFieldElement (threshold - 1) draws
      return (sharesOf (modp secret :: coeffs) total, draws)

/-! ### Splitting by the client -/

namespace Client

/-- Draw once and reduce. -/
def randomFieldElement : List Word → Option (ℤ × List Word)
  | [] => none
  | raw :: draws => some (modp raw.toNat, draws)

/-- Split a secret into a number of shares, of which as many as the threshold says recover
it. -/
def shamirSplit (secret : ℤ) (threshold total : ℕ) (draws : List Word) :
    Option (List Share × List Word) := do
  let (coeffs, draws) ← randomCoefficients randomFieldElement (threshold - 1) draws
  return (sharesOf (modp secret :: coeffs) total, draws)

end Client

/-! ### Recovering -/

/-- Take a share into the numerator and the denominator of the weight of another one. -/
def multiply (shares : List Share) (i : Fin shares.length) (weight : ℤ × ℤ)
    (j : Fin shares.length) : ℤ × ℤ :=
  if i = j then
    weight
  else
    (modp (weight.1 * modp (-shares[j].x)), modp (weight.2 * (shares[i].x - shares[j].x)))

/-- The numerator and the denominator of the weight of a share. -/
def weight (shares : List Share) (i : Fin shares.length) : ℤ × ℤ :=
  (List.finRange shares.length).foldl (multiply shares i) (1, 1)

/-- Add the value of a share by its weight. -/
def addWeighted (shares : List Share) (secret : ℤ) (i : Fin shares.length) : ℤ :=
  let (num, den) := weight shares i
  modp (secret + modp (shares[i].y * modp (num * modinv den)))

/-- The value at zero of the polynomial through the shares. -/
def shamirReconstruct (shares : List Share) : ℤ :=
  (List.finRange shares.length).foldl (addWeighted shares) 0

/-! ### The prime -/

theorem prime_405928799 :
  Nat.Prime 405928799
  := by
  apply Lucas.prime_of_factors [(2, 1), (11, 1), (3691, 1), (4999, 1)] 22
  · norm_num
  · simp only [List.forall_mem_cons]
    refine ⟨by norm_num, by norm_num, by norm_num, by norm_num, by simp⟩
  · norm_num
    reduce_mod_char
  · simp only [List.forall_mem_cons]
    norm_num
    refine ⟨?_, ?_, ?_, ?_⟩ <;> reduce_mod_char <;> decide

theorem prime_639533339 :
  Nat.Prime 639533339
  := by
  apply Lucas.prime_of_factors [(2, 1), (229, 1), (853, 1), (1637, 1)] 2
  · norm_num
  · simp only [List.forall_mem_cons]
    refine ⟨by norm_num, by norm_num, by norm_num, by norm_num, by simp⟩
  · norm_num
    reduce_mod_char
  · simp only [List.forall_mem_cons]
    norm_num
    refine ⟨?_, ?_, ?_, ?_⟩ <;> reduce_mod_char <;> decide

theorem prime_12048837557 :
  Nat.Prime 12048837557
  := by
  apply Lucas.prime_of_factors [(2, 2), (7, 2), (661, 1), (93001, 1)] 2
  · norm_num
  · simp only [List.forall_mem_cons]
    refine ⟨by norm_num, by norm_num, by norm_num, by norm_num, by simp⟩
  · norm_num
    reduce_mod_char
  · simp only [List.forall_mem_cons]
    norm_num
    refine ⟨?_, ?_, ?_, ?_⟩ <;> reduce_mod_char <;> decide

theorem prime_5156902474397 :
  Nat.Prime 5156902474397
  := by
  apply Lucas.prime_of_factors [(2, 2), (107, 1), (12048837557, 1)] 2
  · norm_num
  · simp only [List.forall_mem_cons]
    refine ⟨by norm_num, by norm_num, prime_12048837557, by simp⟩
  · norm_num
    reduce_mod_char
  · simp only [List.forall_mem_cons]
    norm_num
    refine ⟨?_, ?_, ?_⟩ <;> reduce_mod_char <;> decide

theorem prime_1670836401704629 :
  Nat.Prime 1670836401704629
  := by
  apply Lucas.prime_of_factors [(2, 2), (3, 4), (5156902474397, 1)] 2
  · norm_num
  · simp only [List.forall_mem_cons]
    refine ⟨by norm_num, by norm_num, prime_5156902474397, by simp⟩
  · norm_num
    reduce_mod_char
  · simp only [List.forall_mem_cons]
    norm_num
    refine ⟨?_, ?_, ?_⟩ <;> reduce_mod_char <;> decide

theorem prime_65865678001877903 :
  Nat.Prime 65865678001877903
  := by
  apply Lucas.prime_of_factors [(2, 1), (83, 1), (379, 1), (1637, 1), (639533339, 1)] 5
  · norm_num
  · simp only [List.forall_mem_cons]
    refine ⟨by norm_num, by norm_num, by norm_num, by norm_num, prime_639533339, by simp⟩
  · norm_num
    reduce_mod_char
  · simp only [List.forall_mem_cons]
    norm_num
    refine ⟨?_, ?_, ?_, ?_, ?_⟩ <;> reduce_mod_char <;> decide

theorem prime_13818364434197438864469338081 :
  Nat.Prime 13818364434197438864469338081
  := by
  apply Lucas.prime_of_factors [(2, 5), (5, 1), (823, 1), (1593227, 1), (65865678001877903, 1)] 3
  · norm_num
  · simp only [List.forall_mem_cons]
    refine ⟨by norm_num, by norm_num, by norm_num, by norm_num, prime_65865678001877903, by simp⟩
  · norm_num
    reduce_mod_char
  · simp only [List.forall_mem_cons]
    norm_num
    refine ⟨?_, ?_, ?_, ?_, ?_⟩ <;> reduce_mod_char <;> decide

theorem P_prime :
  P.Prime
  := by
  rw [P]
  apply Lucas.prime_of_factors
      [(2, 28), (3, 2), (13, 1), (29, 1), (983, 1), (11003, 1), (237073, 1), (405928799, 1),
        (1670836401704629, 1), (13818364434197438864469338081, 1)] 5
  · norm_num
  · simp only [List.forall_mem_cons]
    refine ⟨by norm_num, by norm_num, by norm_num, by norm_num, by norm_num, by norm_num,
      by norm_num, prime_405928799, prime_1670836401704629, prime_13818364434197438864469338081,
      by simp⟩
  · norm_num
    reduce_mod_char
  · simp only [List.forall_mem_cons]
    norm_num
    refine ⟨?_, ?_, ?_, ?_, ?_, ?_, ?_, ?_, ?_, ?_⟩ <;> reduce_mod_char <;> decide

instance : Fact P.Prime := ⟨P_prime⟩

end Shade.Committee
