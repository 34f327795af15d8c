import Mathlib

/-!
# Lucas's test

A number is prime if its predecessor, whose prime factors are known, is the order of an
element.
-/

namespace Lucas

/-- A prime that divides a product of powers of primes is one of these primes. -/
theorem mem_of_dvd_prod {q : ℕ} (hq : q.Prime) (factors : List (ℕ × ℕ))
    (hprime : ∀ f ∈ factors, f.1.Prime) (h : q ∣ (factors.map fun f => f.1 ^ f.2).prod) :
  q ∈ factors.map Prod.fst
  := by
  obtain ⟨n, hn, hdvd⟩ := (Prime.dvd_prod_iff hq.prime).mp h
  obtain ⟨f, hf, rfl⟩ := List.mem_map.mp hn
  obtain rfl := (Nat.prime_dvd_prime_iff_eq hq (hprime f hf)).mp (hq.dvd_of_dvd_pow hdvd)
  apply List.mem_map_of_mem hf

/-- Lucas's test, for a factorization of the predecessor into powers of primes. -/
theorem prime_of_factors {p : ℕ} (factors : List (ℕ × ℕ)) (a : ZMod p)
    (hfactors : p - 1 = (factors.map fun f => f.1 ^ f.2).prod)
    (hprime : ∀ f ∈ factors, f.1.Prime) (hone : a ^ (p - 1) = 1)
    (hne : ∀ f ∈ factors, a ^ ((p - 1) / f.1) ≠ 1) :
  p.Prime
  := by
  apply lucas_primality p a hone
  intro q hq hdvd
  rw [hfactors] at hdvd
  obtain ⟨f, hf, rfl⟩ := List.mem_map.mp (mem_of_dvd_prod hq factors hprime hdvd)
  apply hne f hf

end Lucas
