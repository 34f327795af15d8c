import Shade.Contract.ProofVerifier

/-!
# An ideal pairing

Curve operations on formal sums, for which the proof verifier accepts exactly given signal
vectors: a point of the first group is a list of encoded points with their coefficients,
and the pairing check reads the signals back from the coefficients of the sum the verifier
accumulates. With the vectors that have a satisfying witness given, this is the verifier
that accepts only true statements.
-/

namespace Shade.ProofVerifier

/-- The curve operations on formal sums, with the signal vectors that are accepted for an
encoded `alpha`. -/
def idealBls (accepted : Bytes → List (List Fr)) : Bls (List (Bytes × Fr)) Bytes where
  g1FromArray bytes := [(bytes, 1)]
  g2FromArray bytes := bytes
  g1Neg p := p.map fun e => (e.1, -e.2)
  g1Mul p s := some (p.map fun e => (e.1, e.2 * s))
  g1Add p q := some (p ++ q)
  pairingCheck
    | [_, [(alpha, _)], vkX, _], _ =>
        some (decide (vkX.tail.map Prod.snd ∈ accepted alpha))
    | _, _ => none

variable {accepted : Bytes → List (List Fr)}

/-- Points are read as formal sums of one point. -/
theorem takePoints_ideal {n : ℕ} {bytes : Bytes} {points : List (List (Bytes × Fr))}
    (h : takePoints (idealBls accepted) n bytes = some points) :
  points.length = n ∧ ∀ p ∈ points, ∃ b, p = [(b, 1)]
  := by
  induction n generalizing bytes points with
  | zero =>
      obtain rfl := Option.some.inj h
      simp
  | succ n ih =>
      simp only [takePoints, Option.bind_eq_bind, Option.bind_eq_some_iff, Option.some.injEq] at h
      obtain ⟨⟨b, rest⟩, -, points', hpoints', rfl⟩ := h
      obtain ⟨hlen, hmem⟩ := ih hpoints'
      constructor
      · rw [List.length_cons, hlen]
      · intro p hp
        rcases List.mem_cons.mp hp with rfl | hp
        · use b
          rfl
        · apply hmem p hp

/-- The accumulated sum lists the signals as its coefficients. -/
theorem accumulate_ideal (accepted : Bytes → List (List Fr)) {signals : List Fr}
    {points : List (List (Bytes × Fr))}
    (hlen : signals.length = points.length) (hmem : ∀ p ∈ points, ∃ b, p = [(b, 1)])
    (vkX : List (Bytes × Fr)) :
  ∃ sum, accumulate (idealBls accepted) vkX (signals.zip points) = some (vkX ++ sum)
    ∧ sum.map Prod.snd = signals
  := by
  induction signals generalizing points vkX with
  | nil =>
      use []
      simp [accumulate]
  | cons s signals ih =>
      cases points with
      | nil => simp at hlen
      | cons p points =>
          obtain ⟨b, rfl⟩ := hmem p (by simp)
          have hlen' : signals.length = points.length := by simpa using hlen
          obtain ⟨sum, hsum, hcoeff⟩ := ih hlen' (fun q hq => hmem q (by simp [hq]))
            (vkX ++ [(b, 1 * s)])
          use (b, 1 * s) :: sum
          constructor
          · simpa [accumulate, idealBls] using hsum
          · simp [hcoeff]

/-- The key read with the ideal pairing has a formal `alpha` and formal points. -/
theorem vkFromBytes_ideal {bytes : Bytes} {vk : VerificationKey (List (Bytes × Fr)) Bytes}
    (h : vkFromBytes (idealBls accepted) bytes = some vk) :
  vk.alpha = [(bytes.take 96, 1)] ∧ ∀ p ∈ vk.ic, ∃ b, p = [(b, 1)]
  := by
  simp only [vkFromBytes, Option.bind_eq_bind, Option.bind_eq_some_iff, Option.some.injEq] at h
  obtain ⟨⟨alpha, rest⟩, htake, _, -, _, -, _, -, _, -, ic, hic, rfl⟩ := h
  constructor
  · rw [take] at htake
    split at htake
    · obtain ⟨rfl, -⟩ := Prod.mk.inj (Option.some.inj htake)
      rfl
    · cases htake
  · apply (takePoints_ideal hic).2

/-- The verifier over the ideal pairing accepts only the given signal vectors. -/
theorem verify_ideal {vkBytes proof bytes : Bytes}
    (h : verify (idealBls accepted) (some vkBytes) proof bytes = some true) :
  ∃ signals, parsePublicSignals bytes = some signals
    ∧ signals.map Word.toFr ∈ accepted (vkBytes.take 96)
  := by
  unfold verify at h
  split at h
  · cases h
  · simp only [Option.bind_eq_bind, Option.bind_eq_some_iff] at h
    obtain ⟨vk, hvk, π, -, pubSignals, hpub, h⟩ := h
    rw [publicFromBytes_eq] at hpub
    obtain ⟨signals, hparse, rfl⟩ := Option.map_eq_some_iff.mp hpub
    use signals, hparse
    obtain ⟨halpha, hic⟩ := vkFromBytes_ideal hvk
    split at h
    · cases h
    · next hlen =>
        obtain ⟨ic0, hic0, h⟩ := Option.bind_eq_some_iff.mp h
        obtain ⟨vkX, hvkX, h⟩ := Option.bind_eq_some_iff.mp h
        cases hpoints : vk.ic with
        | nil =>
            rw [hpoints] at hic0
            cases hic0
        | cons p points =>
            rw [hpoints] at hic hic0 hlen hvkX
            obtain rfl := Option.some.inj hic0
            obtain ⟨b, rfl⟩ := hic p (by simp)
            have hlen' : (signals.map Word.toFr).length = points.length := by
              simpa using hlen
            obtain ⟨sum, hsum, hcoeff⟩ := accumulate_ideal accepted hlen'
              (fun q hq => hic q (by simp [hq])) [(b, 1)]
            obtain rfl := Option.some.inj (hsum.symm.trans hvkX)
            rw [halpha] at h
            simpa [idealBls, hcoeff] using h

end Shade.ProofVerifier
