import Shade.Committee.Matcher

/-!
# Matchings across assets

What the loop over all pairs of priced intents achieves. It uses every intent at most once,
gives both parties of a match what they asked for, and goes on until no two unused intents
cross, because it compares every unused intent with every other one.
-/

namespace Shade.Committee

open Text

/-- The intents of a match. -/
def PricedMatch.ids (m : PricedMatch) : List Text := [m.intentAId, m.intentBId]

section

variable {a b : PricedIntent} {m : PricedMatch} {intents : List PricedIntent}

theorem check_ok {p : Prop} [Decidable p] {x : Except String (Option PricedMatch)}
    (h : ∃ r, x = .ok r) :
  ∃ r, (if p then pure none else x) = .ok r
  := by
  by_cases hp : p
  · rw [if_pos hp]
    exact ⟨none, rfl⟩
  · rw [if_neg hp]
    exact h

/-- Two intents are compared without an error if the second one spends something. -/
theorem matchPricedPair_ok (hb : b.amount ≠ 0) :
  ∃ r, matchPricedPair a b = .ok r
  := by
  rw [matchPricedPair]
  apply check_ok
  apply check_ok
  apply check_ok
  apply check_ok
  apply check_ok
  apply check_ok
  rw [divide, if_neg hb]
  apply check_ok
  exact ⟨_, rfl⟩

/-- What the inner loop finds among the intents from an index on: one that is not used, is not
at the index of the given one, and crosses with it; or nothing, when no such intent does. -/
inductive Search (a : PricedIntent) (i : ℕ) (used : List Text) (bs : List PricedIntent) (j : ℕ) :
    Except String (Option (PricedIntent × PricedMatch)) → Prop
  | found (k : ℕ) (b : PricedIntent) (m : PricedMatch) (hb : bs[k]? = some b) (hi : i ≠ j + k)
      (hunused : b.intentId ∉ used) (hm : matchPricedPair a b = .ok (some m)) :
      Search a i used bs j (.ok (some (b, m)))
  | exhausted (h : ∀ k b, bs[k]? = some b → i ≠ j + k → b.intentId ∉ used →
      matchPricedPair a b = .ok none) :
      Search a i used bs j (.ok none)

/-- The search goes on past an intent that does not cross. -/
theorem Search.cons {i j : ℕ} {used : List Text} {bs : List PricedIntent}
    {r : Except String (Option (PricedIntent × PricedMatch))} (h : Search a i used bs (j + 1) r)
    (hhead : i ≠ j → b.intentId ∉ used → matchPricedPair a b = .ok none) :
  Search a i used (b :: bs) j r
  := by
  cases h with
  | found k c m hc hi hunused hm =>
      apply Search.found (k + 1) c m (by simpa using hc) _ hunused hm
      omega
  | exhausted h =>
      apply Search.exhausted
      intro k c hc hi hunused
      cases k with
      | zero =>
          obtain rfl : b = c := by simpa using hc
          apply hhead hi hunused
      | succ k =>
          apply h k c (by simpa using hc) _ hunused
          omega

theorem search_matchAgainst {i : ℕ} {used : List Text} (ha : a.intentId ∉ used)
    (bs : List PricedIntent) (j : ℕ) (hpos : ∀ b ∈ bs, b.amount ≠ 0) :
  Search a i used bs j (matchAgainst a i used bs j)
  := by
  induction bs generalizing j with
  | nil =>
      apply Search.exhausted
      intro k b hb
      simp at hb
  | cons b bs ih =>
      have hrest := ih (j + 1) fun c hc => hpos c (List.mem_cons_of_mem b hc)
      rw [matchAgainst]
      split
      · next hskip =>
          apply hrest.cons
          intro hij hunused
          rcases hskip with hskip | hskip | hskip
          · exact absurd hskip hij
          · exact absurd hskip hunused
          · exact absurd hskip ha
      · next hskip =>
          push Not at hskip
          obtain ⟨r, hr⟩ : ∃ r, matchPricedPair a b = .ok r :=
            matchPricedPair_ok (hpos b List.mem_cons_self)
          rw [hr]
          cases r with
          | some m => exact .found 0 b m rfl hskip.1 hskip.2.1 hr
          | none => apply hrest.cons fun _ _ => hr

/-- How far the outer loop has come when it has dealt with an initial part of the intents: the
matches found are of pairs that cross, and no unused intent of the initial part crosses with
another unused one. -/
structure PricedProgress (intents before : List PricedIntent) (s : Progress PricedMatch) :
    Prop where
  disjoint : s.Disjoint PricedMatch.ids
  crosses : ∀ m ∈ s.found, ∃ a ∈ intents, ∃ b ∈ intents, matchPricedPair a b = .ok (some m)
  maximal : ∀ a ∈ before, a.intentId ∉ s.used → ∀ b ∈ intents, a ≠ b → b.intentId ∉ s.used →
    matchPricedPair a b = .ok none

/-- The next intent is used, by itself or in the match that is found for it. -/
theorem PricedProgress.used {before : List PricedIntent} {s : Progress PricedMatch}
    (hs : PricedProgress intents before s) (ha : a.intentId ∈ s.used) :
  PricedProgress intents (before ++ [a]) s
  := by
  refine ⟨hs.disjoint, hs.crosses, ?_⟩
  intro c hc hunused
  rcases List.mem_append.mp hc with hc | hc
  · apply hs.maximal c hc hunused
  · obtain rfl := List.mem_singleton.mp hc
    exact absurd ha hunused

/-- A match is found for the next intent. -/
theorem PricedProgress.add {before : List PricedIntent} {s : Progress PricedMatch}
    (hs : PricedProgress intents before s) (ha : a ∈ intents) (hb : b ∈ intents)
    (hne : a.intentId ≠ b.intentId) (hunusedA : a.intentId ∉ s.used)
    (hunusedB : b.intentId ∉ s.used) (hm : matchPricedPair a b = .ok (some m)) :
  PricedProgress intents before (s.add a.intentId b.intentId m)
  := by
  obtain ⟨-, -, -, -, -, -, -, hfields⟩ := matchPricedPair_eq_some hm
  refine ⟨hs.disjoint.add hunusedA hunusedB hne ?_, ?_, ?_⟩
  · rw [PricedMatch.ids, hfields]
  · intro m' hm'
    rw [Progress.add_found, List.mem_append, List.mem_singleton] at hm'
    rcases hm' with hm' | rfl
    · apply hs.crosses m' hm'
    · exact ⟨a, ha, b, hb, hm⟩
  · intro c hc hunused d hd hcd hunused'
    rw [Progress.mem_used_add, not_or] at hunused hunused'
    apply hs.maximal c hc hunused.1 d hd hcd hunused'.1

/-- The outer loop deals with all intents. -/
theorem PricedProgress.matchEach {after before : List PricedIntent} {s : Progress PricedMatch}
    (hids : (intents.map PricedIntent.intentId).Nodup) (hpos : ∀ b ∈ intents, b.amount ≠ 0)
    (hs : PricedProgress intents before s) (hintents : intents = before ++ after) :
  ∃ s', matchEach intents after before.length s = .ok s' ∧ PricedProgress intents intents s'
  := by
  induction after generalizing before s with
  | nil =>
      rw [List.append_nil] at hintents
      subst hintents
      exact ⟨s, rfl, hs⟩
  | cons a after ih =>
      have hsplit : intents = (before ++ [a]) ++ after := by
        rw [hintents, List.append_assoc, List.singleton_append]
      have hlength : before.length + 1 = (before ++ [a]).length := by simp
      have hindex : intents[before.length]? = some a := by simp [hintents]
      have hmem : a ∈ intents := List.mem_of_getElem? hindex
      rw [Committee.matchEach]
      split
      · next hused =>
          rw [hlength]
          apply ih (hs.used hused) hsplit
      · next hunused =>
          have hsearch : Search a before.length s.used intents 0
            (matchAgainst a before.length s.used intents 0) :=
            search_matchAgainst hunused intents 0 hpos
          generalize matchAgainst a before.length s.used intents 0 = r at hsearch
          cases hsearch with
          | found k b m hb hi hunusedB hm =>
              have hmemB : b ∈ intents := List.mem_of_getElem? hb
              have hne : a.intentId ≠ b.intentId := by
                intro heq
                obtain rfl := List.inj_on_of_nodup_map hids hmem hmemB heq
                obtain ⟨hlt, -⟩ := List.getElem?_eq_some_iff.mp hindex
                have hk := (List.getElem?_inj hlt (List.Nodup.of_map _ hids)).mp
                  (hindex.trans hb.symm)
                omega
              have hs' := (hs.add hmem hmemB hne hunused hunusedB hm).used (a := a)
                (Progress.mem_used_add.mpr (.inr (.inl rfl)))
              change ∃ s', Committee.matchEach intents after (before.length + 1) _ = _ ∧ _
              rw [hlength]
              apply ih hs' hsplit
          | exhausted hnone =>
              have hs' : PricedProgress intents (before ++ [a]) s := by
                refine ⟨hs.disjoint, hs.crosses, ?_⟩
                intro c hc hunusedC d hd hcd hunusedD
                rcases List.mem_append.mp hc with hc | hc
                · apply hs.maximal c hc hunusedC d hd hcd hunusedD
                · obtain rfl := List.mem_singleton.mp hc
                  obtain ⟨k, hk⟩ := List.mem_iff_getElem?.mp hd
                  apply hnone k d hk _ hunusedD
                  rintro hk'
                  rw [Nat.zero_add] at hk'
                  rw [← hk', hindex] at hk
                  apply hcd (Option.some.inj hk)
              change ∃ s', Committee.matchEach intents after (before.length + 1) _ = _ ∧ _
              rw [hlength]
              apply ih hs' hsplit

/-- A match in which both parties get what they asked for: the first spends its full amount and
receives the floor of what its limit price gives for it, which is the full amount of the second
and not below its minimum; the second receives the full amount of the first, which is not below
its minimum, at an apply rate that is not below its limit. -/
structure PricedFair (a b : PricedIntent) (m : PricedMatch) : Prop where
  ids : m.intentAId = a.intentId ∧ m.intentBId = b.intentId
  complementary : a.inputAsset = b.outputAsset ∧ a.outputAsset = b.inputAsset
  crossAsset : a.inputAsset ≠ a.outputAsset
  assets : m.inputAssetA = a.inputAsset ∧ m.outputAssetA = a.outputAsset
    ∧ m.inputAssetB = b.inputAsset ∧ m.outputAssetB = b.outputAsset
  spent : toInt? m.matchedAmountA = some a.amount ∧ toInt? m.matchedAmountB = some b.amount
  price : toInt? m.priceScaled = some a.limitPriceScaled
  received : b.amount = a.amount * a.limitPriceScaled / 10 ^ 9
  limitA : b.amount * 10 ^ 9 ≤ a.amount * a.limitPriceScaled
    ∧ a.amount * a.limitPriceScaled < (b.amount + 1) * 10 ^ 9
  minOutputA : a.minOutput ≤ b.amount
  minOutputB : b.minOutput ≤ a.amount
  limitB : b.limitPriceScaled * b.amount ≤ a.amount * 10 ^ 9

/-- A pair that crosses is matched to the satisfaction of both. -/
theorem pricedFair_of_match (hpos : 0 < a.amount ∧ 0 < b.amount) (hlimit : 0 ≤ a.limitPriceScaled)
    (hm : matchPricedPair a b = .ok (some m)) :
  PricedFair a b m
  := by
  obtain ⟨hinput, houtput, hne, hamount, hminA, hminB, ⟨-, hrate⟩, rfl⟩ :=
    matchPricedPair_eq_some hm
  have hproduct : 0 ≤ a.amount * a.limitPriceScaled := mul_nonneg hpos.1.le hlimit
  have hfloor : b.amount = a.amount * a.limitPriceScaled / 10 ^ 9 := by
    rw [hamount, quotedFromPrice, Int.tdiv_eq_ediv_of_nonneg hproduct]
    rfl
  constructor
  · exact ⟨rfl, rfl⟩
  · exact ⟨hinput, houtput⟩
  · exact hne
  · exact ⟨rfl, rfl, rfl, rfl⟩
  · exact ⟨toInt?_decimal _, toInt?_decimal _⟩
  · apply toInt?_decimal _
  · exact hfloor
  · constructor
    · rw [hfloor]
      apply Int.ediv_mul_le _ (by norm_num)
    · rw [hfloor]
      apply Int.lt_ediv_add_one_mul_self _ (by norm_num)
  · exact hminA
  · exact hminB
  · have hscaled : 0 ≤ a.amount * priceScale := mul_nonneg hpos.1.le (by decide)
    rw [Int.tdiv_eq_ediv_of_nonneg hscaled] at hrate
    exact (Int.le_ediv_iff_mul_le hpos.2).mp hrate

/-- The loop over all pairs uses every intent at most once, matches pairs to the satisfaction of
both, and leaves no two unused intents that cross. -/
theorem matchPricedIntents_fair (hids : (intents.map PricedIntent.intentId).Nodup)
    (hamount : ∀ i ∈ intents, 0 < i.amount)
    (hnonneg : ∀ i ∈ intents, 0 ≤ i.minOutput ∧ 0 ≤ i.limitPriceScaled) :
  ∃ found, matchPricedIntents intents = .ok found
    ∧ (found.flatMap PricedMatch.ids).Nodup
    ∧ (∀ m ∈ found, ∃ a ∈ intents, ∃ b ∈ intents, PricedFair a b m)
    ∧ ∀ a ∈ intents, ∀ b ∈ intents, a ≠ b → a.intentId ∉ found.flatMap PricedMatch.ids →
      b.intentId ∉ found.flatMap PricedMatch.ids → matchPricedPair a b = .ok none
  := by
  have hempty : PricedProgress intents [] Progress.empty := by
    refine ⟨Progress.disjoint_empty _, ?_, ?_⟩
    · intro m hm
      cases hm
    · intro a ha
      cases ha
  obtain ⟨s, hrun, hs⟩ := hempty.matchEach hids (fun b hb => (hamount b hb).ne')
    (List.nil_append intents).symm
  use s.found
  refine ⟨?_, ?_, ?_, ?_⟩
  · rw [matchPricedIntents]
    exact congrArg (Except.map Progress.found) hrun
  · rw [← hs.disjoint.used_eq]
    exact hs.disjoint.nodup
  · intro m hm
    obtain ⟨a, ha, b, hb, hmatch⟩ := hs.crosses m hm
    exact ⟨a, ha, b, hb, pricedFair_of_match ⟨hamount a ha, hamount b hb⟩ (hnonneg a ha).2 hmatch⟩
  · intro a ha b hb hne hunusedA hunusedB
    rw [← hs.disjoint.used_eq] at hunusedA hunusedB
    apply hs.maximal a ha hunusedA b hb hne hunusedB

end

/-- Four units of USDC are offered for two units of XLM, and the other way round. -/
def crossingIntents : List PricedIntent :=
  [{ intentId := "A".toList
     inputAsset := "usdc".toList
     outputAsset := "xlm".toList
     amount := 4000000
     minOutput := 1900000
     limitPriceScaled := 500000000 },
   { intentId := "B".toList
     inputAsset := "xlm".toList
     outputAsset := "usdc".toList
     amount := 2000000
     minOutput := 3900000
     limitPriceScaled := 2000000000 }]

/-- The two offers are matched. -/
theorem crossingIntents_fair :
  ∃ found, matchPricedIntents crossingIntents = .ok found ∧ found ≠ []
    ∧ ∀ m ∈ found, ∃ a ∈ crossingIntents, ∃ b ∈ crossingIntents, PricedFair a b m
  := by
  obtain ⟨found, hrun, -, hfair, -⟩ :=
    matchPricedIntents_fair (by decide : (crossingIntents.map PricedIntent.intentId).Nodup)
      (by decide) (by decide)
  refine ⟨found, hrun, ?_, hfair⟩
  rintro rfl
  have hmatched : (matchPricedIntents crossingIntents).toOption ≠ some [] := by decide +kernel
  rw [hrun] at hmatched
  apply hmatched rfl

end Shade.Committee
