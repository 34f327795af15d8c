import Shade.Committee.Batch
import Shade.Library.Text

/-!
# Matching

How the coordinator of the committee matches intents: pairs with complementary assets, in a
loop with two pointers over each group of intents and its reverse group, and pairs across
assets at one price, in a loop over all pairs. Prices are integers of any size, divided towards
zero.
-/

namespace Shade.Committee

open Text

/-- The scale of fixed-point prices. -/
def priceScale : ℤ := 1000000000

/-- The output a price gives for an input. -/
def quotedFromPrice (inputAmount7dp priceScaled : ℤ) : ℤ :=
  (inputAmount7dp * priceScaled).tdiv priceScale

/-- An offer to spend an amount of one asset for another, at a limit price. -/
structure PricedIntent where
  intentId : Text
  inputAsset : Text
  outputAsset : Text
  amount : ℤ
  minOutput : ℤ
  limitPriceScaled : ℤ
deriving DecidableEq

/-- Two intents matched across assets, with the numbers written in decimal. -/
structure PricedMatch where
  intentAId : Text
  intentBId : Text
  inputAssetA : Text
  outputAssetA : Text
  inputAssetB : Text
  outputAssetB : Text
  matchedAmountA : Text
  matchedAmountB : Text
  priceScaled : Text
  minOutputA : Text
  minOutputB : Text
deriving DecidableEq

/-- The quotient of two integers, rounded towards zero; division by zero throws. -/
def divide (x y : ℤ) : Except String ℤ :=
  if y = 0 then .error "Division by zero" else .ok (x.tdiv y)

/-- Match two intents at the limit price of the first, if they cross. -/
def matchPricedPair (a b : PricedIntent) : Except String (Option PricedMatch) := do
  if a.inputAsset ≠ b.outputAsset then return none
  if a.outputAsset ≠ b.inputAsset then return none
  if a.inputAsset = a.outputAsset then return none
  let priceScaled := a.limitPriceScaled
  let outputForA := (a.amount * priceScaled).tdiv priceScale
  let outputForB := a.amount
  if b.amount ≠ outputForA then return none
  if outputForA < a.minOutput then return none
  if outputForB < b.minOutput then return none
  let rateForB ← divide (outputForB * priceScale) b.amount
  if rateForB < b.limitPriceScaled then return none
  return some
    { intentAId := a.intentId
      intentBId := b.intentId
      inputAssetA := a.inputAsset
      outputAssetA := a.outputAsset
      inputAssetB := b.inputAsset
      outputAssetB := b.outputAsset
      matchedAmountA := decimal a.amount
      matchedAmountB := decimal outputForA
      priceScaled := decimal priceScaled
      minOutputA := decimal a.minOutput
      minOutputB := decimal b.minOutput }

/-! ### The state of a loop -/

/-- How far a loop has come: the intents it has used, and the matches it has found. -/
structure Progress (M : Type) where
  used : List Text
  found : List M

namespace Progress

variable {M : Type}

/-- Nothing is used and nothing found. -/
def empty : Progress M := ⟨[], []⟩

/-- Use two intents in a match. -/
@[simps]
def add (s : Progress M) (idA idB : Text) (m : M) : Progress M :=
  ⟨s.used ++ [idA, idB], s.found ++ [m]⟩

variable {ids : M → List Text} {s : Progress M} {idA idB : Text} {m : M}

/-- The intents that are used are those of the matches found, and no intent is used twice. -/
structure Disjoint (ids : M → List Text) (s : Progress M) : Prop where
  used_eq : s.used = s.found.flatMap ids
  nodup : s.used.Nodup

theorem disjoint_empty (ids : M → List Text) :
  Disjoint ids (empty : Progress M)
  := ⟨rfl, List.nodup_nil⟩

/-- Two different intents that are not used can be used in a match. -/
theorem Disjoint.add (hs : Disjoint ids s) (hA : idA ∉ s.used) (hB : idB ∉ s.used)
    (hne : idA ≠ idB) (hm : ids m = [idA, idB]) :
  Disjoint ids (s.add idA idB m)
  := by
  constructor
  · rw [add_used, add_found, List.flatMap_append, hs.used_eq, List.flatMap_singleton, hm]
  · rw [add_used, List.nodup_append]
    refine ⟨hs.nodup, by simp [hne], ?_⟩
    rintro x hx y hy rfl
    rcases List.mem_pair.mp hy with rfl | rfl
    · apply hA hx
    · apply hB hx

theorem mem_used_add {id : Text} :
  id ∈ (s.add idA idB m).used ↔ id ∈ s.used ∨ id = idA ∨ id = idB
  := by
  rw [add_used, List.mem_append, List.mem_pair]

end Progress

/-! ### Matching of complementary pairs -/

/-- An offer to exchange an amount of one asset for another. -/
structure Intent where
  intentId : Text
  amount7dp : ℤ
  inputAsset : Text
  outputAsset : Text
deriving DecidableEq

/-- The key of the group of a pair of assets. -/
def groupKey (inputAsset outputAsset : Text) : Text := inputAsset ++ '|' :: outputAsset

/-- Groups of intents by their keys, in the order in which the keys were first used. -/
abbrev Groups := List (Text × List Intent)

namespace Groups

/-- The group with a key. -/
def get : Groups → Text → Option (List Intent)
  | [], _ => none
  | (k, group) :: groups, key => if k = key then some group else get groups key

/-- Append an intent to the group with a key, which is made if there is none. -/
def push : Groups → Text → Intent → Groups
  | [], key, intent => [(key, [intent])]
  | (k, group) :: groups, key, intent =>
      if k = key then (k, group ++ [intent]) :: groups else (k, group) :: push groups key intent

end Groups

/-- The intents grouped by their assets. -/
def groupIntents (intents : List Intent) : Groups :=
  intents.foldl (fun groups i => groups.push (groupKey i.inputAsset i.outputAsset) i) []

/-- The match of two intents of a group and its reverse group. -/
def matchOf (inAsset outAsset : Text) (a b : Intent) : MatchResult where
  intentAId := a.intentId
  intentBId := b.intentId
  matchedAmount7dp := decimal (if a.amount7dp < b.amount7dp then a.amount7dp else b.amount7dp)
  inputAsset := inAsset
  outputAsset := outAsset
  priceScaled := none
  assetIn := none
  assetOut := none

/-- The loop with two pointers, given by what is left of the two sorted groups. -/
def pairUp (inAsset outAsset : Text) :
    List Intent → List Intent → Progress MatchResult → Progress MatchResult
  | a :: as, b :: bs, s =>
      if a.intentId ∈ s.used then
        pairUp inAsset outAsset as (b :: bs) s
      else if b.intentId ∈ s.used ∨ a.intentId = b.intentId then
        pairUp inAsset outAsset (a :: as) bs s
      else
        pairUp inAsset outAsset as bs
          (s.add a.intentId b.intentId (matchOf inAsset outAsset a b))
  | _, _, s => s
termination_by as bs => as.length + bs.length

section

variable (sort : List Intent → List Intent)

/-- Match the intents of a group with those of its reverse group. -/
def matchGroup (groups : Groups) (s : Progress MatchResult) (entry : Text × List Intent) :
    Progress MatchResult :=
  let inAsset := (entry.1.splitOn '|').getD 0 []
  let outAsset := (entry.1.splitOn '|').getD 1 []
  match groups.get (groupKey outAsset inAsset) with
  | none => s
  | some reverseGroup => pairUp inAsset outAsset (sort entry.2) (sort reverseGroup) s

/-- Match complementary pairs of intents, given how arrays are sorted by amount. -/
def matchIntents (intents : List Intent) : List MatchResult :=
  let groups := groupIntents intents
  (groups.foldl (matchGroup sort groups) Progress.empty).found

end

/-! ### Priced matching -/

/-- The inner loop: the first intent, from an index on, with which an intent crosses. -/
def matchAgainst (a : PricedIntent) (i : ℕ) (used : List Text) :
    List PricedIntent → ℕ → Except String (Option (PricedIntent × PricedMatch))
  | [], _ => .ok none
  | b :: bs, j =>
      if i = j ∨ b.intentId ∈ used ∨ a.intentId ∈ used then
        matchAgainst a i used bs (j + 1)
      else do
        match ← matchPricedPair a b with
        | some m => pure (some (b, m))
        | none => matchAgainst a i used bs (j + 1)

/-- The outer loop, from an index on. -/
def matchEach (intents : List PricedIntent) :
    List PricedIntent → ℕ → Progress PricedMatch → Except String (Progress PricedMatch)
  | [], _, s => .ok s
  | a :: as, i, s =>
      if a.intentId ∈ s.used then
        matchEach intents as (i + 1) s
      else do
        match ← matchAgainst a i s.used intents 0 with
        | some (b, m) => matchEach intents as (i + 1) (s.add a.intentId b.intentId m)
        | none => matchEach intents as (i + 1) s

/-- Match intents across assets, each at most once. -/
def matchPricedIntents (intents : List PricedIntent) : Except String (List PricedMatch) := do
  let s ← matchEach intents intents 0 Progress.empty
  pure s.found

/-! ### What a priced match says -/

/-- A check that returns no match was passed, if there is a match. -/
theorem check_eq_some {p : Prop} [Decidable p] {x : Except String (Option PricedMatch)}
    {m : PricedMatch} :
  (if p then pure none else x) = .ok (some m) ↔ ¬ p ∧ x = .ok (some m)
  := by
  by_cases hp : p
  · rw [if_pos hp]
    constructor
    · intro h
      cases h
    · rintro ⟨hnot, -⟩
      exact absurd hp hnot
  · rw [if_neg hp]
    constructor
    · intro h
      exact ⟨hp, h⟩
    · rintro ⟨-, h⟩
      exact h

/-- What a match says about the intents. -/
theorem matchPricedPair_eq_some {a b : PricedIntent} {m : PricedMatch}
    (h : matchPricedPair a b = .ok (some m)) :
  a.inputAsset = b.outputAsset ∧ a.outputAsset = b.inputAsset ∧ a.inputAsset ≠ a.outputAsset
    ∧ b.amount = quotedFromPrice a.amount a.limitPriceScaled
    ∧ a.minOutput ≤ b.amount ∧ b.minOutput ≤ a.amount
    ∧ (b.amount ≠ 0 ∧ b.limitPriceScaled ≤ (a.amount * priceScale).tdiv b.amount)
    ∧ m =
      { intentAId := a.intentId
        intentBId := b.intentId
        inputAssetA := a.inputAsset
        outputAssetA := a.outputAsset
        inputAssetB := b.inputAsset
        outputAssetB := b.outputAsset
        matchedAmountA := decimal a.amount
        matchedAmountB := decimal b.amount
        priceScaled := decimal a.limitPriceScaled
        minOutputA := decimal a.minOutput
        minOutputB := decimal b.minOutput }
  := by
  simp only [matchPricedPair, check_eq_some, not_not, not_lt] at h
  obtain ⟨hinput, houtput, hne, hamount, hminA, hminB, h⟩ := h
  rw [divide] at h
  split at h
  · cases h
  · next hzero =>
      obtain ⟨hrate, h⟩ := check_eq_some.mp h
      rw [← hamount] at hminA
      refine ⟨hinput, houtput, hne, hamount, hminA, hminB, ⟨hzero, not_lt.mp hrate⟩, ?_⟩
      rw [hamount]
      exact (Option.some.inj (Except.ok.inj h)).symm

end Shade.Committee
