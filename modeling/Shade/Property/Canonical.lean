import Shade.Library.CanonicalJson
import Shade.Library.JsonText
import Shade.Solver.Stable

/-!
# Canonical JSON

The API prints a value by putting the members of its objects in the order of their names and
printing the result. Printing is injective, so the text determines the value up to the order of
members. The package of the solvers prints the same texts, hence all hashes of intents and quotes
agree.
-/

namespace Shade.Api

open Text

variable (platform : Platform)

/-! ### The printer of the API -/

theorem apiStringifyItems_eq (items : List Json) :
  stringifyItems platform items = items.map (stableStringify platform)
  := by
  apply Json.eq_map rfl
  intro v vs
  rw [stringifyItems]

theorem apiStringifyFields_eq (fields : List (Text × Json)) :
  stringifyFields platform fields = fields.map fun f => (f.1, stableStringify platform f.2)
  := by
  apply Json.eq_map rfl
  intro f rest
  rw [stringifyFields]

/-- The API prints the normal form of a value. -/
theorem stableStringify_eq (v : Json) :
  stableStringify platform v = (v.normalize platform.localeLe).stringify platform.printNumber
  := by
  induction v using Json.parts_induction with
  | null => rfl
  | bool b => rfl
  | number q => rfl
  | string s => rfl
  | array items ih =>
      rw [stableStringify, Json.normalize, Json.stringify, apiStringifyItems_eq,
        Json.stringifyItems_eq, Json.normalizeItems_eq, List.map_map, List.map_congr_left ih]
      rfl
  | object fields ih =>
      have hfields : fields.map (fun f => (f.1, stableStringify platform f.2))
          = (fields.map fun f => (f.1, f.2.normalize platform.localeLe)).map
            fun f => (f.1, f.2.stringify platform.printNumber) := by
        rw [List.map_map]
        apply List.map_congr_left
        intro f hf
        rw [ih f hf]
        rfl
      rw [stableStringify, Json.normalize, Json.stringify, apiStringifyFields_eq,
        Json.stringifyFields_eq, Json.normalizeFields_eq, Json.map_sortFields, hfields]
      rfl

variable {platform}

/-- The text of a value determines the value up to the order of members. -/
theorem stableStringify_eq_iff (hnum : Json.Numerals platform.printNumber) {v w : Json}
    (hv : v.NamesDistinct) (horder : Json.Orders platform.localeLe v.UsesName) :
  stableStringify platform v = stableStringify platform w ↔ v.Same w
  := by
  rw [stableStringify_eq, stableStringify_eq, (Json.stringify_injective hnum).eq_iff]
  apply Json.normalize_eq_iff hv horder

/-! ### The printer of the solvers -/

theorem stableItems_eq (items : List Json) :
  Solver.stableItems platform items = items.map (Solver.stable platform)
  := by
  apply Json.eq_map rfl
  intro v vs
  rw [Solver.stableItems]

theorem stableFields_eq (fields : List (Text × Json)) :
  Solver.stableFields platform fields = fields.map fun f => (f.1, Solver.stable platform f.2)
  := by
  apply Json.eq_map rfl
  intro f rest
  rw [Solver.stableFields]

/-- The package of the solvers prints what the API prints. -/
theorem stable_eq (v : Json) :
  Solver.stable platform v = stableStringify platform v
  := by
  induction v using Json.parts_induction with
  | null => rfl
  | bool b => rfl
  | number q => rfl
  | string s => rfl
  | array items ih =>
      rw [Solver.stable, stableStringify, stableItems_eq, apiStringifyItems_eq,
        List.map_congr_left ih]
  | object fields ih =>
      have hfields : fields.map (fun f => (f.1, Solver.stable platform f.2))
          = fields.map fun f => (f.1, stableStringify platform f.2) := by
        apply List.map_congr_left
        intro f hf
        rw [ih f hf]
      rw [Solver.stable, stableStringify, stableFields_eq, apiStringifyFields_eq, hfields]

/-! ### A platform and an object -/

/-- A platform whose names are ordered by their code units. -/
def unitsPlatform : Platform where
  localeLe j k := decide (NotAfter j k)
  printNumber := Json.printFraction

/-- An object with two members, the second of which is an array with a truth value. -/
def firstThenSecond : Json :=
  .object [("a".toList, .number 1), ("b".toList, .array [.bool true])]

/-- The same object with its members the other way round. -/
def secondThenFirst : Json :=
  .object [("b".toList, .array [.bool true]), ("a".toList, .number 1)]

/-- What occurs in the object is the object itself or one of its values. -/
theorem contains_firstThenSecond {P : Json → Prop} (h : firstThenSecond.Contains P) :
  P firstThenSecond ∨ P (.number 1) ∨ P (.array [.bool true]) ∨ P (.bool true)
  := by
  cases h with
  | here h =>
      left
      apply h
  | member hf h =>
      right
      obtain rfl | hf := List.mem_cons.mp hf
      · left
        cases h with
        | here h => apply h
      · obtain rfl := List.mem_singleton.mp hf
        right
        cases h with
        | here h =>
            left
            apply h
        | item hv h =>
            right
            obtain rfl := List.mem_singleton.mp hv
            cases h with
            | here h => apply h

theorem usesName_firstThenSecond {k : Text} (h : firstThenSecond.UsesName k) :
  k = "a".toList ∨ k = "b".toList
  := by
  obtain ⟨fields, heq, f, hf, hk⟩ | ⟨_, heq, _⟩ | ⟨_, heq, _⟩ | ⟨_, heq, _⟩ :=
    contains_firstThenSecond h
  · cases heq
    obtain rfl := List.mem_singleton.mp hk
    obtain rfl | hf := List.mem_cons.mp hf
    · left
      rfl
    · obtain rfl := List.mem_singleton.mp hf
      right
      rfl
  · cases heq
  · cases heq
  · cases heq

theorem namesDistinct_firstThenSecond :
  firstThenSecond.NamesDistinct
  := by
  intro h
  obtain ⟨_, heq, hnot⟩ | ⟨_, heq, _⟩ | ⟨_, heq, _⟩ | ⟨_, heq, _⟩ := contains_firstThenSecond h
  · cases heq
    apply hnot
    decide
  · cases heq
  · cases heq
  · cases heq

/-! ### Canonicity -/

/-- The API prints two values the same if and only if they are equal up to the order of members at
every depth, and the solvers print and hash every value as the API does. -/
theorem stableStringify_canonical (platform : Platform) :
  (Json.Numerals platform.printNumber →
    ∀ v w : Json, v.NamesDistinct → Json.Orders platform.localeLe v.UsesName →
      (stableStringify platform v = stableStringify platform w ↔ v.Same w))
    ∧ ∀ v : Json, Solver.stable platform v = stableStringify platform v
      ∧ Solver.intentHash platform v = hashJson platform v
      ∧ Solver.quoteHash platform v = hashJson platform v
  := by
  constructor
  · intro hnum v w hv horder
    apply stableStringify_eq_iff hnum hv horder
  · intro v
    have hhash : "0x".toList ++ Solver.sha256Text (Solver.stable platform v)
        = hashJson platform v := by
      rw [stable_eq]
      rfl
    use stable_eq v, hhash, hhash

theorem stableStringify_canonical_swapped :
  stableStringify unitsPlatform firstThenSecond = stableStringify unitsPlatform secondThenFirst
    ∧ Solver.quoteHash unitsPlatform firstThenSecond = hashJson unitsPlatform firstThenSecond
  := by
  have horder : Json.Orders unitsPlatform.localeLe firstThenSecond.UsesName := by
    have hnames : Json.Orders unitsPlatform.localeLe fun k => k = "a".toList ∨ k = "b".toList := by
      constructor
      · rintro _ _ (rfl | rfl) (rfl | rfl) <;> decide
      · rintro _ _ _ (rfl | rfl) (rfl | rfl) (rfl | rfl) <;> decide
      · rintro _ _ (rfl | rfl) (rfl | rfl) <;> decide
    apply hnames.mono fun k hk => usesName_firstThenSecond hk
  have hsame : firstThenSecond.Same secondThenFirst := by
    apply @Json.Same.object _ [("a".toList, .number 1), ("b".toList, .array [.bool true])]
    · apply List.forall₂_same.mpr
      rintro ⟨k, v⟩ _
      apply Json.SameMember.member k (Json.Same.refl v)
    · apply List.Perm.swap
  obtain ⟨hcanonical, hhash⟩ := stableStringify_canonical unitsPlatform
  constructor
  · apply (hcanonical Json.numerals_printFraction firstThenSecond secondThenFirst
      namesDistinct_firstThenSecond horder).mpr hsame
  · apply (hhash firstThenSecond).2.2

end Shade.Api
