import Shade.Library.Text

/-!
# JSON values

Numbers are rational. The names of an object are in the order in which they were inserted.
`findName` looks for names at any depth, the members of objects and arrays one after another.
-/

open Text

/-- A JSON value. -/
inductive Json where
  | null
  | bool (b : Bool)
  | number (q : ℚ)
  | string (s : Text)
  | array (items : List Json)
  | object (fields : List (Text × Json))

namespace Json

/-- The member of an object with a name. -/
def get? (name : Text) : Json → Option Json
  | .object fields => (fields.find? fun f => f.1 = name).map Prod.snd
  | _ => none

/-- The text of a string. -/
def asString? : Json → Option Text
  | .string s => some s
  | _ => none

/-- The text of a string that is not empty. -/
def asNonempty? (v : Json) : Option Text :=
  v.asString?.filter fun s => s ≠ []

/-- The value of a truth value. -/
def asBool? : Json → Option Bool
  | .bool b => some b
  | _ => none

/-- The value of an integer. -/
def asInt? : Json → Option ℤ
  | .number q => if q.den = 1 then some q.num else none
  | _ => none

/-- The items of an array. -/
def asArray? : Json → Option (List Json)
  | .array items => some items
  | _ => none

/-- The members of an object. -/
def asObject? : Json → Option (List (Text × Json))
  | .object fields => some fields
  | _ => none

mutual

/-- The first of the given names that occurs in a value. -/
def findName (names : List Text) : Json → Option Text
  | .array items => findNameItems names items
  | .object fields => findNameFields names fields
  | _ => none

/-- The first of the given names that occurs in a list of values. -/
def findNameItems (names : List Text) : List Json → Option Text
  | [] => none
  | v :: vs => (findName names v).or (findNameItems names vs)

/-- The first of the given names that occurs in the members of an object. -/
def findNameFields (names : List Text) : List (Text × Json) → Option Text
  | [] => none
  | (k, v) :: rest =>
      if k ∈ names then some k else (findName names v).or (findNameFields names rest)

end

/-- A function that works on the elements of a list one after another maps them. -/
theorem eq_map {α β : Type} {f : List α → List β} {g : α → β} (nil : f [] = [])
    (cons : ∀ a as, f (a :: as) = g a :: f as) (as : List α) :
  f as = as.map g
  := by
  induction as with
  | nil => rw [nil, List.map_nil]
  | cons a as ih => rw [cons, ih, List.map_cons]

/-! ### What a value contains -/

/-- A value with a property occurs at some depth. -/
inductive Contains (P : Json → Prop) : Json → Prop
  | here {v : Json} : P v → Contains P v
  | item {v : Json} {items : List Json} : v ∈ items → Contains P v → Contains P (.array items)
  | member {f : Text × Json} {fields : List (Text × Json)} :
      f ∈ fields → Contains P f.2 → Contains P (.object fields)

/-- A value is an object with a member that has one of the given names. -/
def HasName (names : List Text) (v : Json) : Prop :=
  ∃ fields, v = .object fields ∧ ∃ f ∈ fields, f.1 ∈ names

variable {P : Json → Prop} {names : List Text}

/-- What occurs in a value occurs in it under a weaker property. -/
theorem Contains.mono {Q : Json → Prop} (h : ∀ v, P v → Q v) {v : Json} (hv : Contains P v) :
  Contains Q v
  := by
  induction hv with
  | here hp => apply here (h _ hp)
  | item hv _ ih => apply item hv ih
  | member hf _ ih => apply member hf ih

/-- A property that passes from the parts of a value to the value holds for all values. -/
theorem parts_induction (null : P .null) (bool : ∀ b, P (.bool b)) (number : ∀ q, P (.number q))
    (string : ∀ s, P (.string s)) (array : ∀ items, (∀ v ∈ items, P v) → P (.array items))
    (object : ∀ fields : List (Text × Json), (∀ f ∈ fields, P f.2) → P (.object fields))
    (v : Json) :
  P v
  := by
  apply @Json.rec P (fun items => ∀ v ∈ items, P v) (fun fields => ∀ f ∈ fields, P f.2)
    (fun f => P f.2) null bool number string array object
  · intro v hv
    cases hv
  · intro v vs hv hvs
    rw [List.forall_mem_cons]
    use hv, hvs
  · intro f hf
    cases hf
  · intro f fs hf hfs
    rw [List.forall_mem_cons]
    use hf, hfs
  · intro k v hv
    apply hv

/-- An array contains what its items contain, unless it has the property itself. -/
theorem contains_array_iff (items : List Json) (h : ¬ P (.array items)) :
  Contains P (.array items) ↔ ∃ v ∈ items, Contains P v
  := by
  constructor
  · intro hc
    cases hc with
    | here hp => contradiction
    | item hv hc => exact ⟨_, hv, hc⟩
  · rintro ⟨v, hv, hc⟩
    apply Contains.item hv hc

/-- An object contains what its members contain, unless it has the property itself. -/
theorem contains_object_iff (fields : List (Text × Json)) :
  Contains P (.object fields) ↔ P (.object fields) ∨ ∃ f ∈ fields, Contains P f.2
  := by
  constructor
  · intro hc
    cases hc with
    | here hp =>
        left
        apply hp
    | member hf hc =>
        right
        exact ⟨_, hf, hc⟩
  · rintro (hp | ⟨f, hf, hc⟩)
    · apply Contains.here hp
    · apply Contains.member hf hc

/-- A name is found in a list of values when it is found in one of them. -/
theorem isSome_findNameItems (items : List Json) :
  (findNameItems names items).isSome ↔ ∃ v ∈ items, (findName names v).isSome
  := by
  induction items with
  | nil => simp [findNameItems]
  | cons v vs ih => simp only [findNameItems, Option.isSome_or, Bool.or_eq_true, ih,
      List.exists_mem_cons_iff]

/-- A name is found in a list of members when it is one of theirs or is found in their values. -/
theorem isSome_findNameFields (fields : List (Text × Json)) :
  (findNameFields names fields).isSome
    ↔ (∃ f ∈ fields, f.1 ∈ names) ∨ ∃ f ∈ fields, (findName names f.2).isSome
  := by
  induction fields with
  | nil => simp [findNameFields]
  | cons f rest ih =>
      obtain ⟨k, v⟩ := f
      rw [findNameFields, List.exists_mem_cons_iff, List.exists_mem_cons_iff]
      by_cases hk : k ∈ names
      · simp [hk]
      · simp only [hk, if_false, false_or, Option.isSome_or, Bool.or_eq_true, ih]
        apply or_left_comm

/-- A name is found exactly when an object with a member of that name occurs at some depth. -/
theorem isSome_findName (v : Json) :
  (findName names v).isSome ↔ Contains (HasName names) v
  := by
  have leaf : ∀ v : Json, findName names v = none →
      ((∀ items, v ≠ .array items) ∧ ∀ fields, v ≠ .object fields) →
      ((findName names v).isSome ↔ Contains (HasName names) v) := by
    intro v hv hn
    rw [hv]
    apply iff_of_false
    · simp
    · intro hc
      cases hc with
      | here hp =>
          obtain ⟨fields, rfl, -⟩ := hp
          apply hn.2 fields rfl
      | item _ _ => apply hn.1 _ rfl
      | member _ _ => apply hn.2 _ rfl
  induction v using parts_induction with
  | null => apply leaf _ rfl (by simp)
  | bool b => apply leaf _ rfl (by simp)
  | number q => apply leaf _ rfl (by simp)
  | string s => apply leaf _ rfl (by simp)
  | array items ih =>
      rw [findName, isSome_findNameItems, contains_array_iff _ (by rintro ⟨_, h, _⟩; cases h)]
      apply exists_congr
      intro v
      apply and_congr_right
      intro hv
      apply ih v hv
  | object fields ih =>
      rw [findName, isSome_findNameFields, contains_object_iff]
      apply or_congr
      · constructor
        · intro h
          use fields
        · rintro ⟨_, h, hf⟩
          cases h
          apply hf
      · apply exists_congr
        intro f
        apply and_congr_right
        intro hf
        apply ih f hf

end Json
