import Mathlib.Data.List.Basic

/-!
# Stores

`Store K V` is a finite map from keys to values, kept as the list of the writes made to it,
the latest first. `get` reads the latest write at a key, `set` writes a value and `remove`
forgets the writes at a key. Two stores with the same writes are equal, so equality of
stores is decidable whenever it is for keys and values.
-/

/-- A finite map from `K` to `V`, as the list of its writes with the latest first. -/
structure Store (K V : Type) where
  writes : List (K × V)
deriving DecidableEq, Repr

namespace Store

variable {K V : Type} [DecidableEq K]

/-- The store without writes. -/
def empty : Store K V := ⟨[]⟩

/-- The latest value written at a key. -/
def get (s : Store K V) (k : K) : Option V :=
  (s.writes.find? (fun e => e.1 = k)).map Prod.snd

/-- Write a value at a key. -/
def set (s : Store K V) (k : K) (v : V) : Store K V :=
  ⟨(k, v) :: s.writes⟩

/-- Forget every value written at a key. -/
def remove (s : Store K V) (k : K) : Store K V :=
  ⟨s.writes.filter (fun e => e.1 ≠ k)⟩

@[simp]
theorem get_empty (k : K) :
  (empty : Store K V).get k = none
  := rfl

/-- What is read at a key was written there. -/
theorem mem_writes_of_get {s : Store K V} {k : K} {v : V} (h : s.get k = some v) :
  (k, v) ∈ s.writes
  := by
  obtain ⟨e, he, rfl⟩ := Option.map_eq_some_iff.mp h
  have hkey := List.find?_some he
  rw [← of_decide_eq_true hkey]
  apply List.mem_of_find?_eq_some he

theorem get_set (s : Store K V) (k k' : K) (v : V) :
  (s.set k v).get k' = if k = k' then some v else s.get k'
  := by
  by_cases h : k = k'
  · simp [get, set, h]
  · simp [get, set, h]

@[simp]
theorem get_set_self (s : Store K V) (k : K) (v : V) :
  (s.set k v).get k = some v
  := by
  rw [get_set, if_pos rfl]

/-! ### One write seen from outside -/

/-- The second store reads like the first one, except for a value at one key. -/
def Updates (s : Store K V) (k : K) (v : V) (s' : Store K V) : Prop :=
  ∀ k', s'.get k' = if k = k' then some v else s.get k'

namespace Updates

variable {s s' s'' : Store K V} {k k' : K} {v v' : V}

theorem set (s : Store K V) (k : K) (v : V) :
  Updates s k v (s.set k v)
  := (get_set s k · v)

/-- The last of two updates at a key counts. -/
theorem trans (h : Updates s k v s') (h' : Updates s' k v' s'') :
  Updates s k v' s''
  := by
  intro k'
  rw [h' k', h k']
  by_cases hk : k = k'
  · rw [if_pos hk, if_pos hk]
  · rw [if_neg hk, if_neg hk, if_neg hk]

theorem get_self (h : Updates s k v s') :
  s'.get k = some v
  := by
  rw [h k, if_pos rfl]

/-- A value that is read is the one written, or it was there before. -/
theorem eq_or (h : Updates s k v s') (hv' : s'.get k' = some v') :
  (k = k' ∧ v = v') ∨ s.get k' = some v'
  := by
  rw [h k'] at hv'
  split at hv'
  · next hk => exact .inl ⟨hk, Option.some.inj hv'⟩
  · exact .inr hv'

/-- What holds of the value written and of every value before holds of every value after. -/
theorem forall_get {P : K → V → Prop} (h : Updates s k v s') (hv : P k v)
    (hP : ∀ k v, s.get k = some v → P k v) (hv' : s'.get k' = some v') :
  P k' v'
  := by
  rcases h.eq_or hv' with ⟨rfl, rfl⟩ | hv'
  · exact hv
  · apply hP k' v' hv'

end Updates

end Store
