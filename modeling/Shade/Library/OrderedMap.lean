import Mathlib.Data.List.Nodup

/-!
# Ordered maps

A map that keeps its entries in the order in which their keys were first set. To set the value of a
key that is there leaves the entry in its place.
-/

/-- A map, as the list of its entries. -/
abbrev OrderedMap (κ α : Type) : Type := List (κ × α)

namespace OrderedMap

variable {κ α : Type} [DecidableEq κ]

/-- The value of a key. -/
def get : OrderedMap κ α → κ → Option α
  | [], _ => none
  | (k, a) :: m, key => if k = key then some a else get m key

/-- Set the value of a key. -/
def set : OrderedMap κ α → κ → α → OrderedMap κ α
  | [], key, b => [(key, b)]
  | (k, a) :: m, key, b => if k = key then (k, b) :: m else (k, a) :: set m key b

/-- Change the value of a key, if it has one. -/
def modify (f : α → α) : OrderedMap κ α → κ → OrderedMap κ α
  | [], _ => []
  | (k, a) :: m, key => if k = key then (k, f a) :: m else (k, a) :: modify f m key

/-- The keys. -/
def keys (m : OrderedMap κ α) : List κ := m.map Prod.fst

variable {m : OrderedMap κ α} {k k' : κ} {a : α}

omit [DecidableEq κ] in
theorem mem_keys :
  k ∈ keys m ↔ ∃ a, (k, a) ∈ m
  := by
  simp [keys]

theorem get_set :
  get (set m k a) k' = if k = k' then some a else get m k'
  := by
  induction m with
  | nil => rfl
  | cons e m ih =>
      obtain ⟨key, b⟩ := e
      rw [set]
      by_cases hk : key = k
      · subst hk
        rw [if_pos rfl, get, get]
        by_cases hk' : key = k'
        · rw [if_pos hk', if_pos hk']
        · rw [if_neg hk', if_neg hk', if_neg hk']
      · rw [if_neg hk, get, ih, get]
        by_cases hk' : key = k'
        · subst hk'
          rw [if_pos rfl, if_neg (Ne.symm hk), if_pos rfl]
        · rw [if_neg hk', if_neg hk']

theorem keys_set_of_mem (h : k ∈ keys m) :
  keys (set m k a) = keys m
  := by
  induction m with
  | nil => cases h
  | cons e m ih =>
      obtain ⟨key, b⟩ := e
      rw [set]
      by_cases hk : key = k
      · rw [if_pos hk]
        rfl
      · rw [if_neg hk]
        rcases List.mem_cons.mp h with rfl | h
        · contradiction
        · exact congrArg (List.cons key) (ih h)

/-- A new key gets its place at the end. -/
theorem set_of_notMem (h : k ∉ keys m) :
  set m k a = m ++ [(k, a)]
  := by
  induction m with
  | nil => rfl
  | cons e m ih =>
      obtain ⟨key, b⟩ := e
      rw [keys, List.map_cons, List.mem_cons, not_or] at h
      rw [set, if_neg (Ne.symm h.1), ih h.2]
      rfl

theorem keys_set_of_notMem (h : k ∉ keys m) :
  keys (set m k a) = keys m ++ [k]
  := by
  induction m with
  | nil => rfl
  | cons e m ih =>
      obtain ⟨key, b⟩ := e
      rw [keys, List.map_cons, List.mem_cons, not_or] at h
      rw [set, if_neg (Ne.symm h.1)]
      exact congrArg (List.cons key) (ih h.2)

theorem mem_keys_set :
  k' ∈ keys (set m k a) ↔ k' = k ∨ k' ∈ keys m
  := by
  by_cases hk : k ∈ keys m
  · rw [keys_set_of_mem hk]
    constructor
    · exact .inr
    · rintro (rfl | h)
      · apply hk
      · apply h
  · rw [keys_set_of_notMem hk, List.mem_append, List.mem_singleton, or_comm]

theorem nodup_keys_set (h : (keys m).Nodup) :
  (keys (set m k a)).Nodup
  := by
  by_cases hk : k ∈ keys m
  · rw [keys_set_of_mem hk]
    apply h
  · rw [keys_set_of_notMem hk, List.nodup_append]
    use h, List.nodup_singleton k
    rintro x hx y hy rfl
    exact hk (List.mem_singleton.mp hy ▸ hx)

theorem get_eq_none :
  get m k = none ↔ k ∉ keys m
  := by
  induction m with
  | nil => simp [get, keys]
  | cons e m ih =>
      obtain ⟨key, b⟩ := e
      rw [get]
      by_cases hk : key = k
      · simp [hk, keys]
      · rw [if_neg hk, ih]
        simp [keys, Ne.symm hk]

theorem mem_of_get (h : get m k = some a) :
  (k, a) ∈ m
  := by
  induction m with
  | nil => cases h
  | cons e m ih =>
      obtain ⟨key, b⟩ := e
      rw [get] at h
      split at h
      · case isTrue hk =>
          cases h
          rw [hk]
          apply List.mem_cons_self
      · apply List.mem_cons_of_mem _ (ih h)

theorem mem_set {e : κ × α} (h : e ∈ set m k a) :
  e = (k, a) ∨ e ∈ m
  := by
  induction m with
  | nil => exact .inl (List.mem_singleton.mp h)
  | cons e' m ih =>
      obtain ⟨key, b⟩ := e'
      rw [set] at h
      split at h
      · case isTrue hk =>
          rcases List.mem_cons.mp h with rfl | h
          · rw [hk]
            exact .inl rfl
          · exact .inr (List.mem_cons_of_mem _ h)
      · rcases List.mem_cons.mp h with rfl | h
        · exact .inr List.mem_cons_self
        · exact (ih h).imp_right (List.mem_cons_of_mem _)

theorem mem_set_of_nodup {e : κ × α} (hm : (keys m).Nodup) (h : e ∈ set m k a) :
  e = (k, a) ∨ e ∈ m ∧ e.1 ≠ k
  := by
  induction m with
  | nil => exact .inl (List.mem_singleton.mp h)
  | cons e' m ih =>
      obtain ⟨key, b⟩ := e'
      rw [keys, List.map_cons, List.nodup_cons] at hm
      rw [set] at h
      split at h
      · case isTrue hk =>
          rcases List.mem_cons.mp h with rfl | h
          · rw [hk]
            exact .inl rfl
          · right
            use List.mem_cons_of_mem _ h
            rintro rfl
            apply hm.1
            rw [hk]
            apply List.mem_map_of_mem h
      · case isFalse hk =>
          rcases List.mem_cons.mp h with rfl | h
          · exact .inr ⟨List.mem_cons_self, hk⟩
          · apply (ih hm.2 h).imp_right
            exact fun h => ⟨List.mem_cons_of_mem _ h.1, h.2⟩

theorem mem_set_self :
  (k, a) ∈ set m k a
  := by
  apply mem_of_get
  rw [get_set, if_pos rfl]

/-- Values remain different when a new one is set. -/
theorem nodup_values_set (h : (m.map Prod.snd).Nodup) (ha : a ∉ m.map Prod.snd) :
  ((set m k a).map Prod.snd).Nodup
  := by
  induction m with
  | nil => apply List.nodup_singleton
  | cons e m ih =>
      obtain ⟨key, b⟩ := e
      rw [List.map_cons, List.nodup_cons] at h
      rw [List.map_cons, List.mem_cons, not_or] at ha
      rw [set]
      split
      · rw [List.map_cons, List.nodup_cons]
        use ha.2, h.2
      · rw [List.map_cons, List.nodup_cons]
        constructor
        · intro hb
          obtain ⟨x, hx, hxb⟩ := List.mem_map.mp hb
          rcases mem_set hx with rfl | hx
          · exact ha.1 hxb
          · exact h.1 (List.mem_map.mpr ⟨x, hx, hxb⟩)
        · apply ih h.2 ha.2

theorem get_modify {f : α → α} :
  get (modify f m k) k' = if k = k' then (get m k').map f else get m k'
  := by
  induction m with
  | nil => simp [modify, get]
  | cons e m ih =>
      obtain ⟨key, b⟩ := e
      rw [modify]
      by_cases hk : key = k
      · subst hk
        rw [if_pos rfl, get, get]
        by_cases hk' : key = k'
        · rw [if_pos hk', if_pos hk', if_pos hk']
          rfl
        · rw [if_neg hk', if_neg hk', if_neg hk']
      · rw [if_neg hk, get, ih, get]
        by_cases hk' : key = k'
        · subst hk'
          rw [if_pos rfl, if_neg (Ne.symm hk), if_pos rfl]
        · rw [if_neg hk', if_neg hk']

end OrderedMap
