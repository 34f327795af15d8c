import Mathlib.Data.List.Basic
import Mathlib.Data.List.Sublists

/-!
# Tables

A table of a database is the list of its rows, in the order in which they were inserted. The
statements are insertions that do nothing or update when a row conflicts with the new one, updates
and deletions of the rows that meet a condition. `filter_updateWhere_eq_iff` and its companions
say when a statement leaves the rows of a part of the table as they are.
-/

namespace Table

variable {ρ : Type}

/-- Update the rows that meet a condition. -/
def updateWhere (p : ρ → Prop) [DecidablePred p] (f : ρ → ρ) (t : List ρ) : List ρ :=
  t.map fun r => if p r then f r else r

/-- Delete the rows that meet a condition. -/
def deleteWhere (p : ρ → Prop) [DecidablePred p] (t : List ρ) : List ρ :=
  t.filter fun r => ¬ p r

/-- Insert a row, unless a row of the table conflicts with it. -/
def insertOrNothing (conflicts : ρ → Prop) [DecidablePred conflicts] (r : ρ) (t : List ρ) :
    List ρ :=
  if ∃ s ∈ t, conflicts s then t else t ++ [r]

/-- Insert a row, or update the rows of the table that conflict with it. -/
def insertOrUpdate (conflicts : ρ → Prop) [DecidablePred conflicts] (f : ρ → ρ) (r : ρ)
    (t : List ρ) : List ρ :=
  if ∃ s ∈ t, conflicts s then updateWhere conflicts f t else t ++ [r]

section

variable {p q : ρ → Prop} [DecidablePred p] [DecidablePred q] {f : ρ → ρ} {r : ρ} {t : List ρ}

theorem mem_updateWhere :
  r ∈ updateWhere p f t ↔ ∃ s ∈ t, r = if p s then f s else s
  := by
  simp only [updateWhere, List.mem_map, eq_comm]

theorem updateWhere_cons (s : ρ) :
  updateWhere p f (s :: t) = (if p s then f s else s) :: updateWhere p f t
  := rfl

/-- Updates keep the values of a column that they do not write. -/
theorem map_updateWhere {κ : Type} {key : ρ → κ} (h : ∀ s ∈ t, p s → key (f s) = key s) :
  (updateWhere p f t).map key = t.map key
  := by
  rw [updateWhere, List.map_map]
  apply List.map_congr_left
  intro s hs
  rw [Function.comp_apply]
  split
  · case isTrue hp => apply h s hs hp
  · rfl

/-- Rows remain when a row is inserted and conflicts have no effect. -/
theorem subset_insertOrNothing :
  t ⊆ insertOrNothing p r t
  := by
  rw [insertOrNothing]
  split
  · apply List.Subset.refl
  · apply List.subset_append_left

/-! ### Parts of a table -/

/-- No row enters a part of the table with an update that takes no row into it. -/
theorem length_filter_updateWhere_le (h : ∀ s ∈ t, p s → q (f s) → q s) :
  ((updateWhere p f t).filter q).length ≤ (t.filter q).length
  := by
  induction t with
  | nil => apply le_refl
  | cons s t ih =>
      have ih := ih fun s' hs' => h s' (List.mem_cons_of_mem s hs')
      have hs := h s List.mem_cons_self
      simp only [updateWhere_cons, List.filter_cons, decide_eq_true_eq]
      by_cases hp : p s
      · rw [if_pos hp]
        by_cases hf : q (f s)
        · rw [if_pos hf, if_pos (hs hp hf), List.length_cons, List.length_cons]
          omega
        · rw [if_neg hf]
          split
          · rw [List.length_cons]
            omega
          · apply ih
      · rw [if_neg hp]
        split
        · rw [List.length_cons, List.length_cons]
          omega
        · apply ih

/-- An update that takes no row into a part of the table leaves that part as it is if and only if
it changes none of its rows. -/
theorem filter_updateWhere_eq_iff (h : ∀ s ∈ t, p s → q (f s) → q s) :
  (updateWhere p f t).filter q = t.filter q ↔ ∀ s ∈ t, p s → q s → f s = s
  := by
  induction t with
  | nil => simp [updateWhere]
  | cons s t ih =>
      have hrest : ∀ s' ∈ t, p s' → q (f s') → q s' := fun s' hs' =>
        h s' (List.mem_cons_of_mem s hs')
      have ih := ih hrest
      have hs := h s List.mem_cons_self
      rw [List.forall_mem_cons, ← ih]
      simp only [updateWhere_cons, List.filter_cons, decide_eq_true_eq]
      by_cases hp : p s
      · rw [if_pos hp]
        by_cases hf : q (f s)
        · rw [if_pos hf, if_pos (hs hp hf), List.cons.injEq]
          simp only [hp, hs hp hf, forall_const]
        · rw [if_neg hf]
          by_cases hq : q s
          · rw [if_pos hq]
            constructor
            · intro heq
              have hle := length_filter_updateWhere_le hrest
              rw [heq, List.length_cons] at hle
              omega
            · intro hboth
              rw [hboth.1 hp hq] at hf
              contradiction
          · rw [if_neg hq]
            simp [hq]
      · rw [if_neg hp]
        split <;> simp [hp]

/-- An update of rows outside of a part of the table leaves that part as it is. -/
theorem filter_updateWhere_of_outside (h : ∀ s ∈ t, p s → ¬ q s ∧ ¬ q (f s)) :
  (updateWhere p f t).filter q = t.filter q
  := by
  apply (filter_updateWhere_eq_iff fun s hs hp hf => absurd hf (h s hs hp).2).mpr
  intro s hs hp hq
  exact absurd hq (h s hs hp).1

/-- A deletion of rows outside of a part of the table leaves that part as it is. -/
theorem filter_deleteWhere_of_outside (h : ∀ s ∈ t, p s → ¬ q s) :
  (deleteWhere p t).filter q = t.filter q
  := by
  rw [deleteWhere, List.filter_filter]
  apply List.filter_congr
  intro s hs
  by_cases hp : p s
  · simp [hp, h s hs hp]
  · simp [hp]

/-- An insertion of a row outside of a part of the table, or an update that takes no row into that
part, leaves it as it is if and only if no row of it is changed. -/
theorem filter_insertOrUpdate_eq_iff (hr : ¬ q r) (h : ∀ s ∈ t, p s → q (f s) → q s) :
  (insertOrUpdate p f r t).filter q = t.filter q ↔ ∀ s ∈ t, p s → q s → f s = s
  := by
  rw [insertOrUpdate]
  split
  · apply filter_updateWhere_eq_iff h
  · case isFalse hno =>
      rw [List.filter_append, List.filter_singleton]
      simp only [hr, decide_false, Bool.cond_false, List.append_nil, true_iff]
      intro s hs hp
      exact absurd ⟨s, hs, hp⟩ hno

/-- If the updated rows leave a part of the table, the other rows of that part remain. -/
theorem filter_updateWhere_of_leaves (h : ∀ s ∈ t, p s → ¬ q (f s)) :
  (updateWhere p f t).filter q = (t.filter q).filter fun s => ¬ p s
  := by
  induction t with
  | nil => rfl
  | cons s t ih =>
      have ih := ih fun s' hs' => h s' (List.mem_cons_of_mem s hs')
      have hs := h s List.mem_cons_self
      rw [updateWhere_cons, List.filter_cons, ih, List.filter_cons]
      by_cases hp : p s
      · by_cases hq : q s <;> simp [hp, hq, hs hp]
      · by_cases hq : q s <;> simp [hp, hq]

/-- If the inserted row is outside of a part of the table and updated rows leave it, the other
rows of that part remain. -/
theorem filter_insertOrUpdate_of_leaves (hr : ¬ q r) (h : ∀ s ∈ t, p s → ¬ q (f s)) :
  (insertOrUpdate p f r t).filter q = (t.filter q).filter fun s => ¬ p s
  := by
  rw [insertOrUpdate]
  split
  · apply filter_updateWhere_of_leaves h
  · case isFalse hno =>
      rw [List.filter_append, List.filter_singleton]
      simp only [hr, decide_false, Bool.cond_false, List.append_nil]
      rw [eq_comm, List.filter_eq_self]
      intro s hs
      rw [decide_eq_true_eq]
      intro hp
      apply hno ⟨s, List.mem_of_mem_filter hs, hp⟩

end

end Table
