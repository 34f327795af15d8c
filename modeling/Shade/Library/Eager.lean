import Mathlib.Data.List.Nodup
import Mathlib.Data.Nat.Basic

/-!
# Eager evaluation

Reduction passes arguments unevaluated, so a number that is used several times may be
computed several times. `eager` computes a number before it is used; it is the application
of a function otherwise. `injectiveOn` checks with it, on numerals, that a function on a
list takes different values on elements with different keys. `apart` checks that numbers are
different, by their binary digits, with fewer comparisons.
-/

namespace Eager

variable {α β : Type}

/-- Compute a number and go on with it. -/
def eager (n : ℕ) (f : ℕ → α) : α :=
  match n with
  | 0 => f 0
  | k + 1 => f (k + 1)

theorem eager_eq (n : ℕ) (f : ℕ → α) :
  eager n f = f n
  := by
  cases n with
  | zero => rfl
  | succ k => rfl

/-- Compute the numbers of a list and go on with them. -/
def eagerList : List ℕ → (List ℕ → α) → α
  | [], f => f []
  | n :: ns, f => eager n fun n => eagerList ns fun ns => f (n :: ns)

theorem eagerList_eq (ns : List ℕ) (f : List ℕ → α) :
  eagerList ns f = f ns
  := by
  induction ns generalizing f with
  | nil => rfl
  | cons n ns ih => rw [eagerList, eager_eq, ih]

/-- Compute the key and the value of each element of a list and go on with them. -/
def eagerTable (key : β → List ℕ) (value : β → ℕ) : List β → (List (List ℕ × ℕ) → α) → α
  | [], f => f []
  | x :: xs, f =>
      eagerList (key x) fun k => eager (value x) fun v =>
        eagerTable key value xs fun table => f ((k, v) :: table)

theorem eagerTable_eq (key : β → List ℕ) (value : β → ℕ) (l : List β)
    (f : List (List ℕ × ℕ) → α) :
  eagerTable key value l f = f (l.map fun x => (key x, value x))
  := by
  induction l generalizing f with
  | nil => rfl
  | cons x l ih => rw [eagerTable, eagerList_eq, eager_eq, ih, List.map_cons]

/-- Elements of the list with the same value have the same key. -/
def injectiveOn (key : β → List ℕ) (value : β → ℕ) (l : List β) : Bool :=
  eagerTable key value l fun table =>
    table.all fun p => table.all fun q => !(Nat.beq p.2 q.2) || decide (p.1 = q.1)

theorem key_eq_of_injectiveOn {key : β → List ℕ} {value : β → ℕ} {l : List β}
    (h : injectiveOn key value l = true) {x y : β} (hx : x ∈ l) (hy : y ∈ l)
    (hxy : value x = value y) :
  key x = key y
  := by
  rw [injectiveOn, eagerTable_eq, List.all_eq_true] at h
  have hp := List.all_eq_true.mp (h _ (List.mem_map_of_mem hx)) _ (List.mem_map_of_mem hy)
  rcases Bool.or_eq_true_iff.mp hp with hne | heq
  · have hbeq : Nat.beq (value x) (value y) = true := by
      rw [hxy]
      apply Nat.beq_refl
    rw [hbeq] at hne
    cases hne
  · apply of_decide_eq_true heq

/-- Split numbers by a binary digit and go on with those that have it and those that do not. -/
def split (bit : ℕ) : List ℕ → (List ℕ → List ℕ → α) → α
  | [], f => f [] []
  | n :: ns, f =>
      bif n.testBit bit then split bit ns fun xs ys => f (n :: xs) ys
      else split bit ns fun xs ys => f xs (n :: ys)

theorem split_eq (bit : ℕ) (ns : List ℕ) (f : List ℕ → List ℕ → α) :
  split bit ns f = f (ns.filter (·.testBit bit)) (ns.filter fun n => !n.testBit bit)
  := by
  induction ns generalizing f with
  | nil => rfl
  | cons n ns ih =>
      rw [split, ih, ih, List.filter_cons, List.filter_cons]
      cases n.testBit bit with
      | true => rfl
      | false => rfl

/-- The numbers are told apart by their lowest binary digits. -/
def apart : ℕ → List ℕ → Bool
  | _, [] => true
  | _, [_] => true
  | 0, _ => false
  | bit + 1, ns => split bit ns fun xs ys => apart bit xs && apart bit ys

/-- Numbers that are told apart are different. -/
theorem nodup_of_apart {bits : ℕ} {ns : List ℕ} (h : apart bits ns = true) :
  ns.Nodup
  := by
  fun_induction apart bits ns with
  | case1 => exact List.nodup_nil
  | case2 bits n => apply List.nodup_singleton n
  | case3 => cases h
  | case4 bit ns _ _ ih =>
      rw [split_eq, Bool.and_eq_true] at h
      apply (List.filter_append_perm (·.testBit bit) ns).nodup_iff.mp
      apply List.Nodup.append (ih _ h.1) (ih _ h.2)
      intro n hn hn'
      have htrue := (List.mem_filter.mp hn).2
      have hfalse := (List.mem_filter.mp hn').2
      rw [htrue] at hfalse
      cases hfalse

end Eager
