import Shade.Library.Text

/-!
# Encodings and the order of texts

A text is determined by its code units and by its UTF-8 encoding, and the order by code units is
linear on texts. Sorting by a key in that order does not depend on how a list was ordered, as long
as entries with the same key are equal.
-/

namespace Text

/-- A character is told from its code units, whatever follows them. -/
theorem unitsOf_append {c d : Char} {x y : List ℕ} (h : unitsOf c ++ x = unitsOf d ++ y) :
  c = d ∧ x = y
  := by
  have hvalid : ∀ e : Char, e.toNat < 0xd800 ∨ (0xdfff < e.toNat ∧ e.toNat < 0x110000) :=
    fun e => e.valid
  have heq : c.toNat = d.toNat → c = d := fun hcd => by
    rw [← Char.ofNat_toNat c, ← Char.ofNat_toNat d, hcd]
  have hc := hvalid c
  have hd := hvalid d
  rw [unitsOf, unitsOf] at h
  split at h
  · split at h
    · obtain ⟨hcd, hxy⟩ := List.cons.inj h
      exact ⟨heq hcd, hxy⟩
    · have hhead := (List.cons.inj h).1
      omega
  · split at h
    · have hhead := (List.cons.inj h).1
      omega
    · obtain ⟨hhigh, hrest⟩ := List.cons.inj h
      obtain ⟨hlow, hxy⟩ := List.cons.inj hrest
      exact ⟨heq (by omega), hxy⟩

theorem unitsOf_ne_nil (c : Char) (x : List ℕ) :
  unitsOf c ++ x ≠ []
  := by
  rw [unitsOf]
  split <;> simp

/-- Different texts have different code units. -/
theorem codeUnits_injective :
  Function.Injective codeUnits
  := by
  intro s t h
  induction s generalizing t with
  | nil =>
      cases t with
      | nil => rfl
      | cons d t =>
          rw [codeUnits, codeUnits, List.flatMap_nil, List.flatMap_cons] at h
          exact absurd h.symm (unitsOf_ne_nil d _)
  | cons c s ih =>
      cases t with
      | nil =>
          rw [codeUnits, codeUnits, List.flatMap_nil, List.flatMap_cons] at h
          exact absurd h (unitsOf_ne_nil c _)
      | cons d t =>
          rw [codeUnits, codeUnits, List.flatMap_cons, List.flatMap_cons] at h
          obtain ⟨rfl, hrest⟩ := unitsOf_append h
          rw [ih hrest]

/-- Different texts have different encodings. -/
theorem utf8_injective :
  Function.Injective utf8
  := by
  intro s t h
  have hencode : s.utf8Encode = t.utf8Encode := congrArg List.toByteArray h
  have hdecode := congrArg ByteArray.utf8Decode? hencode
  rw [List.utf8Decode?_utf8Encode, List.utf8Decode?_utf8Encode] at hdecode
  simpa using Option.some.inj hdecode

theorem notAfter_iff {s t : Text} :
  NotAfter s t ↔ codeUnits s ≤ codeUnits t
  := by
  rw [NotAfter, not_lt]

/-- Sorting by a key in the order of code units gives the same list for all orders of the entries,
if entries with the same key are equal. -/
theorem insertionSort_eq_of_perm {α : Type} (key : α → Text) {l l' : List α} (hperm : l.Perm l')
    (hkey : ∀ a ∈ l, ∀ b ∈ l, key a = key b → a = b) :
  l.insertionSort (fun x y => NotAfter (key x) (key y))
    = l'.insertionSort (fun x y => NotAfter (key x) (key y))
  := by
  have htotal : Std.Total fun x y : α => NotAfter (key x) (key y) := by
    constructor
    intro x y
    rw [notAfter_iff, notAfter_iff]
    apply le_total
  have htrans : IsTrans α fun x y => NotAfter (key x) (key y) := by
    constructor
    intro x y z hxy hyz
    rw [notAfter_iff] at hxy hyz ⊢
    apply hxy.trans hyz
  let r : α → α → Prop := fun x y => NotAfter (key x) (key y)
  have hsorted : ∀ l : List α, (l.insertionSort r).Pairwise r := List.pairwise_insertionSort r
  have hperm' : (l.insertionSort r).Perm (l'.insertionSort r) :=
    ((List.perm_insertionSort r l).trans hperm).trans (List.perm_insertionSort r l').symm
  apply List.Perm.eq_of_pairwise _ (hsorted l) (hsorted l') hperm'
  intro a b ha hb hab hba
  have hle := notAfter_iff.mp hab
  have hge := notAfter_iff.mp hba
  rw [List.mem_insertionSort] at ha hb
  apply hkey a ha b (hperm.mem_iff.mpr hb)
  apply codeUnits_injective (le_antisymm hle hge)

end Text
