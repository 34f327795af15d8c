import Shade.Library.Json

/-!
# JSON values up to the order of members

A value is normal if the members of its objects are in the order of their names, at every depth.
Every value has a normal form, and two values have the same normal form if they are equal up to the
order of members, provided that the names that occur are ordered and that no object has two members
with the same name.
-/

namespace Json

open Text

/-! ### The order of members -/

/-- A relation is an order on the names that are used. -/
structure Orders (le : Text → Text → Bool) (used : Text → Prop) : Prop where
  antisymm : ∀ j k, used j → used k → le j k = true → le k j = true → j = k
  trans : ∀ i j k, used i → used j → used k → le i j = true → le j k = true → le i k = true
  total : ∀ j k, used j → used k → le j k = true ∨ le k j = true

/-- The members in the order of their names. -/
def sortFields {α : Type} (le : Text → Text → Bool) (fields : List (Text × α)) :
    List (Text × α) :=
  fields.mergeSort fun f g => le f.1 g.1

section

variable {α β : Type} {le : Text → Text → Bool} {used : Text → Prop}

/-- Members are sorted by their names alone. -/
theorem map_sortFields (g : α → β) (fields : List (Text × α)) :
  (sortFields le fields).map (fun f => (f.1, g f.2))
    = sortFields le (fields.map fun f => (f.1, g f.2))
  := by
  apply List.map_mergeSort
  intro f _ f' _
  rfl

theorem perm_sortFields (fields : List (Text × α)) :
  (sortFields le fields).Perm fields
  := by
  apply List.mergeSort_perm

theorem pairwise_sortFields (horder : Orders le used) {fields : List (Text × α)}
    (hused : ∀ f ∈ fields, used f.1) :
  (sortFields le fields).Pairwise fun f g => le f.1 g.1 = true
  := by
  have hattach : (fields.attach.mergeSort fun f g => le f.1.1 g.1.1).map Subtype.val
      = sortFields le fields := by
    rw [List.map_mergeSort (s := fun f g => le f.1 g.1), List.attach_map_subtype_val]
    · rfl
    · intro f _ g _
      rfl
  rw [← hattach, List.pairwise_map]
  apply List.pairwise_mergeSort
  · intro f g h
    apply horder.trans
    · apply hused _ f.2
    · apply hused _ g.2
    · apply hused _ h.2
  · intro f g
    rw [Bool.or_eq_true]
    apply horder.total _ _ (hused _ f.2) (hused _ g.2)

/-- The order in which members with different names are given does not matter. -/
theorem sortFields_eq_of_perm (horder : Orders le used) {fields fields' : List (Text × α)}
    (hused : ∀ f ∈ fields, used f.1) (hnames : (fields.map Prod.fst).Nodup)
    (hperm : fields.Perm fields') :
  sortFields le fields = sortFields le fields'
  := by
  have hused' : ∀ f ∈ fields', used f.1 := by
    intro f hf
    apply hused f (hperm.mem_iff.mpr hf)
  have hsorted : (sortFields le fields).Perm (sortFields le fields') :=
    (perm_sortFields fields).trans (hperm.trans (perm_sortFields fields').symm)
  apply List.Perm.eq_of_pairwise _ (pairwise_sortFields horder hused)
    (pairwise_sortFields horder hused') hsorted
  intro f g hf hg hfg hgf
  have hf := (perm_sortFields fields).mem_iff.mp hf
  have hg := hperm.mem_iff.mpr ((perm_sortFields fields').mem_iff.mp hg)
  apply List.inj_on_of_nodup_map hnames hf hg
  apply horder.antisymm _ _ (hused f hf) (hused g hg) hfg hgf

end

/-! ### Normal forms -/

variable (le : Text → Text → Bool)

mutual

/-- The value with the members of its objects in the order of their names. -/
def normalize : Json → Json
  | .array items => .array (normalizeItems items)
  | .object fields => .object (sortFields le (normalizeFields fields))
  | v => v

/-- The items with the members of their objects in the order of their names. -/
def normalizeItems : List Json → List Json
  | [] => []
  | v :: vs => normalize v :: normalizeItems vs

/-- The members with the members of their objects in the order of their names. -/
def normalizeFields : List (Text × Json) → List (Text × Json)
  | [] => []
  | (k, v) :: rest => (k, normalize v) :: normalizeFields rest

end

theorem normalizeItems_eq (items : List Json) :
  normalizeItems le items = items.map (normalize le)
  := by
  apply eq_map rfl
  intro v vs
  rw [normalizeItems]

theorem normalizeFields_eq (fields : List (Text × Json)) :
  normalizeFields le fields = fields.map fun f => (f.1, normalize le f.2)
  := by
  apply eq_map rfl
  intro f rest
  rw [normalizeFields]

/-! ### Equality up to the order of members -/

mutual

/-- Two values are equal up to the order of the members of objects, at every depth. -/
inductive Same : Json → Json → Prop
  | refl (v : Json) : Same v v
  | array {items items' : List Json} :
      List.Forall₂ Same items items' → Same (.array items) (.array items')
  | object {fields reordered fields' : List (Text × Json)} :
      List.Forall₂ SameMember fields reordered → reordered.Perm fields' →
      Same (.object fields) (.object fields')

/-- Two members have the same name, and their values are equal up to order. -/
inductive SameMember : Text × Json → Text × Json → Prop
  | member (k : Text) {v w : Json} : Same v w → SameMember (k, v) (k, w)

end

/-- No object in the value has two members with the same name. -/
def NamesDistinct (v : Json) : Prop :=
  ¬ v.Contains fun u => ∃ fields, u = .object fields ∧ ¬ (fields.map Prod.fst).Nodup

/-- A member with the name occurs in the value. -/
def UsesName (v : Json) (k : Text) : Prop := v.Contains (HasName [k])

variable {le} {items : List Json} {fields : List (Text × Json)}

theorem NamesDistinct.item (h : NamesDistinct (.array items)) {v : Json} (hv : v ∈ items) :
  NamesDistinct v
  := by
  intro hc
  apply h (Contains.item hv hc)

theorem NamesDistinct.member (h : NamesDistinct (.object fields)) {f : Text × Json}
    (hf : f ∈ fields) :
  NamesDistinct f.2
  := by
  intro hc
  apply h (Contains.member hf hc)

theorem NamesDistinct.nodup (h : NamesDistinct (.object fields)) :
  (fields.map Prod.fst).Nodup
  := by
  by_contra hnot
  apply h (Contains.here ⟨fields, rfl, hnot⟩)

theorem UsesName.item {v : Json} (hv : v ∈ items) {k : Text} (h : UsesName v k) :
  UsesName (.array items) k
  := by
  apply Contains.item hv h

theorem UsesName.member {f : Text × Json} (hf : f ∈ fields) {k : Text} (h : UsesName f.2 k) :
  UsesName (.object fields) k
  := by
  apply Contains.member hf h

theorem usesName_of_mem {f : Text × Json} (hf : f ∈ fields) :
  UsesName (.object fields) f.1
  := by
  apply Contains.here ⟨fields, rfl, f, hf, List.mem_singleton_self f.1⟩

/-- An order on names is one on fewer names. -/
theorem Orders.mono {used used' : Text → Prop} (horder : Orders le used)
    (h : ∀ k, used' k → used k) :
  Orders le used'
  := by
  constructor
  · intro j k hj hk
    apply horder.antisymm j k (h j hj) (h k hk)
  · intro i j k hi hj hk
    apply horder.trans i j k (h i hi) (h j hj) (h k hk)
  · intro j k hj hk
    apply horder.total j k (h j hj) (h k hk)

/-- Lists of members that are the same after a change are the same in some order before it. -/
theorem exists_reordered {fields' : List (Text × Json)} (g : Json → Json)
    (hperm : (fields.map fun f => (f.1, g f.2)).Perm (fields'.map fun f => (f.1, g f.2))) :
  ∃ reordered, List.Forall₂ (fun f f' => f.1 = f'.1 ∧ g f.2 = g f'.2) fields reordered
    ∧ reordered.Perm fields'
  := by
  have hchanged : List.Forall₂ (fun e f => e = (f.1, g f.2))
      (fields'.map fun f => (f.1, g f.2)) fields' := by
    rw [List.forall₂_map_left_iff, List.forall₂_same]
    intro f _
    rfl
  obtain ⟨reordered, hfields, hre⟩ := List.perm_comp_forall₂ hperm hchanged
  rw [List.forall₂_map_left_iff] at hfields
  use reordered, hfields.imp fun f f' h => Prod.mk.inj h, hre

/-- Values with the same normal form are equal up to the order of members. -/
theorem same_of_normalize_eq (v w : Json) (h : normalize le v = normalize le w) :
  Same v w
  := by
  induction v using parts_induction generalizing w with
  | null =>
      cases w with
      | null =>
          cases h
          apply Same.refl
      | _ => cases h
  | bool b =>
      cases w with
      | bool b' =>
          cases h
          apply Same.refl
      | _ => cases h
  | number q =>
      cases w with
      | number r =>
          cases h
          apply Same.refl
      | _ => cases h
  | string s =>
      cases w with
      | string t =>
          cases h
          apply Same.refl
      | _ => cases h
  | array items ih =>
      cases w with
      | array items' =>
          rw [normalize, normalize, array.injEq, normalizeItems_eq, normalizeItems_eq,
            ← List.forall₂_eq_eq_eq, List.forall₂_map_left_iff, List.forall₂_map_right_iff] at h
          have hboth := (List.forall₂_and_left _ _).mpr ⟨ih, h⟩
          apply Same.array (hboth.imp fun u u' hu => hu.1 u' hu.2)
      | _ => cases h
  | object fields ih =>
      cases w with
      | object fields' =>
          rw [normalize, normalize, object.injEq, normalizeFields_eq, normalizeFields_eq] at h
          have hperm := ((perm_sortFields _).symm.trans (List.Perm.of_eq h)).trans
            (perm_sortFields _)
          obtain ⟨reordered, hfields, hre⟩ := exists_reordered (normalize le) hperm
          have hboth := (List.forall₂_and_left _ _).mpr ⟨ih, hfields⟩
          have hsame : List.Forall₂ SameMember fields reordered := by
            apply hboth.imp
            rintro ⟨k, u⟩ ⟨k', u'⟩ ⟨ihu, hname, hvalue⟩
            obtain rfl : k = k' := hname
            apply SameMember.member k (ihu u' hvalue)
          apply Same.object hsame hre
      | _ => cases h

/-- Values that are equal up to the order of members have the same normal form. -/
theorem normalize_eq_of_same (v w : Json) (h : Same v w) (hv : NamesDistinct v)
    (horder : Orders le (UsesName v)) :
  normalize le v = normalize le w
  := by
  induction v using parts_induction generalizing w with
  | null => cases h; rfl
  | bool b => cases h; rfl
  | number q => cases h; rfl
  | string s => cases h; rfl
  | array items ih =>
      cases h with
      | refl => rfl
      | array hitems =>
          rw [normalize, normalize, array.injEq, normalizeItems_eq, normalizeItems_eq,
            ← List.forall₂_eq_eq_eq, List.forall₂_map_left_iff, List.forall₂_map_right_iff]
          have heach : ∀ u ∈ items, ∀ u', Same u u' → normalize le u = normalize le u' := by
            intro u hu u' hsame
            apply ih u hu u' hsame (hv.item hu) (horder.mono fun k => UsesName.item hu)
          have hboth := (List.forall₂_and_left _ _).mpr ⟨heach, hitems⟩
          apply hboth.imp fun u u' hu => hu.1 u' hu.2
  | object fields ih =>
      cases h with
      | refl => rfl
      | @object _ reordered fields' hfields hre =>
          have heach : ∀ f ∈ fields, ∀ u', Same f.2 u' → normalize le f.2 = normalize le u' := by
            intro f hf u' hsame
            apply ih f hf u' hsame (hv.member hf) (horder.mono fun k => UsesName.member hf)
          have hboth := (List.forall₂_and_left _ _).mpr ⟨heach, hfields⟩
          have hchanged : fields.map (fun f => (f.1, normalize le f.2))
              = reordered.map (fun f => (f.1, normalize le f.2)) := by
            rw [← List.forall₂_eq_eq_eq, List.forall₂_map_left_iff, List.forall₂_map_right_iff]
            apply hboth.imp
            rintro _ _ ⟨hf, ⟨k, hsame⟩⟩
            rw [hf _ hsame]
          rw [normalize, normalize, object.injEq, normalizeFields_eq, normalizeFields_eq]
          apply sortFields_eq_of_perm horder
          · intro e he
            obtain ⟨f, hf, rfl⟩ := List.mem_map.mp he
            apply usesName_of_mem hf
          · rw [List.map_map]
            apply hv.nodup
          · rw [hchanged]
            apply hre.map

/-- The normal form determines a value up to the order of members. -/
theorem normalize_eq_iff {v w : Json} (hv : NamesDistinct v) (horder : Orders le (UsesName v)) :
  normalize le v = normalize le w ↔ Same v w
  := by
  constructor
  · apply same_of_normalize_eq
  · intro h
    apply normalize_eq_of_same v w h hv horder

/-- The order of members does not matter for the names that occur. -/
theorem isSome_findName_normalize (names : List Text) (v : Json) :
  (findName names (normalize le v)).isSome ↔ (findName names v).isSome
  := by
  induction v using parts_induction with
  | array items ih =>
      rw [normalize, normalizeItems_eq, findName, findName, isSome_findNameItems,
        isSome_findNameItems]
      constructor
      · rintro ⟨_, hw, hname⟩
        obtain ⟨v, hv, rfl⟩ := List.mem_map.mp hw
        exact ⟨v, hv, (ih v hv).mp hname⟩
      · rintro ⟨v, hv, hname⟩
        exact ⟨_, List.mem_map_of_mem hv, (ih v hv).mpr hname⟩
  | object fields ih =>
      have hmem : ∀ f : Text × Json, f ∈ sortFields le (normalizeFields le fields)
          ↔ ∃ g ∈ fields, (g.1, normalize le g.2) = f := by
        intro f
        rw [(perm_sortFields (normalizeFields le fields)).mem_iff, normalizeFields_eq,
          List.mem_map]
      rw [normalize, findName, findName, isSome_findNameFields, isSome_findNameFields]
      apply or_congr
      · constructor
        · rintro ⟨f, hf, hname⟩
          obtain ⟨g, hg, rfl⟩ := (hmem f).mp hf
          exact ⟨g, hg, hname⟩
        · rintro ⟨g, hg, hname⟩
          exact ⟨_, (hmem _).mpr ⟨g, hg, rfl⟩, hname⟩
      · constructor
        · rintro ⟨f, hf, hname⟩
          obtain ⟨g, hg, rfl⟩ := (hmem f).mp hf
          exact ⟨g, hg, (ih g hg).mp hname⟩
        · rintro ⟨g, hg, hname⟩
          exact ⟨_, (hmem _).mpr ⟨g, hg, rfl⟩, (ih g hg).mpr hname⟩
  | _ => rfl

end Json
