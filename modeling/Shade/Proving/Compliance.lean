import Shade.Circuit.Compliance
import Shade.Library.Text

/-!
# The compliance witness builder

`buildComplianceWitness` prepares the input of the compliance circuit: it looks up the label
in the allow list, checks that the deny list is sorted, finds two neighbours in it that bound
the label and asks coinutils for the three Merkle proofs. Labels, indices and field elements
are decimal texts, and a text that is none makes `BigInt` throw.

Coinutils is a parameter: given the leaves of a tree, an index and a depth it prints a proof,
or fails.
-/

namespace Shade.Proving

open Text

/-- A Merkle proof that coinutils prints. -/
structure MProof where
  root : Text
  leafIndex : ℕ
  siblings : List Text
deriving DecidableEq

/-- The parameters of a compliance proof. -/
structure ComplianceParams where
  label : Text
  allowLabels : List Text
  denyLabels : List Text
  policyId : Text
deriving DecidableEq

/-- The input of the compliance circuit. -/
structure ComplianceInput where
  allowRoot : Text
  denyRoot : Text
  policyId : Text
  label : Text
  allowIndex : Text
  allowSiblings : List Text
  denyLo : Text
  denyLoIndex : Text
  denyLoSiblings : List Text
  denyHi : Text
  denyHiIndex : Text
  denyHiSiblings : List Text
deriving DecidableEq

/-- `BigInt` on a text. -/
def bigInt (t : Text) : Except String ℤ :=
  match toInt? t with
  | some z => .ok z
  | none => .error ("Cannot convert " ++ String.ofList t ++ " to a BigInt")

/-- The first loop: every label is above the one before. -/
def checkSorted : List Text → Except String Unit
  | x :: y :: labels => do
      let b ← bigInt y
      let a ← bigInt x
      if b ≤ a then
        .error "deny labels must be strictly sorted ascending"
      else
        checkSorted (y :: labels)
  | _ => .ok ()

/-- The second loop: the first index, counted from a given one, at which a label is below and
the next label above. -/
def findLo (label : Text) : List Text → ℕ → Except String (Option ℕ)
  | x :: y :: labels, i => do
      let a ← bigInt x
      let z ← bigInt label
      if a < z then
        let b ← bigInt y
        if z < b then
          .ok (some i)
        else
          findLo label (y :: labels) (i + 1)
      else
        findLo label (y :: labels) (i + 1)
  | _, _ => .ok none

/-- Build the input of the circuit, whose trees have depth `2`. -/
def buildComplianceWitness (merkleProof : List Text → ℕ → ℕ → Except String MProof)
    (p : ComplianceParams) : Except String ComplianceInput :=
  match p.allowLabels.idxOf? p.label with
  | none => .error "label not in allow set"
  | some allowIdx => do
      checkSorted p.denyLabels
      match ← findLo p.label p.denyLabels 0 with
      | none =>
          .error "no adjacent deny leaves bound the label (is it denied, or out of sentinel range?)"
      | some loIdx =>
          let allowP ← merkleProof p.allowLabels allowIdx 2
          let loP ← merkleProof p.denyLabels loIdx 2
          let hiP ← merkleProof p.denyLabels (loIdx + 1) 2
          pure
            { allowRoot := allowP.root
              denyRoot := loP.root
              policyId := p.policyId
              label := p.label
              allowIndex := decimal allowIdx
              allowSiblings := allowP.siblings
              denyLo := p.denyLabels.getD loIdx []
              denyLoIndex := decimal loIdx
              denyLoSiblings := loP.siblings
              denyHi := p.denyLabels.getD (loIdx + 1) []
              denyHiIndex := decimal (loIdx + 1 : ℕ)
              denyHiSiblings := hiP.siblings }

/-! ### The input as signals -/

/-- The field element that a text denotes. -/
def readFr (t : Text) : Option Fr := (toInt? t).map fun z : ℤ => (z : Fr)

open ComplianceMembership in
/-- The input signals of an assignment are those that the texts of an input denote. -/
structure ComplianceInput.Denotes (i : ComplianceInput) (a : Assignment 2 2) : Prop where
  allowRoot : readFr i.allowRoot = some a.allowRoot
  denyRoot : readFr i.denyRoot = some a.denyRoot
  policyId : readFr i.policyId = some a.policyId
  label : readFr i.label = some a.label
  allowIndex : readFr i.allowIndex = some a.allowP.leafIndex
  allowSiblings : i.allowSiblings.map readFr = a.allowP.siblings.toList.map some
  denyLo : readFr i.denyLo = some a.denyLo
  denyLoIndex : readFr i.denyLoIndex = some a.loP.leafIndex
  denyLoSiblings : i.denyLoSiblings.map readFr = a.loP.siblings.toList.map some
  denyHi : readFr i.denyHi = some a.denyHi
  denyHiIndex : readFr i.denyHiIndex = some a.hiP.leafIndex
  denyHiSiblings : i.denyHiSiblings.map readFr = a.hiP.siblings.toList.map some

/-! ### What the builder does -/

/-- The numbers of two texts are in strict order. -/
def Below (x y : Text) : Prop := ∃ a b, toInt? x = some a ∧ toInt? y = some b ∧ a < b

theorem Below.trans {x y z : Text} (h : Below x y) (h' : Below y z) :
  Below x z
  := by
  obtain ⟨a, b, ha, hb, hab⟩ := h
  obtain ⟨b', c, hb', hc, hbc⟩ := h'
  obtain rfl := Option.some.inj (hb.symm.trans hb')
  use a, c, ha, hc, hab.trans hbc

instance : Trans Below Below Below := ⟨Below.trans⟩

/-- A computation that starts with a number succeeds if the text denotes one. -/
theorem bigInt_bind_ok {β : Type} {t : Text} {f : ℤ → Except String β} {b : β} :
  (bigInt t >>= f) = .ok b ↔ ∃ z, toInt? t = some z ∧ f z = .ok b
  := by
  rw [bigInt]
  cases toInt? t with
  | none =>
      constructor
      · intro h
        cases h
      · rintro ⟨z, hz, -⟩
        cases hz
  | some z =>
      constructor
      · intro h
        use z, rfl, h
      · rintro ⟨z', hz', h⟩
        obtain rfl := Option.some.inj hz'
        exact h

/-- The first loop passes exactly if the labels denote strictly increasing numbers. -/
theorem checkSorted_iff (labels : List Text) :
  checkSorted labels = .ok () ↔ labels.Pairwise Below
  := by
  rw [← List.isChain_iff_pairwise]
  fun_induction checkSorted labels with
  | case1 x y labels ih =>
      rw [bigInt_bind_ok, List.isChain_cons_cons, ← ih]
      constructor
      · rintro ⟨b, hb, h⟩
        obtain ⟨a, ha, h⟩ := bigInt_bind_ok.mp h
        split at h
        · cases h
        · next hlt => exact ⟨⟨a, b, ha, hb, lt_of_not_ge hlt⟩, h⟩
      · rintro ⟨⟨a, b, ha, hb, hlt⟩, h⟩
        use b, hb
        apply bigInt_bind_ok.mpr
        use a, ha
        rw [if_neg (not_le_of_gt hlt), h]
  | case2 labels h =>
      match labels with
      | [] => simp
      | [x] => simp
      | x :: y :: labels => exact absurd rfl (h x y labels)

/-- What the second loop finds are two neighbours that bound the label. -/
theorem findLo_eq_some {label : Text} {labels : List Text} {k i : ℕ}
    (h : findLo label labels k = .ok (some i)) :
  ∃ j, i = k + j ∧ ∃ hj : j + 1 < labels.length,
    Below labels[j] label ∧ Below label labels[j + 1]
  := by
  have hnext : ∀ {x y : Text} {labels : List Text} {k : ℕ},
      (∃ j, i = k + 1 + j ∧ ∃ hj : j + 1 < (y :: labels).length,
        Below (y :: labels)[j] label ∧ Below label (y :: labels)[j + 1]) →
      ∃ j, i = k + j ∧ ∃ hj : j + 1 < (x :: y :: labels).length,
        Below (x :: y :: labels)[j] label ∧ Below label (x :: y :: labels)[j + 1] := by
    rintro x y labels k ⟨j, rfl, hj, hlo, hhi⟩
    exact ⟨j + 1, by omega, Nat.succ_lt_succ hj, hlo, hhi⟩
  fun_induction findLo label labels k with
  | case1 x y labels k ih =>
      obtain ⟨a, ha, h⟩ := bigInt_bind_ok.mp h
      obtain ⟨z, hz, h⟩ := bigInt_bind_ok.mp h
      split at h
      · next haz =>
          obtain ⟨b, hb, h⟩ := bigInt_bind_ok.mp h
          split at h
          · next hzb =>
              cases h
              exact ⟨0, rfl, by simp, ⟨a, z, ha, hz, haz⟩, ⟨z, b, hz, hb, hzb⟩⟩
          · apply hnext (ih h)
      · apply hnext (ih h)
  | case2 labels k hne => cases h

/-- The second loop finds two neighbours that bound the label if there are any and all texts
denote numbers. -/
theorem exists_findLo {label : Text} {labels : List Text}
    (hlabels : ∀ t ∈ labels, ∃ a, toInt? t = some a) {j : ℕ} (hj : j + 1 < labels.length)
    (hlo : Below labels[j] label) (hhi : Below label labels[j + 1]) (k : ℕ) :
  ∃ i, findLo label labels k = .ok (some i)
  := by
  fun_induction findLo label labels k generalizing j with
  | case1 x y labels k ih =>
      obtain ⟨a, ha⟩ := hlabels x (by simp)
      obtain ⟨b, hb⟩ := hlabels y (by simp)
      obtain ⟨-, z, -, hz, -⟩ := id hlo
      have hrest : ¬ (a < z ∧ z < b) → ∃ i, findLo label (y :: labels) (k + 1) = .ok (some i) := by
        intro hnot
        cases j with
        | zero =>
            obtain ⟨a', z', ha', hz', haz⟩ := hlo
            obtain ⟨z'', b', hz'', hb', hzb⟩ := hhi
            simp only [List.getElem_cons_zero, List.getElem_cons_succ, ha, hb, Option.some.injEq]
              at ha' hb'
            obtain rfl := Option.some.inj (hz.symm.trans hz')
            obtain rfl := Option.some.inj (hz.symm.trans hz'')
            subst ha' hb'
            exact absurd ⟨haz, hzb⟩ hnot
        | succ j =>
            apply ih (fun t ht => hlabels t (List.mem_cons_of_mem x ht))
              (Nat.lt_of_succ_lt_succ hj) hlo hhi
      by_cases hbounds : a < z ∧ z < b
      · use k
        refine bigInt_bind_ok.mpr ⟨a, ha, bigInt_bind_ok.mpr ⟨z, hz, ?_⟩⟩
        rw [if_pos hbounds.1]
        refine bigInt_bind_ok.mpr ⟨b, hb, ?_⟩
        rw [if_pos hbounds.2]
      · obtain ⟨i, hi⟩ := hrest hbounds
        use i
        refine bigInt_bind_ok.mpr ⟨a, ha, bigInt_bind_ok.mpr ⟨z, hz, ?_⟩⟩
        split
        · refine bigInt_bind_ok.mpr ⟨b, hb, ?_⟩
          rw [if_neg (by tauto), hi]
        · exact hi
  | case2 labels k hne =>
      match labels, hj with
      | x :: y :: labels, _ => exact absurd rfl (hne x y labels)

/-- An input is only built if the deny labels are sorted and two of them bound the label. -/
theorem of_buildComplianceWitness {merkleProof : List Text → ℕ → ℕ → Except String MProof}
    {p : ComplianceParams} {input : ComplianceInput}
    (h : buildComplianceWitness merkleProof p = .ok input) :
  p.denyLabels.Pairwise Below
    ∧ ∃ j, ∃ hj : j + 1 < p.denyLabels.length,
      Below p.denyLabels[j] p.label ∧ Below p.label p.denyLabels[j + 1]
  := by
  rw [buildComplianceWitness] at h
  cases hidx : p.allowLabels.idxOf? p.label with
  | none =>
      rw [hidx] at h
      cases h
  | some allowIdx =>
      rw [hidx] at h
      cases hsorted : checkSorted p.denyLabels with
      | error e =>
          simp only [hsorted] at h
          cases h
      | ok u =>
          use (checkSorted_iff _).mp hsorted
          simp only [hsorted] at h
          cases hfind : findLo p.label p.denyLabels 0 with
          | error e =>
              rw [hfind] at h
              cases h
          | ok found =>
              cases found with
              | none =>
                  rw [hfind] at h
                  cases h
              | some i =>
                  obtain ⟨j, -, hj, hbounds⟩ := findLo_eq_some hfind
                  use j, hj

/-- The input that is built, given the indices and the proofs. -/
theorem buildComplianceWitness_eq {merkleProof : List Text → ℕ → ℕ → Except String MProof}
    {p : ComplianceParams} {allowIdx loIdx : ℕ} {allowP loP hiP : MProof}
    (hidx : p.allowLabels.idxOf? p.label = some allowIdx)
    (hsorted : checkSorted p.denyLabels = .ok ())
    (hfind : findLo p.label p.denyLabels 0 = .ok (some loIdx))
    (hallow : merkleProof p.allowLabels allowIdx 2 = .ok allowP)
    (hlo : merkleProof p.denyLabels loIdx 2 = .ok loP)
    (hhi : merkleProof p.denyLabels (loIdx + 1) 2 = .ok hiP) :
  buildComplianceWitness merkleProof p = .ok
    { allowRoot := allowP.root
      denyRoot := loP.root
      policyId := p.policyId
      label := p.label
      allowIndex := decimal allowIdx
      allowSiblings := allowP.siblings
      denyLo := p.denyLabels.getD loIdx []
      denyLoIndex := decimal loIdx
      denyLoSiblings := loP.siblings
      denyHi := p.denyLabels.getD (loIdx + 1) []
      denyHiIndex := decimal (loIdx + 1 : ℕ)
      denyHiSiblings := hiP.siblings }
  := by
  rw [buildComplianceWitness, hidx]
  simp only [hsorted, hfind, hallow, hlo, hhi, bind, Except.bind, pure, Except.pure]

end Shade.Proving
