import Shade.Client.NoteManager

/-!
# The states of notes

The operations on a vault keep a table from commitments to notes: a note that is added replaces one
with the same commitment and is prepared, and a change of the status reaches the note of one
commitment. `notes_represent` says that a vault that was empty is such a table after any operations.
Therefore no note is counted twice, and the balance is the sum over all commitments.
-/

namespace Shade.Client.NoteManager

open Text

/-- An operation on the notes of a vault. -/
inductive Operation where
  | addNote (p : AddNoteParams) (now : Text)
  | activate (commitment now : Text)
  | markSpent (commitment now : Text)

/-- The vault after an operation. -/
def Operation.onVault : Operation → NoteVault → NoteVault
  | .addNote p now, vault => NoteManager.addNote vault p now
  | .activate commitment now, vault => NoteManager.activate vault commitment now
  | .markSpent commitment now, vault => NoteManager.markSpent vault commitment now

/-- The vault after operations. -/
def vaultAfter (vault : NoteVault) (ops : List Operation) : NoteVault :=
  ops.foldl (fun vault op => op.onVault vault) vault

/-! ### The table of notes -/

/-- A note as it is added. -/
def newNote (p : AddNoteParams) (now : Text) : VaultNote :=
  ⟨p.commitment, p.assetId, p.amount7dp, p.notePreimage, p.depositId, .prepared, now⟩

/-- The table after an operation. -/
def Operation.onTable : Operation → (Text → Option VaultNote) → Text → Option VaultNote
  | .addNote p now, table => Function.update table p.commitment (some (newNote p now))
  | .activate commitment _, table =>
      Function.update table commitment
        ((table commitment).map fun n => { n with status := .active })
  | .markSpent commitment _, table =>
      Function.update table commitment
        ((table commitment).map fun n => { n with status := .spent })

/-- The table after operations. -/
def tableAfter (ops : List Operation) : Text → Option VaultNote :=
  ops.foldl (fun table op => op.onTable table) fun _ => none

/-- What a note contributes to the balance. -/
def balanceOf : Option VaultNote → ℤ
  | some n => if n.status = .active then (toInt? n.amount7dp).getD 0 else 0
  | none => 0

/-- The notes of a vault have different commitments and are those of a table. -/
structure Represents (vault : NoteVault) (table : Text → Option VaultNote) : Prop where
  nodup : (vault.notes.map VaultNote.commitment).Nodup
  find : ∀ commitment, find vault commitment = table commitment

variable {vault : NoteVault} {table : Text → Option VaultNote}

theorem commitment_of_find {commitment : Text} {n : VaultNote}
    (h : find vault commitment = some n) :
  n ∈ vault.notes ∧ n.commitment = commitment
  := ⟨List.mem_of_find?_eq_some h, of_decide_eq_true (List.find?_some h :)⟩

/-- A note of the vault is found. -/
theorem find_of_mem (h : (vault.notes.map VaultNote.commitment).Nodup) {n : VaultNote}
    (hn : n ∈ vault.notes) :
  find vault n.commitment = some n
  := by
  have hsome : (find vault n.commitment).isSome := by
    rw [find, List.find?_isSome]
    exact ⟨n, hn, decide_eq_true rfl⟩
  obtain ⟨n', hn'⟩ := Option.isSome_iff_exists.mp hsome
  obtain ⟨hmem, heq⟩ := commitment_of_find hn'
  rw [hn', List.inj_on_of_nodup_map h hmem hn heq]

/-- A note that is added takes the place of one with the same commitment. -/
theorem Represents.addNote (h : Represents vault table) (p : AddNoteParams) (now : Text) :
  Represents (NoteManager.addNote vault p now) ((Operation.addNote p now).onTable table)
  := by
  have hnotes : (NoteManager.addNote vault p now).notes
      = (vault.notes.filter fun n => n.commitment ≠ p.commitment) ++ [newNote p now] := rfl
  constructor
  · rw [hnotes, List.map_append, List.nodup_append]
    refine ⟨?_, List.nodup_singleton _, ?_⟩
    · apply List.Nodup.sublist _ h.nodup
      apply List.Sublist.map
      apply List.filter_sublist
    · rintro c hc d hd rfl
      obtain ⟨n, hn, rfl⟩ := List.mem_map.mp hc
      apply of_decide_eq_true (List.mem_filter.mp hn).2
      exact List.mem_singleton.mp hd
  · intro commitment
    have hfind := h.find commitment
    rw [NoteManager.find] at hfind
    rw [NoteManager.find, hnotes, List.find?_append, List.find?_filter, Operation.onTable]
    by_cases hc : commitment = p.commitment
    · have hnone : vault.notes.find? (fun n => decide (decide (n.commitment ≠ p.commitment) = true
          ∧ decide (n.commitment = commitment) = true)) = none := by
        rw [List.find?_eq_none]
        intro n _
        simp [hc]
      rw [hnone, hc, Function.update_self, Option.none_or, List.find?_singleton]
      apply if_pos
      exact decide_eq_true rfl
    · have hsame : (fun n : VaultNote => decide (decide (n.commitment ≠ p.commitment) = true
          ∧ decide (n.commitment = commitment) = true))
          = fun n => decide (n.commitment = commitment) := by
        funext n
        by_cases hn : n.commitment = commitment
        · simp [hn, hc]
        · simp [hn]
      have hnew : ([newNote p now].find? fun n => decide (n.commitment = commitment)) = none := by
        rw [List.find?_singleton]
        apply if_neg
        intro hnew
        apply hc (of_decide_eq_true hnew).symm
      rw [hsame, hnew, hfind, Function.update_of_ne hc, Option.or_none]

/-- A change of the status reaches the note of one commitment. -/
theorem Represents.setStatus (h : Represents vault table) (status : NoteStatus)
    (commitment now : Text) :
  Represents (setStatus status vault commitment now)
    (Function.update table commitment ((table commitment).map fun n => { n with status := status }))
  := by
  have hnotes : (NoteManager.setStatus status vault commitment now).notes
      = vault.notes.map fun n =>
        if n.commitment = commitment then { n with status := status } else n := rfl
  have hkey : ∀ n : VaultNote, (if n.commitment = commitment then { n with status := status }
      else n : VaultNote).commitment = n.commitment := by
    intro n
    split
    · rfl
    · rfl
  constructor
  · have hmap : (NoteManager.setStatus status vault commitment now).notes.map VaultNote.commitment
        = vault.notes.map VaultNote.commitment := by
      rw [hnotes, List.map_map]
      apply List.map_congr_left
      intro n _
      apply hkey
    rw [hmap]
    apply h.nodup
  · intro c
    have hfind : NoteManager.find (NoteManager.setStatus status vault commitment now) c
        = (NoteManager.find vault c).map fun n =>
          if n.commitment = commitment then { n with status := status } else n := by
      rw [NoteManager.find, hnotes, List.find?_map, NoteManager.find]
      congr 2
      funext n
      rw [Function.comp_apply, hkey]
    rw [hfind, ← h.find commitment]
    by_cases hc : c = commitment
    · subst hc
      rw [Function.update_self]
      cases hn : NoteManager.find vault c with
      | none => rfl
      | some n => rw [Option.map_some, Option.map_some, if_pos (commitment_of_find hn).2]
    · rw [Function.update_of_ne hc, ← h.find c]
      cases hn : NoteManager.find vault c with
      | none => rfl
      | some n =>
          rw [Option.map_some, if_neg]
          rw [(commitment_of_find hn).2]
          apply hc

/-- One operation. -/
theorem Represents.step (h : Represents vault table) (op : Operation) :
  Represents (op.onVault vault) (op.onTable table)
  := by
  cases op with
  | addNote p now => apply h.addNote
  | activate commitment now => apply h.setStatus
  | markSpent commitment now => apply h.setStatus

/-- Any operations. -/
theorem Represents.run (h : Represents vault table) (ops : List Operation) :
  Represents (vaultAfter vault ops) (ops.foldl (fun table op => op.onTable table) table)
  := by
  induction ops generalizing vault table with
  | nil => exact h
  | cons op ops ih => exact ih (h.step op)

/-! ### The balance -/

/-- The sum of amounts that are integers. -/
theorem foldlM_amounts (notes : List VaultNote)
    (h : ∀ n ∈ notes, (toInt? n.amount7dp).isSome) (sum : ℤ) :
  notes.foldlM (fun sum n => (toInt? n.amount7dp).map fun amount => sum + amount) sum
    = some (sum + (notes.map fun n => (toInt? n.amount7dp).getD 0).sum)
  := by
  induction notes generalizing sum with
  | nil => simp
  | cons n notes ih =>
      obtain ⟨hn, hnotes⟩ := List.forall_mem_cons.mp h
      obtain ⟨amount, hamount⟩ := Option.isSome_iff_exists.mp hn
      rw [List.foldlM_cons, hamount, Option.map_some, Option.bind_eq_bind, Option.bind_some,
        ih hnotes, List.map_cons, List.sum_cons, hamount, Option.getD_some, add_assoc]

/-- The balance is the sum over all commitments. -/
theorem Represents.totalActive7dp (h : Represents vault table)
    (hamounts : ∀ n ∈ vault.notes, (toInt? n.amount7dp).isSome) :
  totalActive7dp vault = some (finsum fun commitment => balanceOf (table commitment))
  := by
  have hsupport : Function.support (fun commitment => balanceOf (table commitment))
      ⊆ ((vault.notes.map VaultNote.commitment).toFinset : Set Text) := by
    intro c hc
    cases hn : table c with
    | none =>
        rw [Function.mem_support, hn] at hc
        exact absurd rfl hc
    | some n =>
        rw [← h.find c] at hn
        obtain ⟨hmem, rfl⟩ := commitment_of_find hn
        rw [List.coe_toFinset]
        exact List.mem_map_of_mem hmem
  have hvalues : (vault.notes.map VaultNote.commitment).map
        (fun commitment => balanceOf (table commitment))
      = vault.notes.map fun n => if n.status = .active then (toInt? n.amount7dp).getD 0 else 0 := by
    rw [List.map_map]
    apply List.map_congr_left
    intro n hn
    rw [Function.comp_apply, ← h.find, find_of_mem h.nodup hn, balanceOf]
  have hfilter : ∀ notes : List VaultNote,
      ((notes.filter fun n => n.status = .active).map fun n => (toInt? n.amount7dp).getD 0).sum
        = (notes.map fun n =>
          if n.status = .active then (toInt? n.amount7dp).getD 0 else 0).sum := by
    intro notes
    induction notes with
    | nil => rfl
    | cons n notes ih =>
        by_cases hn : n.status = .active
        · simp [hn, ih]
        · simp [hn, ih]
  rw [NoteManager.totalActive7dp, foldlM_amounts, zero_add, hfilter, ← hvalues,
    ← List.sum_toFinset _ h.nodup, finsum_eq_sum_of_support_subset _ hsupport]
  intro n hn
  apply hamounts n (List.mem_filter.mp hn).1

/-- After any operations on a vault without notes, its notes have different commitments and are
those of the table after the operations. The balance is the sum over all commitments of what their
notes contribute, if the amounts of the notes that were added are integers. -/
theorem notes_represent (vaultId created : Text) (ops : List Operation) :
  Represents (vaultAfter (createEmptyNoteVault vaultId created) ops) (tableAfter ops)
    ∧ ((∀ p now, .addNote p now ∈ ops → (toInt? p.amount7dp).isSome) →
      totalActive7dp (vaultAfter (createEmptyNoteVault vaultId created) ops)
        = some (finsum fun commitment => balanceOf (tableAfter ops commitment)))
  := by
  have hempty : Represents (createEmptyNoteVault vaultId created) fun _ => none := by
    constructor
    · exact List.nodup_nil
    · intro commitment
      rfl
  have hrun : Represents (vaultAfter (createEmptyNoteVault vaultId created) ops)
      (tableAfter ops) := hempty.run ops
  use hrun
  intro hamounts
  apply hrun.totalActive7dp
  -- the amounts in the vault are those of notes that were added
  have hadded : ∀ (ops : List Operation) (vault : NoteVault),
      (∀ n ∈ vault.notes, (toInt? n.amount7dp).isSome) →
      (∀ p now, .addNote p now ∈ ops → (toInt? p.amount7dp).isSome) →
      ∀ n ∈ (vaultAfter vault ops).notes, (toInt? n.amount7dp).isSome := by
    intro ops
    induction ops with
    | nil =>
        intro vault hvault _
        exact hvault
    | cons op ops ih =>
        intro vault hvault hops
        apply ih (op.onVault vault)
        · have hstatus : ∀ status commitment now,
              ∀ n ∈ (NoteManager.setStatus status vault commitment now).notes,
                (toInt? n.amount7dp).isSome := by
            intro status commitment now n hn
            obtain ⟨n', hn', rfl⟩ := List.mem_map.mp hn
            split
            · exact hvault n' hn'
            · exact hvault n' hn'
          cases op with
          | addNote p now =>
              intro n hn
              obtain hn | hn := List.mem_append.mp hn
              · apply hvault n (List.mem_filter.mp hn).1
              · rw [List.mem_singleton.mp hn]
                apply hops p now List.mem_cons_self
          | activate commitment now => apply hstatus
          | markSpent commitment now => apply hstatus
        · intro p now hp
          apply hops p now (List.mem_cons_of_mem op hp)
  apply hadded ops _ _ hamounts
  intro n hn
  cases hn

/-- A note is added and activated. -/
def oneActive : List Operation :=
  [.addNote ⟨"0x01".toList, "USDC".toList, decimal 5,
      ⟨"0a".toList, "0b".toList, "0c".toList, "0d".toList, "0e".toList, "0f".toList, "10".toList⟩,
      none⟩ "2026-01-01".toList,
    .activate "0x01".toList "2026-01-02".toList]

/-- The balance of a vault with a note that was activated. -/
theorem notes_represent_one :
  totalActive7dp (vaultAfter (createEmptyNoteVault "vault-1".toList "2026-01-01".toList) oneActive)
    = some (finsum fun commitment => balanceOf (tableAfter oneActive commitment))
  := by
  apply (notes_represent "vault-1".toList "2026-01-01".toList oneActive).2
  intro p now hp
  rw [oneActive, List.mem_cons, List.mem_singleton] at hp
  obtain hp | hp := hp
  · cases hp
    dsimp only
    rw [toInt?_decimal]
    rfl
  · cases hp

end Shade.Client.NoteManager
