import Shade.Committee.Tables

/-!
# What is recorded of a signed batch

A signed batch is written by many statements and not in one transaction. If one of them fails, the
tables are left as the statements before it have made them. The order of the statements decides
what can be missing: the row of the batch is written first, and the intents of its matches last.
If none of them fails, the batch, its signatures, its session and the intents that have rows are
recorded.
-/

namespace Shade.Committee

open Text Table Script

/-! ### What is to be recorded -/

/-- The sides of the matches of a batch, each with the other side. -/
def SignedMatchBatch.sides (batch : SignedMatchBatch) : List (Text × Text) :=
  batch.matchList.flatMap fun m => [(m.intentAId, m.intentBId), (m.intentBId, m.intentAId)]

/-- The batch has a row, which was there before or is the one that was inserted for it. -/
def BatchRecorded (before : Tables) (sessionId : Text) (batch : SignedMatchBatch)
    (db : Tables) : Prop :=
  ∃ row ∈ db.batches, row.batchId = batch.batchId
    ∧ (row ∈ before.batches ∨ ∃ now, row = batchRow sessionId batch now)

/-- The nodes that have signed the batch have rows, which were there before or are those of their
signatures. -/
def SignaturesRecorded (before : Tables) (batch : SignedMatchBatch) (db : Tables) : Prop :=
  ∀ sig ∈ batch.signatures, ∃ row ∈ db.batchSignatures,
    (row.batchId = batch.batchId ∧ row.nodeId = sig.nodeId)
      ∧ (row ∈ before.batchSignatures
        ∨ ∃ sig' ∈ batch.signatures, row = signatureRow batch.batchId sig')

/-- The session is signed, if it has a row. -/
def SessionRecorded (sessionId : Text) (batch : SignedMatchBatch) (db : Tables) : Prop :=
  ∀ row ∈ db.sessions, row.sessionId = sessionId →
    row.status = .signed ∧ row.matchCount = batch.matchList.length

/-- An intent is matched with the other side of a match of the batch, if it has a row. -/
def IntentRecorded (batch : SignedMatchBatch) (intentId : Text) (db : Tables) : Prop :=
  ∀ row ∈ db.intents, row.intentId = intentId →
    row.status = .matched
      ∧ ∃ other, (intentId, other) ∈ batch.sides ∧ row.matchedWith = some other

/-- The batch and all that belongs to it is recorded. -/
structure Recorded (before : Tables) (sessionId : Text) (batch : SignedMatchBatch)
    (db : Tables) : Prop where
  hasBatch : BatchRecorded before sessionId batch db
  hasSignatures : SignaturesRecorded before batch db
  hasSession : SessionRecorded sessionId batch db
  hasIntents : ∀ sides ∈ batch.sides, IntentRecorded batch sides.1 db

/-! ### What a statement does -/

section

variable {sessionId batchId id other : Text} {batch : SignedMatchBatch} {sig : NodeSignature}
  {count now : ℕ} {before db db' : Tables} {s : Statement ℕ Tables}

theorem insertBatch_eq_some (h : insertBatch sessionId batch now db = some db') :
  db' = db ∧ (∃ row ∈ db.batches, row.batchId = batch.batchId)
    ∨ db' = { db with batches := db.batches ++ [batchRow sessionId batch now] }
  := by
  rw [insertBatch] at h
  split at h
  · case isTrue hrow => exact .inl ⟨(Option.some.inj h).symm, hrow⟩
  · split at h
    · exact .inr (Option.some.inj h).symm
    · cases h

theorem insertBatchSignature_eq_some (h : insertBatchSignature batchId sig now db = some db') :
  db' = db ∧ (∃ row ∈ db.batchSignatures, row.batchId = batchId ∧ row.nodeId = sig.nodeId)
    ∨ db' = { db with batchSignatures := db.batchSignatures ++ [signatureRow batchId sig] }
  := by
  rw [insertBatchSignature] at h
  split at h
  · case isTrue hrow => exact .inl ⟨(Option.some.inj h).symm, hrow⟩
  · split at h
    · exact .inr (Option.some.inj h).symm
    · cases h

theorem updateIntent_eq_some (h : updateIntent id other now db = some db') :
  db' =
    { db with
      intents := updateWhere (fun row : IntentRow => row.intentId = id)
        (fun row => { row with status := .matched, matchedWith := some other }) db.intents }
  := by
  rw [updateIntent] at h
  split at h
  · cases h
  · exact (Option.some.inj h).symm

/-- The session is signed after the statement that writes it. -/
theorem updateSession_records
    (h : updateSession sessionId batch.matchList.length now db = some db') :
  SessionRecorded sessionId batch db'
  := by
  cases h
  intro row hrow hid
  obtain ⟨r, hr, rfl⟩ := mem_updateWhere.mp hrow
  split at hid
  · case isTrue hsame =>
      rw [if_pos hsame]
      use rfl
  · contradiction

theorem mem_signatureStatements :
  s ∈ signatureStatements batch
    ↔ ∃ sig ∈ batch.signatures, insertBatchSignature batch.batchId sig = s
  := List.mem_map

theorem mem_intentStatements :
  s ∈ intentStatements batch ↔ ∃ sides ∈ batch.sides, updateIntent sides.1 sides.2 = s
  := by
  rw [← List.mem_map, SignedMatchBatch.sides, List.map_flatMap]
  rfl

theorem mem_persistStatements :
  s ∈ persistStatements sessionId batch
    ↔ s = insertBatch sessionId batch
      ∨ (∃ sig ∈ batch.signatures, insertBatchSignature batch.batchId sig = s)
      ∨ s = updateSession sessionId batch.matchList.length
      ∨ ∃ sides ∈ batch.sides, updateIntent sides.1 sides.2 = s
  := by
  rw [persistStatements, List.mem_append, List.mem_cons, List.mem_cons, or_assoc,
    mem_signatureStatements, mem_intentStatements]

/-! ### What the statements preserve -/

/-- The rows of batches are those from before and those that were inserted for the batch, and the
rows of signatures likewise. -/
def OnlyAdded (before : Tables) (sessionId : Text) (batch : SignedMatchBatch)
    (db : Tables) : Prop :=
  (∀ row ∈ db.batches, row ∈ before.batches ∨ ∃ now, row = batchRow sessionId batch now)
    ∧ ∀ row ∈ db.batchSignatures, row ∈ before.batchSignatures
      ∨ ∃ sig ∈ batch.signatures, row = signatureRow batch.batchId sig

theorem onlyAdded_preserved (h : s ∈ persistStatements sessionId batch) :
  Preserves (OnlyAdded before sessionId batch) s
  := by
  rintro now db db' hs ⟨hbatches, hsigs⟩
  rcases mem_persistStatements.mp h with rfl | ⟨sig, hsig, rfl⟩ | rfl | ⟨sides, hsides, rfl⟩
  · rcases insertBatch_eq_some hs with ⟨rfl, -⟩ | rfl
    · use hbatches, hsigs
    · constructor
      · intro row hrow
        rcases List.mem_append.mp hrow with hrow | hrow
        · apply hbatches row hrow
        · exact .inr ⟨now, List.mem_singleton.mp hrow⟩
      · apply hsigs
  · rcases insertBatchSignature_eq_some hs with ⟨rfl, -⟩ | rfl
    · use hbatches, hsigs
    · constructor
      · apply hbatches
      · intro row hrow
        rcases List.mem_append.mp hrow with hrow | hrow
        · apply hsigs row hrow
        · exact .inr ⟨sig, hsig, List.mem_singleton.mp hrow⟩
  · cases hs
    use hbatches, hsigs
  · cases updateIntent_eq_some hs
    use hbatches, hsigs

/-- No statement deletes the row of a batch. -/
theorem batch_preserved (h : s ∈ persistStatements sessionId batch) :
  Preserves (fun db => ∃ row ∈ db.batches, row.batchId = id) s
  := by
  rintro now db db' hs ⟨row, hrow, hid⟩
  rcases mem_persistStatements.mp h with rfl | ⟨sig, hsig, rfl⟩ | rfl | ⟨sides, hsides, rfl⟩
  · rcases insertBatch_eq_some hs with ⟨rfl, -⟩ | rfl
    · use row
    · use row, List.mem_append_left _ hrow
  · rcases insertBatchSignature_eq_some hs with ⟨rfl, -⟩ | rfl <;> use row
  · cases hs
    use row
  · cases updateIntent_eq_some hs
    use row

/-- No statement deletes the row of a signature. -/
theorem signature_preserved (h : s ∈ persistStatements sessionId batch) :
  Preserves (fun db => ∃ row ∈ db.batchSignatures, row.batchId = batchId ∧ row.nodeId = id) s
  := by
  rintro now db db' hs ⟨row, hrow, hid⟩
  rcases mem_persistStatements.mp h with rfl | ⟨sig, hsig, rfl⟩ | rfl | ⟨sides, hsides, rfl⟩
  · rcases insertBatch_eq_some hs with ⟨rfl, -⟩ | rfl <;> use row
  · rcases insertBatchSignature_eq_some hs with ⟨rfl, -⟩ | rfl
    · use row
    · use row, List.mem_append_left _ hrow
  · cases hs
    use row
  · cases updateIntent_eq_some hs
    use row

/-- The session remains signed. -/
theorem session_preserved (h : s ∈ persistStatements sessionId batch) :
  Preserves (SessionRecorded sessionId batch) s
  := by
  intro now db db' hs hsession
  rcases mem_persistStatements.mp h with rfl | ⟨sig, hsig, rfl⟩ | rfl | ⟨sides, hsides, rfl⟩
  · rcases insertBatch_eq_some hs with ⟨rfl, -⟩ | rfl <;> apply hsession
  · rcases insertBatchSignature_eq_some hs with ⟨rfl, -⟩ | rfl <;> apply hsession
  · apply updateSession_records hs
  · cases updateIntent_eq_some hs
    apply hsession

/-- An intent that is matched remains matched with some other side. -/
theorem intent_preserved (h : s ∈ persistStatements sessionId batch) :
  Preserves (IntentRecorded batch id) s
  := by
  intro now db db' hs hintent
  rcases mem_persistStatements.mp h with rfl | ⟨sig, hsig, rfl⟩ | rfl | ⟨sides, hsides, rfl⟩
  · rcases insertBatch_eq_some hs with ⟨rfl, -⟩ | rfl <;> apply hintent
  · rcases insertBatchSignature_eq_some hs with ⟨rfl, -⟩ | rfl <;> apply hintent
  · cases hs
    apply hintent
  · cases updateIntent_eq_some hs
    intro row hrow hid
    obtain ⟨r, hr, rfl⟩ := mem_updateWhere.mp hrow
    split at hid
    · case isTrue hsame =>
        rw [if_pos hsame]
        use rfl, sides.2
        rw [← hid, hsame]
        use hsides
    · case isFalse hother =>
        rw [if_neg hother]
        apply hintent r hr hid

/-! ### What is recorded -/

variable {answers : ℕ → Option ℕ} {k : ℕ} {pre : List (Statement ℕ Tables)}

theorem onlyAdded_after (hpre : pre <+: persistStatements sessionId batch)
    (hafter : after answers k pre db = some db') :
  OnlyAdded db sessionId batch db'
  := by
  apply after_preserves _ hafter
  · use fun row hrow => .inl hrow, fun row hrow => .inl hrow
  · intro s hs
    apply onlyAdded_preserved (hpre.subset hs)

/-- The batch is recorded once its statement has been run. -/
theorem batchRecorded_of_mem (hpre : pre <+: persistStatements sessionId batch)
    (hmem : insertBatch sessionId batch ∈ pre) (hafter : after answers k pre db = some db') :
  BatchRecorded db sessionId batch db'
  := by
  have hrow : ∃ row ∈ db'.batches, row.batchId = batch.batchId := by
    apply after_establishes (P := fun d => ∃ row ∈ d.batches, row.batchId = batch.batchId)
      (fun s hs => batch_preserved (hpre.subset hs)) hmem _ hafter
    intro now d d' hs
    rcases insertBatch_eq_some hs with ⟨rfl, hrow⟩ | rfl
    · apply hrow
    · use batchRow sessionId batch now, by simp
      rfl
  obtain ⟨row, hrow, hid⟩ := hrow
  use row, hrow, hid
  apply (onlyAdded_after hpre hafter).1 row hrow

/-- The signatures are recorded once their statements have been run. -/
theorem signaturesRecorded_of_subset (hpre : pre <+: persistStatements sessionId batch)
    (hsub : signatureStatements batch ⊆ pre) (hafter : after answers k pre db = some db') :
  SignaturesRecorded db batch db'
  := by
  intro sig hsig
  have hmem := hsub (mem_signatureStatements.mpr ⟨sig, hsig, rfl⟩)
  have hrow : ∃ row ∈ db'.batchSignatures, row.batchId = batch.batchId
      ∧ row.nodeId = sig.nodeId := by
    apply after_establishes
      (P := fun d => ∃ row ∈ d.batchSignatures, row.batchId = batch.batchId
        ∧ row.nodeId = sig.nodeId)
      (fun s hs => signature_preserved (hpre.subset hs)) hmem _ hafter
    intro now d d' hs
    rcases insertBatchSignature_eq_some hs with ⟨rfl, hrow⟩ | rfl
    · apply hrow
    · use signatureRow batch.batchId sig, by simp
      use rfl
      rfl
  obtain ⟨row, hrow, hid⟩ := hrow
  use row, hrow, hid
  apply (onlyAdded_after hpre hafter).2 row hrow

/-- The session is recorded once its statement has been run. -/
theorem sessionRecorded_of_mem (hpre : pre <+: persistStatements sessionId batch)
    (hmem : updateSession sessionId batch.matchList.length ∈ pre)
    (hafter : after answers k pre db = some db') :
  SessionRecorded sessionId batch db'
  := by
  apply after_establishes (fun s hs => session_preserved (hpre.subset hs)) hmem _ hafter
  intro now d d' hs
  apply updateSession_records hs

/-- An intent is recorded once a statement for it has been run. -/
theorem intentRecorded_of_mem {sides : Text × Text}
    (hpre : pre <+: persistStatements sessionId batch) (hsides : sides ∈ batch.sides)
    (hmem : updateIntent sides.1 sides.2 ∈ pre) (hafter : after answers k pre db = some db') :
  IntentRecorded batch sides.1 db'
  := by
  apply after_establishes (fun s hs => intent_preserved (hpre.subset hs)) hmem _ hafter
  intro now d d' hs
  cases updateIntent_eq_some hs
  intro row hrow hid
  obtain ⟨r, hr, rfl⟩ := mem_updateWhere.mp hrow
  split at hid
  · case isTrue hsame =>
      rw [if_pos hsame]
      use rfl, sides.2, hsides
  · contradiction

theorem recorded_of_after
    (hafter : after answers k (persistStatements sessionId batch) db = some db') :
  Recorded db sessionId batch db'
  := by
  have hpre := List.prefix_refl (persistStatements sessionId batch)
  constructor
  · apply batchRecorded_of_mem hpre _ hafter
    apply mem_persistStatements.mpr (.inl rfl)
  · apply signaturesRecorded_of_subset hpre _ hafter
    intro s hs
    apply mem_persistStatements.mpr (.inr (.inl (mem_signatureStatements.mp hs)))
  · apply sessionRecorded_of_mem hpre _ hafter
    apply mem_persistStatements.mpr (.inr (.inr (.inl rfl)))
  · intro sides hsides
    apply intentRecorded_of_mem hpre hsides _ hafter
    apply mem_persistStatements.mpr (.inr (.inr (.inr ⟨sides, hsides, rfl⟩)))

/-! ### The order of the statements -/

/-- The batch is the first that is recorded. -/
theorem batch_first (hpre : pre <+: persistStatements sessionId batch)
    (hafter : after answers k pre db = some db') :
  db' = db ∨ BatchRecorded db sessionId batch db'
  := by
  cases pre with
  | nil => exact .inl (Option.some.inj hafter).symm
  | cons s rest =>
      right
      apply batchRecorded_of_mem hpre _ hafter
      obtain ⟨rfl, -⟩ := List.cons_prefix_cons.mp hpre
      apply List.mem_cons_self

/-- The session is signed after the signatures are recorded. -/
theorem session_after_signatures (hpre : pre <+: persistStatements sessionId batch)
    (hafter : after answers k pre db = some db') :
  db'.sessions = db.sessions ∨ SignaturesRecorded db batch db'
  := by
  have hkeep : ∀ s ∈ insertBatch sessionId batch :: signatureStatements batch,
      ∀ ⦃now : ℕ⦄ ⦃d d' : Tables⦄, s now d = some d' → d'.sessions = d.sessions := by
    intro s hs now d d' hstep
    rcases List.mem_cons.mp hs with rfl | hs
    · rcases insertBatch_eq_some hstep with ⟨rfl, -⟩ | rfl <;> rfl
    · obtain ⟨sig, -, rfl⟩ := mem_signatureStatements.mp hs
      rcases insertBatchSignature_eq_some hstep with ⟨rfl, -⟩ | rfl <;> rfl
  rcases eq_or_all_run Tables.sessions hkeep hpre hafter with heq | hfirst
  · exact .inl heq
  · right
    apply signaturesRecorded_of_subset hpre _ hafter
    intro s hs
    apply hfirst.subset (List.mem_cons_of_mem _ hs)

/-- The intents are matched after the session is signed. -/
theorem intents_after_session (hpre : pre <+: persistStatements sessionId batch)
    (hafter : after answers k pre db = some db') :
  db'.intents = db.intents ∨ SessionRecorded sessionId batch db'
  := by
  have hsplit : persistStatements sessionId batch
      = (insertBatch sessionId batch :: signatureStatements batch
        ++ [updateSession sessionId batch.matchList.length]) ++ intentStatements batch := by
    rw [persistStatements, List.append_assoc]
    rfl
  have hkeep : ∀ s ∈ insertBatch sessionId batch :: signatureStatements batch
        ++ [updateSession sessionId batch.matchList.length],
      ∀ ⦃now : ℕ⦄ ⦃d d' : Tables⦄, s now d = some d' → d'.intents = d.intents := by
    intro s hs now d d' hstep
    rcases List.mem_append.mp hs with hs | hs
    · rcases List.mem_cons.mp hs with rfl | hs
      · rcases insertBatch_eq_some hstep with ⟨rfl, -⟩ | rfl <;> rfl
      · obtain ⟨sig, -, rfl⟩ := mem_signatureStatements.mp hs
        rcases insertBatchSignature_eq_some hstep with ⟨rfl, -⟩ | rfl <;> rfl
    · cases List.mem_singleton.mp hs
      cases hstep
      rfl
  rcases eq_or_all_run Tables.intents hkeep (hsplit ▸ hpre) hafter with heq | hfirst
  · exact .inl heq
  · right
    apply sessionRecorded_of_mem hpre _ hafter
    apply hfirst.subset
    simp

/-- If writing a signed batch returns, all of it is recorded. If it throws, the tables are as the
statements before the one that failed have left them: nothing is changed unless the batch is
recorded, no session is signed unless the signatures are recorded, and no intent is matched unless
the session is signed. -/
theorem persisted_in_order (answers : ℕ → Option ℕ) (sessionId : Text) (batch : SignedMatchBatch)
    (db : Tables) :
  (∀ db', persistSignedBatch answers sessionId batch db = .returned db' →
      Recorded db sessionId batch db')
    ∧ ∀ db', persistSignedBatch answers sessionId batch db = .threw db' →
      (∃ pre s post, persistStatements sessionId batch = pre ++ s :: post
        ∧ after answers 0 pre db = some db' ∧ query (answers pre.length) s db' = none)
      ∧ (db' = db ∨ BatchRecorded db sessionId batch db')
      ∧ (db'.sessions = db.sessions ∨ SignaturesRecorded db batch db')
      ∧ (db'.intents = db.intents ∨ SessionRecorded sessionId batch db')
  := by
  constructor
  · intro db' hreturned
    apply recorded_of_after (execute_eq_returned.mp hreturned)
  · intro db' hthrew
    obtain ⟨pre, s, post, heq, hafter, hfail⟩ := execute_eq_threw.mp hthrew
    have hpre : pre <+: persistStatements sessionId batch := by
      rw [heq]
      apply List.prefix_append
    rw [Nat.zero_add] at hfail
    use ⟨pre, s, post, heq, hafter, hfail⟩, batch_first hpre hafter,
      session_after_signatures hpre hafter
    apply intents_after_session hpre hafter

end

/-! ### A batch that is recorded in part -/

/-- A match of two intents. -/
def exampleMatch : MatchResult where
  intentAId := "a".toList
  intentBId := "b".toList
  matchedAmount7dp := "5".toList
  inputAsset := "x".toList
  outputAsset := "y".toList
  priceScaled := none
  assetIn := none
  assetOut := none

/-- A batch that one node has signed. -/
def exampleBatch : SignedMatchBatch where
  batchId := "batch".toList
  sessionId := "session".toList
  matchList := [exampleMatch]
  batchHash := "hash".toList
  signatures := [⟨"node-1".toList, "key".toList, "signature".toList⟩]

/-- A session whose intents have no rows. -/
def exampleTables : Tables where
  batches := []
  batchSignatures := []
  sessions := [⟨"session".toList, .opened, 0, none⟩]
  intents := []

/-- If the database raises an error at the second statement, a row of the batch is left behind. If
it raises none, no intent is matched if there are no rows for the intents. -/
theorem persisted_in_part :
  (∃ db', persistSignedBatch (fun k => if k = 1 then none else some 7) "session".toList
      exampleBatch exampleTables = .threw db' ∧ db'.batches ≠ exampleTables.batches)
    ∧ ∃ db', persistSignedBatch (fun _ => some 7) "session".toList exampleBatch exampleTables
        = .returned db'
      ∧ ¬ ∃ row ∈ db'.intents, row.intentId = "a".toList ∧ row.status = .matched
  := by
  constructor
  · use { exampleTables with batches := [batchRow "session".toList exampleBatch 7] }
    decide +kernel
  · use
      { batches := [batchRow "session".toList exampleBatch 7]
        batchSignatures := [⟨"batch".toList, "node-1".toList, "key".toList, "signature".toList⟩]
        sessions := [⟨"session".toList, .signed, 1, some 7⟩]
        intents := [] }
    decide +kernel

end Shade.Committee
