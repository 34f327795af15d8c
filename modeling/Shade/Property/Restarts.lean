import Shade.Committee.Keys
import Shade.Property.Batches

/-!
# Keys survive restarts

The key pairs that a process works with are those of the table, unless it lost a race: its row was
not there when it looked for it, and was there when it inserted it. The statement then has no
effect, and the process goes on with keys that nobody else has. As long as no process looks for rows
while another one inserts some, this does not happen, and what was signed before a restart verifies
after it.
-/

namespace Shade.Committee

open Text Solver Table Machine Endian

variable {gcm : Gcm} {table table' : List KeyRow} {encKey : Bytes} {kp kp' : CommitteeNodeKeyPair}
  {row : KeyRow} {p : ℕ}

/-! ### Rows and keys -/

/-- What is encrypted can be decrypted, and tags have sixteen bytes. -/
structure Gcm.Correct (gcm : Gcm) : Prop where
  length_authTag : ∀ key iv plaintext, (gcm.encrypt key iv plaintext).2.length = 16
  decrypt_encrypt : ∀ key iv plaintext, key.length = 32 → iv.length = 12 →
    gcm.decrypt key iv (gcm.encrypt key iv plaintext).2 (gcm.encrypt key iv plaintext).1
      = some plaintext

theorem decryptSecret_encryptSecret (hgcm : gcm.Correct) {plain key : Bytes} {iv : Iv} {enc : Text}
    (h : encryptSecret gcm (hexBytes plain) key iv = some enc) :
  decryptSecret gcm enc key = some (hexBytes plain)
  := by
  rw [encryptSecret] at h
  split at h
  · next hkey =>
      obtain rfl := Option.some.inj h
      have htag := hgcm.length_authTag key iv plain
      simp only [decryptSecret, fromHex_hexBytes, if_pos hkey]
      have hiv : (iv.1 ++ (gcm.encrypt key iv plain).2 ++ (gcm.encrypt key iv plain).1).take 12
          = iv.1 := by
        rw [List.append_assoc, List.take_left' iv.2]
      have hrest : (iv.1 ++ (gcm.encrypt key iv plain).2 ++ (gcm.encrypt key iv plain).1).drop 12
          = (gcm.encrypt key iv plain).2 ++ (gcm.encrypt key iv plain).1 := by
        rw [List.append_assoc, List.drop_left' iv.2]
      have hciphertext : (iv.1 ++ (gcm.encrypt key iv plain).2
          ++ (gcm.encrypt key iv plain).1).drop 28 = (gcm.encrypt key iv plain).1 := by
        rw [List.drop_left' (by rw [List.length_append, iv.2, htag])]
      rw [hiv, hrest, hciphertext, List.take_left' htag, hgcm.decrypt_encrypt key iv plain hkey iv.2]
      rfl
  · cases h

/-- The keys that a row was made of are read back from it. -/
theorem rowToKeyPair_keyPairToRow (hgcm : gcm.Correct) {iv iv' : Iv}
    (h : keyPairToRow gcm kp encKey iv iv' = some row) :
  rowToKeyPair gcm row encKey = some kp
  := by
  simp only [keyPairToRow, Option.bind_eq_bind, Option.bind_eq_some_iff, Option.pure_def,
    Option.some.injEq] at h
  obtain ⟨e, he, s, hs, rfl⟩ := h
  simp only [rowToKeyPair, decryptSecret_encryptSecret hgcm he, decryptSecret_encryptSecret hgcm hs,
    fromHex_hexBytes, Option.bind_eq_bind, Option.bind_some, Option.pure_def]

theorem nodeId_of_keyPairToRow {iv iv' : Iv} (h : keyPairToRow gcm kp encKey iv iv' = some row) :
  row.nodeId = kp.nodeId
  := by
  simp only [keyPairToRow, Option.bind_eq_bind, Option.bind_eq_some_iff, Option.pure_def,
    Option.some.injEq] at h
  obtain ⟨_, -, _, -, rfl⟩ := h
  rfl

theorem nodeId_of_rowToKeyPair (h : rowToKeyPair gcm row encKey = some kp) :
  kp.nodeId = row.nodeId
  := by
  simp only [rowToKeyPair, Option.bind_eq_bind, Option.bind_eq_some_iff, Option.pure_def,
    Option.some.injEq] at h
  obtain ⟨_, -, _, -, rfl⟩ := h
  rfl

/-- A row of the table holds the keys. -/
def Stored (gcm : Gcm) (table : List KeyRow) (encKey : Bytes) (kp : CommitteeNodeKeyPair) : Prop :=
  ∃ row ∈ table, rowToKeyPair gcm row encKey = some kp

theorem Stored.mono (h : Stored gcm table encKey kp) (hsub : table ⊆ table') :
  Stored gcm table' encKey kp
  := by
  obtain ⟨row, hrow, hkp⟩ := h
  use row, hsub hrow

/-- The keys of a node in the table are determined, where a node has only one row. -/
theorem Stored.unique (hnodup : (table.map KeyRow.nodeId).Nodup) (h : Stored gcm table encKey kp)
    (h' : Stored gcm table encKey kp') (hid : kp.nodeId = kp'.nodeId) :
  kp = kp'
  := by
  obtain ⟨row, hrow, hkp⟩ := h
  obtain ⟨row', hrow', hkp'⟩ := h'
  rw [nodeId_of_rowToKeyPair hkp, nodeId_of_rowToKeyPair hkp'] at hid
  obtain rfl := List.inj_on_of_nodup_map hnodup hrow hrow' hid
  exact Option.some.inj (hkp.symm.trans hkp')

/-! ### The steps of a call -/

/-- The keys under an id are those of a row of the table, for the node of this id. -/
def Read (gcm : Gcm) (table : List KeyRow) (encKey : Bytes)
    (existing : OrderedMap Text CommitteeNodeKeyPair) : Prop :=
  ∀ id kp, OrderedMap.get existing id = some kp → kp.nodeId = id ∧ Stored gcm table encKey kp

/-- What a call has when it goes through the nodes up to the next one without a row. -/
theorem nextMissing_spec {existing : OrderedMap Text CommitteeNodeKeyPair}
    (hread : Read gcm table encKey existing) (ids : List Text)
    (keypairs : List CommitteeNodeKeyPair) :
  ∃ found, (∀ kp ∈ found, Stored gcm table encKey kp)
    ∧ ((nextMissing existing ids keypairs = .returned (keypairs ++ found)
        ∧ found.map CommitteeNodeKeyPair.nodeId = ids)
      ∨ ∃ id rest, nextMissing existing ids keypairs = .insert existing id rest (keypairs ++ found)
        ∧ OrderedMap.get existing id = none
        ∧ found.map CommitteeNodeKeyPair.nodeId ++ id :: rest = ids)
  := by
  induction ids generalizing keypairs with
  | nil =>
      use []
      simp [nextMissing]
  | cons id ids ih =>
      rw [nextMissing]
      cases hget : OrderedMap.get existing id with
      | none =>
          use []
          simp [hget]
      | some kp =>
          obtain ⟨hid, hstored⟩ := hread id kp hget
          obtain ⟨found, hfound, h⟩ := ih (keypairs ++ [kp])
          use kp :: found
          constructor
          · exact List.forall_mem_cons.mpr ⟨hstored, hfound⟩
          · simpa [hid] using h

/-- How far a call has come, and that the keys it has are good. -/
inductive KeysProgress (gcm : Gcm) (table : List KeyRow) (encKey : Bytes) (nodeIds : List Text)
    (good : CommitteeNodeKeyPair → Prop) : KeysPhase → Prop where
  | select : KeysProgress gcm table encKey nodeIds good .select
  | insert (existing : OrderedMap Text CommitteeNodeKeyPair) (id : Text) (rest : List Text)
      (keypairs : List CommitteeNodeKeyPair) (hread : Read gcm table encKey existing)
      (hget : OrderedMap.get existing id = none)
      (hids : keypairs.map CommitteeNodeKeyPair.nodeId ++ id :: rest = nodeIds)
      (hgood : ∀ kp ∈ keypairs, good kp) :
      KeysProgress gcm table encKey nodeIds good (.insert existing id rest keypairs)
  | returned (keypairs : List CommitteeNodeKeyPair)
      (hids : keypairs.map CommitteeNodeKeyPair.nodeId = nodeIds)
      (hgood : ∀ kp ∈ keypairs, good kp) :
      KeysProgress gcm table encKey nodeIds good (.returned keypairs)
  | threw : KeysProgress gcm table encKey nodeIds good .threw

variable {nodeIds : List Text} {good good' : CommitteeNodeKeyPair → Prop} {phase phase' : KeysPhase}
  {existing : OrderedMap Text CommitteeNodeKeyPair} {id : Text} {rest : List Text}
  {keypairs : List CommitteeNodeKeyPair} {new : NewKeys}

/-- A call does not lose what it has when rows are inserted. -/
theorem KeysProgress.mono (h : KeysProgress gcm table encKey nodeIds good phase) (hsub : table ⊆ table')
    (himp : ∀ kp, good kp → good' kp) :
  KeysProgress gcm table' encKey nodeIds good' phase
  := by
  cases h with
  | select => exact .select
  | insert existing id rest keypairs hread hget hids hgood =>
      apply KeysProgress.insert _ _ _ _ _ hget hids fun kp hkp => himp kp (hgood kp hkp)
      intro i kp hkp
      obtain ⟨hid, hstored⟩ := hread i kp hkp
      exact ⟨hid, hstored.mono hsub⟩
  | returned keypairs hids hgood => exact .returned _ hids fun kp hkp => himp kp (hgood kp hkp)
  | threw => exact .threw

/-- A call that goes through the remaining nodes with good keys for those before. -/
theorem progress_nextMissing (hread : Read gcm table encKey existing)
    (hids : keypairs.map CommitteeNodeKeyPair.nodeId ++ rest = nodeIds)
    (hgood : ∀ kp ∈ keypairs, good kp) (hstored : ∀ kp, Stored gcm table encKey kp → good kp) :
  KeysProgress gcm table encKey nodeIds good (nextMissing existing rest keypairs)
  := by
  obtain ⟨found, hfound, h⟩ := nextMissing_spec hread rest keypairs
  have hall : ∀ kp ∈ keypairs ++ found, good kp := by
    intro kp hkp
    rcases List.mem_append.mp hkp with hkp | hkp
    · apply hgood kp hkp
    · apply hstored kp (hfound kp hkp)
  rcases h with ⟨hphase, hrest⟩ | ⟨id, rest', hphase, hget, hrest⟩
  · rw [hphase]
    apply KeysProgress.returned _ _ hall
    rw [List.map_append, hrest, hids]
  · rw [hphase]
    apply KeysProgress.insert _ _ _ _ hread hget _ hall
    rw [List.map_append, List.append_assoc, hrest, hids]

/-- The rows of the nodes, decrypted. -/
theorem read_of_mapM {rows : List KeyRow} (hsub : rows ⊆ table)
    (h : rows.mapM (fun row => (rowToKeyPair gcm row encKey).map fun kp => (row.nodeId, kp))
      = some existing) :
  Read gcm table encKey existing
    ∧ ∀ row ∈ rows, OrderedMap.get existing row.nodeId ≠ none
  := by
  induction rows generalizing existing with
  | nil =>
      obtain rfl := Option.some.inj h
      constructor
      · intro id kp hkp
        cases hkp
      · simp
  | cons row rows ih =>
      simp only [List.mapM_cons, Option.bind_eq_bind, Option.bind_eq_some_iff, Option.pure_def,
        Option.some.injEq, Option.map_eq_some_iff] at h
      obtain ⟨_, ⟨kp, hkp, rfl⟩, more, hmore, rfl⟩ := h
      obtain ⟨hrow, hrows⟩ := List.cons_subset.mp hsub
      obtain ⟨hread, hall⟩ := ih hrows hmore
      constructor
      · intro id kp' hkp'
        rw [OrderedMap.get] at hkp'
        split at hkp'
        · next hid =>
            obtain rfl := Option.some.inj hkp'
            use (nodeId_of_rowToKeyPair hkp).trans hid, row, hrow, hkp
        · apply hread id kp' hkp'
      · intro row' hrow'
        rw [OrderedMap.get]
        split
        · simp
        · next hne =>
            rcases List.mem_cons.mp hrow' with rfl | hrow'
            · exact absurd rfl hne
            · apply hall row' hrow'

theorem stored_of_mapM {rows : List KeyRow} (hsub : rows ⊆ table)
    (h : nodeIds.mapM (fun id => do
      rowToKeyPair gcm (← rows.find? fun row => row.nodeId = id) encKey) = some keypairs) :
  keypairs.map CommitteeNodeKeyPair.nodeId = nodeIds
    ∧ ∀ kp ∈ keypairs, Stored gcm table encKey kp
  := by
  induction nodeIds generalizing keypairs with
  | nil =>
      obtain rfl := Option.some.inj h
      simp
  | cons id nodeIds ih =>
      simp only [List.mapM_cons, Option.bind_eq_bind, Option.bind_eq_some_iff, Option.pure_def,
        Option.some.injEq] at h
      obtain ⟨kp, ⟨row, hfind, hkp⟩, more, hmore, rfl⟩ := h
      obtain ⟨hids, hall⟩ := ih hmore
      have hid : row.nodeId = id := by simpa using List.find?_some hfind
      have hrow := hsub (List.mem_of_find?_eq_some hfind)
      constructor
      · rw [List.map_cons, hids, nodeId_of_rowToKeyPair hkp, hid]
      · exact List.forall_mem_cons.mpr ⟨⟨row, hrow, hkp⟩, hall⟩

/-- After the rows are selected. -/
theorem progress_selected (hstored : ∀ kp, Stored gcm table encKey kp → good kp) :
  KeysProgress gcm table encKey nodeIds good
    (selected gcm (table.filter fun row => nodeIds.contains row.nodeId) encKey nodeIds)
  := by
  have hsub : table.filter (fun row => nodeIds.contains row.nodeId) ⊆ table := List.filter_subset_self _
  rw [selected]
  split
  · split
    · next keypairs h =>
        obtain ⟨hids, hall⟩ := stored_of_mapM hsub h
        exact .returned _ hids fun kp hkp => hstored kp (hall kp hkp)
    · exact .threw
  · split
    · next existing h => exact progress_nextMissing (read_of_mapM hsub h).1 rfl (by simp) hstored
    · exact .threw

/-! ### Runs -/

section

variable {w w' : KeysWorld} {a : KeysAction} {call call' : KeysCall} {q : ℕ}

theorem move_calls (w : KeysWorld) (p q : ℕ) (call : KeysCall) :
  (w.move p call).calls q = if q = p then some call else w.calls q
  := Function.update_apply ..

/-- A call after a call is replaced. -/
theorem calls_move_eq_some (h : (w.move p call).calls q = some call') :
  q = p ∧ call' = call ∨ q ≠ p ∧ w.calls q = some call'
  := by
  rw [move_calls] at h
  split at h
  · next heq => exact .inl ⟨heq, (Option.some.inj h).symm⟩
  · next hne => exact .inr ⟨hne, h⟩

/-- Rows are only added, and none for a node that has one. -/
theorem keysStep_table (h : keysStep gcm a w = some w') :
  w.table ⊆ w'.table
    ∧ ((w.table.map KeyRow.nodeId).Nodup → (w'.table.map KeyRow.nodeId).Nodup)
  := by
  cases keysStep_change h with
  | start => exact ⟨List.Subset.refl _, id⟩
  | select => exact ⟨List.Subset.refl _, id⟩
  | threw => exact ⟨List.Subset.refl _, id⟩
  | insert p new call existing id rest keypairs row =>
      change w.table ⊆ insertOrNothing (fun r => r.nodeId = row.nodeId) row w.table
        ∧ (_ → ((insertOrNothing (fun r => r.nodeId = row.nodeId) row w.table).map
          KeyRow.nodeId).Nodup)
      use subset_insertOrNothing
      intro hnodup
      rw [insertOrNothing]
      split
      · exact hnodup
      · next hfresh =>
          rw [List.map_append, List.nodup_append]
          use hnodup
          simp only [List.map_singleton, List.nodup_singleton, List.mem_map, List.mem_singleton,
            forall_exists_index, and_imp, true_and]
          rintro _ r hr rfl _ rfl heq
          exact hfresh ⟨r, hr, heq⟩

/-- An insertion of a call that has no effect, for keys that the call goes on with. -/
def Lost (p : ℕ) (kp : CommitteeNodeKeyPair) :
    List KeysAction → KeysWorld → KeysAction → KeysWorld → Prop :=
  fun _ w a _ => ∃ new call existing rest keypairs, a = .insert p new ∧ w.calls p = some call
    ∧ call.phase = .insert existing kp.nodeId rest keypairs
    ∧ kp = generateNodeKeyPair kp.nodeId new ∧ ∃ row ∈ w.table, row.nodeId = kp.nodeId

/-- The keys are those of the table, or the call has lost a race for them. -/
def StoredOrLost (gcm : Gcm) (w₀ : KeysWorld) (p : ℕ) (encKey : Bytes) (as : List KeysAction)
    (w : KeysWorld) (kp : CommitteeNodeKeyPair) : Prop :=
  Stored gcm w.table encKey kp ∨ Occurs (keysStep gcm) w₀ (Lost p kp) as

/-- Every call has come as far as it has with keys that are stored or lost. -/
def Progresses (gcm : Gcm) (w₀ : KeysWorld) (as : List KeysAction) (w : KeysWorld) : Prop :=
  ∀ p call, w.calls p = some call →
    KeysProgress gcm w.table call.encKey call.nodeIds (StoredOrLost gcm w₀ p call.encKey as w) call.phase

theorem step_progresses (hgcm : gcm.Correct) {w₀ : KeysWorld} {as : List KeysAction}
    (ih : Progresses gcm w₀ as (run (keysStep gcm) w₀ as))
    (h : keysStep gcm a (run (keysStep gcm) w₀ as) = some w') :
  Progresses gcm w₀ (as ++ [a]) w'
  := by
  set w := run (keysStep gcm) w₀ as with hw
  have hsub := (keysStep_table h).1
  have hmono : ∀ p encKey kp, StoredOrLost gcm w₀ p encKey as w kp →
      StoredOrLost gcm w₀ p encKey (as ++ [a]) w' kp := by
    rintro p encKey kp (hstored | hlost)
    · exact .inl (hstored.mono hsub)
    · exact .inr (hlost.mono (List.prefix_append as [a]))
  -- Calls that are not concerned have come no further.
  have hkeep : ∀ q call', w.calls q = some call' → KeysProgress gcm w'.table call'.encKey call'.nodeIds
      (StoredOrLost gcm w₀ q call'.encKey (as ++ [a]) w') call'.phase :=
    fun q call' hcall' => (ih q call' hcall').mono hsub (hmono q call'.encKey)
  intro q call' hcall'
  cases keysStep_change h with
  | start p secret encKey nodeIds =>
      rcases calls_move_eq_some hcall' with ⟨rfl, rfl⟩ | ⟨-, hcall'⟩
      · exact .select
      · exact hkeep q call' hcall'
  | select p call hcall hphase =>
      rcases calls_move_eq_some hcall' with ⟨rfl, rfl⟩ | ⟨-, hcall'⟩
      · exact progress_selected fun kp => .inl
      · exact hkeep q call' hcall'
  | threw _ p call =>
      rcases calls_move_eq_some hcall' with ⟨rfl, rfl⟩ | ⟨-, hcall'⟩
      · exact .threw
      · exact hkeep q call' hcall'
  | insert p new call existing id rest keypairs row hcall hphase hrow =>
      rcases calls_move_eq_some hcall' with ⟨rfl, rfl⟩ | ⟨-, hcall'⟩
      · have hbefore := hkeep q call hcall
        rw [hphase] at hbefore
        have hid := nodeId_of_keyPairToRow hrow
        cases hbefore with
        | insert _ _ _ _ hread hget hids hgood =>
            apply progress_nextMissing hread
            · rw [List.map_append, List.append_assoc]
              exact hids
            · intro kp hmem
              rcases List.mem_append.mp hmem with hmem | hmem
              · exact hgood kp hmem
              · obtain rfl := List.mem_singleton.mp hmem
                by_cases hconflict : ∃ r ∈ w.table, r.nodeId = row.nodeId
                · right
                  rw [occurs_concat h]
                  right
                  obtain ⟨r, hr, hreq⟩ := hconflict
                  exact ⟨new, call, existing, rest, keypairs, rfl, hcall, hphase, rfl, r, hr,
                    hreq.trans hid⟩
                · left
                  use row
                  constructor
                  · change row ∈ insertOrNothing (fun r => r.nodeId = row.nodeId) row w.table
                    rw [insertOrNothing, if_neg hconflict]
                    simp
                  · exact rowToKeyPair_keyPairToRow hgcm hrow
            · exact fun kp => .inl
      · exact hkeep q call' hcall'

theorem run_progresses (hgcm : gcm.Correct) (table : List KeyRow) (actions : List KeysAction) :
  Progresses gcm (.init table) actions (run (keysStep gcm) (.init table) actions)
  := by
  apply history_run
  · intro p call h
    cases h
  · intro as a w' ih h
    exact step_progresses hgcm ih h
  · intro as a ih h q call hcall
    apply (ih q call hcall).mono (List.Subset.refl _)
    rintro kp (hstored | hlost)
    · exact .inl hstored
    · exact .inr (hlost.mono (List.prefix_append as [a]))

/-- Encryption by a mask, with a sum for a tag. -/
def maskGcm : Gcm where
  encrypt key iv plaintext :=
    (plaintext.mapIdx fun i b => b ^^^ (key ++ iv).getD (i % 44) 0, toBE 16 (ofBE (key ++ plaintext)))
  decrypt key iv authTag ciphertext :=
    let plaintext := ciphertext.mapIdx fun i b => b ^^^ (key ++ iv).getD (i % 44) 0
    if authTag = toBE 16 (ofBE (key ++ plaintext)) then some plaintext else none

theorem maskGcm_correct :
  maskGcm.Correct
  := by
  constructor
  · intro key iv plaintext
    apply length_toBE
  · intro key iv plaintext _ _
    have hid : plaintext.mapIdx (fun _ b => b) = plaintext := by
      apply List.ext_getElem <;> simp
    simp only [maskGcm, List.mapIdx_mapIdx, Function.comp_def, UInt8.xor_assoc, UInt8.xor_self,
      UInt8.xor_zero, hid, if_true]

/-- Keys made of a number. -/
def numberedKeys (key : Word) : NewKeys where
  encryptionPublicKey := key.toBytes
  encryptionSecretKey := key.toBytes
  signingPublicKey := key.toBytes
  signingSecretKey := key.toBytes
  encryptionIv := ⟨List.replicate 12 1, rfl⟩
  signingIv := ⟨List.replicate 12 2, rfl⟩

/-- A process makes the keys of two nodes, and another one finds them. -/
def restart : List KeysAction :=
  let start (p : ℕ) : KeysAction := .loadOrGenerateKeys p (some (List.replicate 64 'a'))
    ["node-1".toList, "node-2".toList]
  [start 0, .select 0, .insert 0 (numberedKeys 1), .insert 0 (numberedKeys 2), start 1, .select 1]

/-- The keys of the two nodes. -/
def restartKeys : List CommitteeNodeKeyPair :=
  [generateNodeKeyPair "node-1".toList (numberedKeys 1),
    generateNodeKeyPair "node-2".toList (numberedKeys 2)]

/-- The two processes. -/
def restarted : KeysWorld := run (keysStep maskGcm) (.init []) restart

theorem calls_restarted :
  restarted.calls 0
      = some ⟨List.replicate 32 170, ["node-1".toList, "node-2".toList], .returned restartKeys⟩
    ∧ restarted.calls 1 = restarted.calls 0
  := by
  decide +kernel

/-- Whatever processes start and end, in whatever order: a call that returns has the keys of its
nodes, and each of them is in the table, unless the call made it and another row came first. -/
theorem returned_stored_or_lost (gcm : Gcm) (hgcm : gcm.Correct) (table : List KeyRow)
    (actions : List KeysAction) (p : ℕ) (encKey : Bytes) (nodeIds : List Text)
    (keypairs : List CommitteeNodeKeyPair)
    (hcall : (run (keysStep gcm) (.init table) actions).calls p
      = some ⟨encKey, nodeIds, .returned keypairs⟩) :
  keypairs.map CommitteeNodeKeyPair.nodeId = nodeIds
    ∧ ∀ kp ∈ keypairs,
        Stored gcm (run (keysStep gcm) (.init table) actions).table encKey kp
          ∨ Occurs (keysStep gcm) (.init table) (Lost p kp) actions
  := by
  cases run_progresses hgcm table actions p _ hcall with
  | returned _ hids hgood => exact ⟨hids, hgood⟩

/-- The second process finds the keys in the table. -/
theorem returned_stored_or_lost_restarted :
  restartKeys.map CommitteeNodeKeyPair.nodeId = ["node-1".toList, "node-2".toList]
    ∧ ∀ kp ∈ restartKeys,
        Stored maskGcm restarted.table (List.replicate 32 170) kp
          ∨ Occurs (keysStep maskGcm) (.init []) (Lost 1 kp) restart
  := returned_stored_or_lost maskGcm maskGcm_correct [] restart 1 _ _ _
      (calls_restarted.2.trans calls_restarted.1)

/-! ### Calls one after the other -/

/-- The call waits for an insertion. -/
def KeysPhase.Inserts : KeysPhase → Prop
  | .insert .. => True
  | _ => False

/-- No rows are selected while a call inserts some, and the nodes of a call are different. -/
def Quiet (w : KeysWorld) : KeysAction → Prop
  | .select _ => ∀ q call, w.calls q = some call → ¬ call.phase.Inserts
  | .loadOrGenerateKeys _ _ nodeIds => nodeIds.Nodup
  | _ => True

/-- The nodes that a call has no keys for have no row. -/
def Missing (table : List KeyRow) : KeysPhase → Prop
  | .insert existing id rest _ => (id :: rest).Nodup ∧ OrderedMap.get existing id = none
      ∧ ∀ i ∈ id :: rest, OrderedMap.get existing i = none → ∀ row ∈ table, row.nodeId ≠ i
  | _ => True

/-- At most one call inserts, and nobody has inserted its rows. -/
structure Clear (w : KeysWorld) : Prop where
  nodup : ∀ p call, w.calls p = some call → call.nodeIds.Nodup
  missing : ∀ p call, w.calls p = some call → Missing w.table call.phase
  alone : ∀ p q call call', w.calls p = some call → w.calls q = some call' →
    call.phase.Inserts → call'.phase.Inserts → p = q

theorem missing_of_not_inserts (h : ¬ phase.Inserts) :
  Missing table phase
  := by
  cases phase with
  | insert => exact absurd trivial h
  | _ => trivial

/-- The remaining nodes are among those that were left before. -/
theorem missing_nextMissing (hnodup : rest.Nodup)
    (habsent : ∀ i ∈ rest, OrderedMap.get existing i = none → ∀ row ∈ table, row.nodeId ≠ i) :
  Missing table (nextMissing existing rest keypairs)
  := by
  induction rest generalizing keypairs with
  | nil => trivial
  | cons id rest ih =>
      rw [nextMissing]
      cases hget : OrderedMap.get existing id with
      | none => exact ⟨hnodup, hget, habsent⟩
      | some kp => exact ih hnodup.of_cons fun i hi => habsent i (List.mem_cons_of_mem id hi)

theorem missing_selected (hnodup : nodeIds.Nodup) :
  Missing table (selected gcm (table.filter fun row => nodeIds.contains row.nodeId) encKey nodeIds)
  := by
  rw [selected]
  split
  · split <;> trivial
  · split
    · next existing h =>
        obtain ⟨-, hall⟩ := read_of_mapM (List.filter_subset_self _) h
        apply missing_nextMissing hnodup
        rintro i hi hget row hrow rfl
        exact hall row (List.mem_filter.mpr ⟨hrow, List.contains_iff_mem.mpr hi⟩) hget
    · trivial

theorem clear_init (table : List KeyRow) :
  Clear (.init table)
  := by
  constructor
  · intro p call h
    cases h
  · intro p call h
    cases h
  · intro p q call call' h
    cases h

/-- A call goes on, maybe with an insertion. -/
theorem Clear.move (hw : Clear w) (table : List KeyRow) (hnodup : call.nodeIds.Nodup)
    (hmissing : Missing table call.phase)
    (hothers : ∀ q call', q ≠ p → w.calls q = some call' →
      Missing table call'.phase ∧ (call.phase.Inserts → ¬ call'.phase.Inserts)) :
  Clear ({ w with table := table }.move p call)
  := by
  constructor
  · intro q call' hcall'
    rcases calls_move_eq_some hcall' with ⟨rfl, rfl⟩ | ⟨-, hcall'⟩
    · exact hnodup
    · exact hw.nodup q call' hcall'
  · intro q call' hcall'
    rcases calls_move_eq_some hcall' with ⟨rfl, rfl⟩ | ⟨hne, hcall'⟩
    · exact hmissing
    · exact (hothers q call' hne hcall').1
  · intro q q' c c' hc hc' hinserts hinserts'
    rcases calls_move_eq_some hc with ⟨rfl, rfl⟩ | ⟨hne, hold⟩
    · rcases calls_move_eq_some hc' with ⟨rfl, rfl⟩ | ⟨hne', hold'⟩
      · rfl
      · exact absurd hinserts' ((hothers q' c' hne' hold').2 hinserts)
    · rcases calls_move_eq_some hc' with ⟨rfl, rfl⟩ | ⟨-, hold'⟩
      · exact absurd hinserts ((hothers q c hne hold).2 hinserts')
      · exact hw.alone q q' c c' hold hold' hinserts hinserts'

theorem step_clear (hw : Clear w) (hquiet : Quiet w a) (h : keysStep gcm a w = some w') :
  Clear w'
  := by
  cases keysStep_change h with
  | start p secret encKey nodeIds hidle =>
      refine hw.move w.table hquiet trivial ?_
      intro q call' _ hcall'
      use hw.missing q call' hcall'
      exact False.elim
  | select p call hcall hphase =>
      have hnodup := hw.nodup p call hcall
      refine hw.move w.table hnodup (missing_selected hnodup) ?_
      intro q call' _ hcall'
      use hw.missing q call' hcall'
      exact fun _ => hquiet q call' hcall'
  | threw _ p call hcall =>
      refine hw.move w.table (hw.nodup p call hcall) trivial ?_
      intro q call' _ hcall'
      use hw.missing q call' hcall'
      exact False.elim
  | insert p new call existing id rest keypairs row hcall hphase hrow =>
      have hinserts : call.phase.Inserts := by
        rw [hphase]
        trivial
      have hquiet : ∀ q call', q ≠ p → w.calls q = some call' → ¬ call'.phase.Inserts :=
        fun q call' hne hcall' hinserts' => hne (hw.alone q p call' call hcall' hcall hinserts' hinserts)
      have hmissing := hw.missing p call hcall
      rw [hphase] at hmissing
      obtain ⟨hnodup, -, habsent⟩ := hmissing
      obtain ⟨hid, hrest⟩ := List.nodup_cons.mp hnodup
      have hrowid : row.nodeId = id := nodeId_of_keyPairToRow hrow
      refine hw.move _ (hw.nodup p call hcall) ?_ ?_
      · apply missing_nextMissing hrest
        intro i hi hget r hr
        rw [insertOrNothing] at hr
        split at hr
        · exact habsent i (List.mem_cons_of_mem id hi) hget r hr
        · rcases List.mem_append.mp hr with hr | hr
          · exact habsent i (List.mem_cons_of_mem id hi) hget r hr
          · obtain rfl := List.mem_singleton.mp hr
            rintro rfl
            rw [hrowid] at hi
            exact hid hi
      · intro q call' hne hcall'
        use missing_of_not_inserts (hquiet q call' hne hcall')
        exact fun _ => hquiet q call' hne hcall'

/-- Calls that come one after the other lose nothing. -/
theorem not_lost {actions : List KeysAction}
    (hquiet : Along (keysStep gcm) Quiet (.init table) actions) :
  ¬ Occurs (keysStep gcm) (.init table) (Lost p kp) actions
  := by
  rintro ⟨pre, a, w', hpre, hstep, new, call, existing, rest, keypairs, rfl, hcall, hphase, -, row,
    hrow, hid⟩
  have hclear : Clear (run (keysStep gcm) (.init table) pre) := by
    obtain ⟨rest, rfl⟩ := (List.prefix_append pre _).trans hpre
    exact invariant_run (fun _ _ _ => step_clear) pre _ hquiet.of_append (clear_init table)
  have hmissing := hclear.missing p call hcall
  rw [hphase] at hmissing
  exact hmissing.2.2 kp.nodeId List.mem_cons_self hmissing.2.1 row hrow hid

theorem quiet_restart :
  Along (keysStep maskGcm) Quiet (.init []) restart
  := by
  refine ⟨?_, ?_, trivial, trivial, ?_, ?_, trivial⟩
  · change List.Nodup _
    decide
  · rintro (_ | q) call hcall
    · obtain rfl := Option.some.inj hcall
      exact id
    · cases hcall
  · change List.Nodup _
    decide
  · rintro (_ | _ | q) call hcall
    · obtain rfl := Option.some.inj hcall
      exact id
    · obtain rfl := Option.some.inj hcall
      exact id
    · cases hcall

theorem nodup_table (hnodup : (table.map KeyRow.nodeId).Nodup) (actions : List KeysAction) :
  ((run (keysStep gcm) (.init table) actions).table.map KeyRow.nodeId).Nodup
  := by
  refine invariant_run_of_step (I := fun w : KeysWorld => (w.table.map KeyRow.nodeId).Nodup)
    ?_ actions hnodup
  intro w a w' hw h
  exact (keysStep_table h).2 hw

end

/-! ### Signatures from before a restart -/

/-- The keys of a node have the right length, and its signatures verify. -/
structure Working (nacl : NaclSign) (node : CommitteeNodeKeyPair) : Prop where
  length_key : node.signingPublicKey.length = 32
  length : ∀ message, (nacl.detached message node.signingSecretKey).length = 64
  correct : ∀ message,
    nacl.verify message (nacl.detached message node.signingSecretKey) node.signingPublicKey = true

theorem Working.verifyNodeSignature_signBatch {nacl : NaclSign} {sha256 : Bytes → Word}
    {node : CommitteeNodeKeyPair} (h : Working nacl node) (batchId : Text)
    (matchList : List MatchResult) :
  verifyNodeSignature nacl sha256 batchId matchList (signBatch nacl sha256 batchId matchList node)
    = some true
  := by
  simp only [verifyNodeSignature, signBatch, fromHex_hexBytes, h.length, h.length_key, and_self,
    if_true, h.correct]

/-- The loop accepts the signatures of different members. -/
theorem checkSignatures_signBatch {nacl : NaclSign} {sha256 : Bytes → Word}
    {batch : SignedMatchBatch} {expected : List Text} (nodes : List CommitteeNodeKeyPair)
    (seen : List Text) (hworking : ∀ node ∈ nodes, Working nacl node)
    (hexpected : ∀ node ∈ nodes, hexBytes node.signingPublicKey ∈ expected)
    (hseen : (seen ++ nodes.map fun node => hexBytes node.signingPublicKey).Nodup) :
  checkSignatures nacl sha256 expected batch
      (nodes.map (signBatch nacl sha256 batch.batchId batch.matchList)) seen
    = some (some (seen ++ nodes.map fun node => hexBytes node.signingPublicKey))
  := by
  induction nodes generalizing seen with
  | nil => simp [checkSignatures]
  | cons node nodes ih =>
      obtain ⟨hnode, hworking⟩ := List.forall_mem_cons.mp hworking
      obtain ⟨hmem, hexpected⟩ := List.forall_mem_cons.mp hexpected
      rw [List.map_cons, List.append_cons] at hseen
      have hnotmem : hexBytes node.signingPublicKey ∉ seen := by
        have hnodup := (List.nodup_append.mp hseen).1
        intro h
        exact (List.nodup_append.mp hnodup).2.2 _ h _ (List.mem_singleton_self _) rfl
      have hkey : (signBatch nacl sha256 batch.batchId batch.matchList node).signingPubkey
          = hexBytes node.signingPublicKey := rfl
      rw [List.map_cons, checkSignatures, hkey, if_neg (not_not.mpr (List.contains_iff_mem.mpr hmem)),
        if_neg (List.contains_iff_mem.not.mpr hnotmem),
        hnode.verifyNodeSignature_signBatch]
      simp only [Option.bind_eq_bind, Option.bind_some, if_true]
      rw [ih _ hworking hexpected hseen, List.map_cons, ← List.append_cons]

/-- If no process looks for rows while another one inserts some, then processes with the same
encryption key have the same keys for the same node, and a batch that enough nodes of one process
have signed verifies with the public keys that another one tells. -/
theorem restart_verifies (gcm : Gcm) (hgcm : gcm.Correct) (table : List KeyRow)
    (hnodup : (table.map KeyRow.nodeId).Nodup) (actions : List KeysAction)
    (hquiet : Along (keysStep gcm) Quiet (.init table) actions) (p q : ℕ) (encKey : Bytes)
    (nodeIds nodeIds' : List Text) (keypairs keypairs' : List CommitteeNodeKeyPair)
    (hp : (run (keysStep gcm) (.init table) actions).calls p
      = some ⟨encKey, nodeIds, .returned keypairs⟩)
    (hq : (run (keysStep gcm) (.init table) actions).calls q
      = some ⟨encKey, nodeIds', .returned keypairs'⟩) :
  (∀ kp ∈ keypairs, ∀ kp' ∈ keypairs', kp.nodeId = kp'.nodeId → kp = kp')
    ∧ ∀ (nacl : NaclSign) (sha256 : Bytes → Word) (batch : SignedMatchBatch)
        (nodes : List CommitteeNodeKeyPair), nodes ⊆ keypairs →
      (∀ node ∈ nodes, Working nacl node) →
      (∀ node ∈ nodes, node.nodeId ∈ nodeIds') →
      (nodes.map CommitteeNodeKeyPair.signingPublicKey).Nodup →
      quorum nodeIds'.length ≤ nodes.length →
      batch.signatures = nodes.map (signBatch nacl sha256 batch.batchId batch.matchList) →
      verifySignedBatch nacl sha256 batch (keypairs'.map nodePublicInfo) = some true
  := by
  have hstored : ∀ {p' ids kps}, (run (keysStep gcm) (.init table) actions).calls p'
      = some ⟨encKey, ids, .returned kps⟩ →
      kps.map CommitteeNodeKeyPair.nodeId = ids
        ∧ ∀ kp ∈ kps, Stored gcm (run (keysStep gcm) (.init table) actions).table encKey kp := by
    intro p' ids kps h
    cases run_progresses hgcm table actions p' _ h with
    | returned _ hids hgood =>
        use hids
        intro kp hkp
        exact (hgood kp hkp).resolve_right (not_lost hquiet)
  obtain ⟨-, hkps⟩ := hstored hp
  obtain ⟨hids', hkps'⟩ := hstored hq
  have hagree : ∀ kp ∈ keypairs, ∀ kp' ∈ keypairs', kp.nodeId = kp'.nodeId → kp = kp' := by
    intro kp hkp kp' hkp' hid
    apply (hkps kp hkp).unique (nodup_table hnodup actions) (hkps' kp' hkp') hid
  use hagree
  intro nacl sha256 batch nodes hnodes hworking hknown hdistinct hquorum hsignatures
  have hexpected : ∀ node ∈ nodes, hexBytes node.signingPublicKey
      ∈ (keypairs'.map nodePublicInfo).map NodePublicInfo.signingPubkey := by
    intro node hnode
    have hid := hknown node hnode
    rw [← hids'] at hid
    obtain ⟨kp', hkp', hid⟩ := List.mem_map.mp hid
    obtain rfl := hagree node (hnodes hnode) kp' hkp' hid.symm
    rw [List.map_map]
    exact List.mem_map_of_mem (f := NodePublicInfo.signingPubkey ∘ nodePublicInfo) hkp'
  have hprinted := hdistinct.map hexBytes_injective
  rw [List.map_map] at hprinted
  have hlength : (keypairs'.map nodePublicInfo).length = nodeIds'.length := by
    rw [← hids', List.length_map, List.length_map]
  rw [verifySignedBatch, hsignatures, checkSignatures_signBatch nodes [] hworking hexpected hprinted]
  simp only [Option.bind_eq_bind, Option.bind_some, Option.pure_def, hlength, List.nil_append,
    List.length_map, Option.some.injEq, decide_eq_true_eq]
  exact hquorum

/-- The two nodes have signed the batch. -/
def restartSigned : SignedMatchBatch :=
  { twoSigned with
    signatures := restartKeys.map
      (signBatch hashSign Shade.sha256 twoSigned.batchId twoSigned.matchList) }

/-- What the first process has signed verifies with what the second one tells. -/
theorem restart_verifies_restarted :
  verifySignedBatch hashSign Shade.sha256 restartSigned (restartKeys.map nodePublicInfo) = some true
  := by
  apply (restart_verifies maskGcm maskGcm_correct [] List.nodup_nil restart quiet_restart 0 1 _ _ _
    restartKeys restartKeys calls_restarted.1 (calls_restarted.2.trans calls_restarted.1)).2 hashSign
    Shade.sha256 restartSigned restartKeys (List.Subset.refl _) _ _ _ (by decide) rfl
  · intro node hnode
    simp only [restartKeys, List.mem_cons, List.not_mem_nil, or_false] at hnode
    constructor
    · rcases hnode with rfl | rfl <;> exact Word.length_toBytes _
    · intro message
      simp [hashSign, length_toBE, Word.length_toBytes]
    · intro message
      rcases hnode with rfl | rfl <;> exact decide_eq_true rfl
  · intro node hnode
    exact List.mem_map_of_mem (f := CommitteeNodeKeyPair.nodeId) hnode
  · decide +kernel

end Shade.Committee
