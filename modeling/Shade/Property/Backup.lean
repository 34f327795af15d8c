import Shade.Property.Isolation

/-!
# Verified backups

A vault that is ready for a deposit has a backup that was verified, but three routes replace the
envelope of a vault without a change of the status. `ready_verified` says that, as long as no
request replaces the envelope of a vault with a verified backup by another one, a vault that is
ready has the envelope that it had when its backup was last verified.
-/

namespace Shade.Api

open Text Table

/-- The tables, and for reference the envelope that each vault had when its backup was last
verified. -/
structure Tracked where
  accounts : Accounts
  verified : Text → Option EncryptedVaultEnvelope

/-- The envelopes at the last verifications, after a request to a server with given tables. -/
def AccountCall.track (c : AccountCall) (s : Accounts) (reply : Except ApiError AccountReply)
    (verified : Text → Option EncryptedVaultEnvelope) : Text → Option EncryptedVaultEnvelope :=
  match reply with
  | .ok (.verified vaultId _) =>
      Function.update verified vaultId
        ((getNoteVault c.auth.userId vaultId s.noteVaults).map NoteVault.envelope)
  | _ => verified

variable (lib : Wallets) (opts : RecoverySettings)

/-- One request. -/
def trackedStep (c : AccountCall) (w : Tracked) : Option Tracked :=
  some ⟨(c.answer lib opts w.accounts).2,
    c.track w.accounts (c.answer lib opts w.accounts).1 w.verified⟩

/-- The tables after a list of requests. -/
def trackedRun (w : Tracked) (calls : List AccountCall) : Tracked :=
  Machine.run (trackedStep lib opts) w calls

/-- The identifiers of vaults are unique, and no backup has been verified yet. -/
structure Tracked.Initial (w : Tracked) : Prop where
  nodup : (w.accounts.noteVaults.map NoteVault.vaultId).Nodup
  created : ∀ v ∈ w.accounts.noteVaults, v.backupStatus ≠ .verified

/-- A request does not replace the envelope of a vault with a verified backup by another one. -/
def KeepsVerified (c : AccountCall) (s : Accounts) : Prop :=
  match c.request with
  | .createVault body =>
      ∀ env policy, checkCreate opts c.auth body = .ok (env, policy) →
        ∀ v ∈ s.noteVaults, v.vaultId = env.vaultId → v.backupStatus = .verified →
          env = v.envelope
  | .updateVault vaultId body =>
      ∀ env policy, checkUpdate opts c.auth vaultId body = .ok (env, policy) →
        ∀ v ∈ s.noteVaults, v.userId = c.auth.userId → v.vaultId = vaultId →
          v.backupStatus = .verified → env = v.envelope
  | .addWrapper vaultId body =>
      ∀ wrapper env policy, checkWrapper opts vaultId body = .ok (wrapper, env, policy) →
        ∀ v ∈ s.noteVaults, v.userId = c.auth.userId → v.vaultId = vaultId →
          v.backupStatus = .verified → env = v.envelope
  | _ => True

/-! ### The invariant -/

/-- A vault with a verified backup has the envelope of its last verification. -/
structure Tracked.Matches (w : Tracked) : Prop where
  nodup : (w.accounts.noteVaults.map NoteVault.vaultId).Nodup
  envelope : ∀ v ∈ w.accounts.noteVaults, v.backupStatus = .verified →
    w.verified v.vaultId = some v.envelope

theorem Tracked.Initial.matches {w : Tracked} (h : w.Initial) :
  w.Matches
  where
  nodup := h.nodup
  envelope v hv hverified := absurd hverified (h.created v hv)

variable {s s' : Accounts} {verified verified' : Text → Option EncryptedVaultEnvelope}

/-- The invariant is about the vaults only. -/
theorem Tracked.Matches.of_noteVaults (h : (⟨s, verified⟩ : Tracked).Matches)
    (hvaults : s'.noteVaults = s.noteVaults) :
  (⟨s', verified⟩ : Tracked).Matches
  where
  nodup := by
    rw [hvaults]
    apply h.nodup
  envelope := by
    rw [hvaults]
    apply h.envelope

/-- The invariant after an update of rows. -/
theorem Tracked.Matches.update (h : (⟨s, verified⟩ : Tracked).Matches) {p : NoteVault → Prop}
    [DecidablePred p] {f : NoteVault → NoteVault} (hid : ∀ v, (f v).vaultId = v.vaultId)
    (hother : ∀ v ∈ s.noteVaults, ¬ p v → verified' v.vaultId = verified v.vaultId)
    (hupdated : ∀ v ∈ s.noteVaults, p v → (f v).backupStatus = .verified →
      verified' v.vaultId = some (f v).envelope)
    (hvaults : s'.noteVaults = updateWhere p f s.noteVaults) :
  (⟨s', verified'⟩ : Tracked).Matches
  where
  nodup := by
    rw [hvaults, map_updateWhere fun v _ _ => hid v]
    apply h.nodup
  envelope := by
    intro v hv hverified
    rw [hvaults] at hv
    obtain ⟨u, hu, rfl⟩ := mem_updateWhere.mp hv
    by_cases hp : p u
    · rw [if_pos hp] at hverified ⊢
      rw [hid]
      apply hupdated u hu hp hverified
    · rw [if_neg hp] at hverified ⊢
      apply (hother u hu hp).trans (h.envelope u hu hverified)

/-- An envelope is written to rows that have it already if their backup is verified. -/
theorem Tracked.Matches.withEnvelope (h : (⟨s, verified⟩ : Tracked).Matches)
    {p : NoteVault → Prop} [DecidablePred p] {env : EncryptedVaultEnvelope}
    {policy : RecoveryPolicyStatus} {now : ℕ}
    (hkeeps : ∀ v ∈ s.noteVaults, p v → v.backupStatus = .verified → env = v.envelope)
    (hvaults : s'.noteVaults = updateWhere p (NoteVault.withEnvelope env policy now) s.noteVaults) :
  (⟨s', verified⟩ : Tracked).Matches
  := by
  apply h.update (by exact fun _ => rfl) (fun _ _ _ => rfl) _ hvaults
  intro v hv hp hverified
  rw [NoteVault.withEnvelope, hkeeps v hv hp hverified]
  apply h.envelope v hv hverified

/-- A vault is created. -/
theorem Tracked.Matches.create (h : (⟨s, verified⟩ : Tracked).Matches) {id userId : Uuid}
    {privyUserId : Text} {env : EncryptedVaultEnvelope} {policy : RecoveryPolicyStatus} {now : ℕ}
    (hkeeps : ∀ v ∈ s.noteVaults, v.vaultId = env.vaultId → v.backupStatus = .verified →
      env = v.envelope)
    (hvaults : s'.noteVaults
      = createNoteVault id userId privyUserId env policy now s.noteVaults) :
  (⟨s', verified⟩ : Tracked).Matches
  := by
  rw [createNoteVault, insertOrUpdate] at hvaults
  split at hvaults
  · apply h.withEnvelope hkeeps hvaults
  · case isFalse hno =>
      constructor
      · rw [hvaults, List.map_append]
        apply List.Nodup.append h.nodup (List.nodup_singleton _)
        apply List.disjoint_singleton.mpr
        intro hmem
        obtain ⟨v, hv, hid⟩ := List.mem_map.mp hmem
        apply hno ⟨v, hv, hid⟩
      · intro v hv hverified
        rw [hvaults, List.mem_append, List.mem_singleton] at hv
        rcases hv with hv | rfl
        · apply h.envelope v hv hverified
        · cases hverified

/-- The vault that a statement finds is a row of the user. -/
theorem getNoteVault_eq_some {userId : Uuid} {vaultId : Text} {vaults : List NoteVault}
    {v : NoteVault} (h : getNoteVault userId vaultId vaults = some v) :
  v ∈ vaults ∧ v.userId = userId ∧ v.vaultId = vaultId
  := by
  have hv := List.find?_some h
  rw [decide_eq_true_eq] at hv
  exact ⟨List.mem_of_find?_eq_some h, hv⟩

/-- With unique identifiers, a row of a user is the one that a statement finds. -/
theorem getNoteVault_of_mem {vaults : List NoteVault}
    (hnodup : (vaults.map NoteVault.vaultId).Nodup) {v : NoteVault} (hv : v ∈ vaults) :
  getNoteVault v.userId v.vaultId vaults = some v
  := by
  cases h : getNoteVault v.userId v.vaultId vaults with
  | none =>
      have hnone := List.find?_eq_none.mp h v hv
      simp at hnone
  | some u =>
      obtain ⟨hu, -, hid⟩ := getNoteVault_eq_some h
      rw [List.inj_on_of_nodup_map hnodup hu hv hid]

/-- The backup of a vault of a user is verified. -/
theorem Tracked.Matches.verify (h : (⟨s, verified⟩ : Tracked).Matches) {userId : Uuid}
    {vaultId : Text} {verification : Verification} {now : ℕ}
    (hfound : getNoteVault userId vaultId s.noteVaults ≠ none)
    (hvaults : s'.noteVaults
      = setVaultBackupVerified userId vaultId verification now s.noteVaults) :
  (⟨s', Function.update verified vaultId
    ((getNoteVault userId vaultId s.noteVaults).map NoteVault.envelope)⟩ : Tracked).Matches
  := by
  apply h.update (by exact fun _ => rfl) _ _ hvaults
  · intro v hv hp
    apply Function.update_of_ne
    rintro rfl
    obtain ⟨u, hu⟩ := Option.ne_none_iff_exists'.mp hfound
    obtain ⟨hmem, huser, hid⟩ := getNoteVault_eq_some hu
    rw [List.inj_on_of_nodup_map h.nodup hmem hv hid] at huser
    apply hp ⟨huser, rfl⟩
  · rintro v hv ⟨rfl, rfl⟩ -
    rw [Function.update_self, getNoteVault_of_mem h.nodup hv]
    rfl

/-- A vault is restored. -/
theorem Tracked.Matches.restore (h : (⟨s, verified⟩ : Tracked).Matches) {userId : Uuid}
    {vaultId : Text} {now : ℕ}
    (hvaults : s'.noteVaults = setVaultRestored userId vaultId now s.noteVaults) :
  (⟨s', verified⟩ : Tracked).Matches
  := by
  apply h.update (by exact fun _ => rfl) (fun _ _ _ => rfl) _ hvaults
  intro v _ _ hverified
  cases hverified

/-- A verification that is accepted finds the vault of the user. -/
theorem getNoteVault_ne_none_of_checkVerification {auth : PrivyAuth} {vaultId : Text} {body : Json}
    {vaults : List NoteVault} {verification : Verification}
    (h : checkVerification auth vaultId body vaults = .ok verification) :
  getNoteVault auth.userId vaultId vaults ≠ none
  := by
  intro hnone
  simp only [checkVerification, hnone, bind, Except.bind] at h
  split at h
  · cases h
  · split at h
    · cases h
    · cases h

/-- One request keeps the invariant. -/
theorem Tracked.Matches.answer (h : (⟨s, verified⟩ : Tracked).Matches) {c : AccountCall}
    (hkeeps : KeepsVerified opts c s) :
  (⟨(c.answer lib opts s).2, c.track s (c.answer lib opts s).1 verified⟩ : Tracked).Matches
  := by
  obtain ⟨auth, now, ids, request⟩ := c
  simp only [AccountCall.answer, AccountCall.track]
  cases request with
  | createVault body =>
      simp only [handle]
      cases hcheck : checkCreate opts auth body with
      | error e => exact h
      | ok res => apply h.create (hkeeps res.1 res.2 hcheck) rfl
  | updateVault vaultId body =>
      simp only [handle]
      cases hcheck : checkUpdate opts auth vaultId body with
      | error e => exact h
      | ok res =>
          cases hget : getNoteVault auth.userId vaultId s.noteVaults with
          | none => exact h
          | some _ =>
              refine h.withEnvelope ?_ rfl
              rintro v hv ⟨huser, hid⟩
              apply hkeeps res.1 res.2 hcheck v hv huser hid
  | verifyBackup vaultId body =>
      simp only [handle]
      cases hcheck : checkVerification auth vaultId body s.noteVaults with
      | error e => exact h
      | ok verification =>
          apply h.verify (getNoteVault_ne_none_of_checkVerification hcheck) rfl
  | markRestored vaultId =>
      simp only [handle]
      cases hget : getNoteVault auth.userId vaultId s.noteVaults with
      | none => exact h
      | some _ => apply h.restore rfl
  | addWrapper vaultId body =>
      simp only [handle]
      cases hcheck : checkWrapper opts vaultId body with
      | error e => exact h
      | ok res =>
          obtain ⟨wrapper, env, policy⟩ := res
          have hvaults := fun v hv (hp : v.userId = auth.userId ∧ v.vaultId = vaultId) =>
            hkeeps wrapper env policy hcheck v hv hp.1 hp.2
          dsimp only
          split
          · apply h.withEnvelope hvaults rfl
          · apply h.withEnvelope hvaults rfl
  | deleteWrapper vaultId wrapperId =>
      simp only [handle]
      split
      · exact h.of_noteVaults rfl
      · exact h
  | syncPrivy body =>
      simp only [handle]
      cases hparse : parsed (syncPrivyWalletsSchema body) with
      | error e => exact h
      | ok ls => exact h.of_noteVaults rfl
  | addWallet body =>
      simp only [handle]
      cases hcheck : checkWallet lib now body s.authNonces with
      | error e => exact h
      | ok res =>
          obtain ⟨req, address, _ | n⟩ := res
          · exact h
          · dsimp only
            split
            · exact h.of_noteVaults rfl
            · exact h.of_noteVaults rfl
  | deleteWallet walletId =>
      simp only [handle]
      split
      · exact h.of_noteVaults rfl
      · exact h

/-! ### Runs -/

/-- Along requests that replace no envelope of a vault with a verified backup by another one, a
vault that is ready for a deposit has the envelope that it had at the last verification. -/
theorem ready_verified {w : Tracked} (hw : w.Initial) (calls : List AccountCall)
    (hkeeps : Machine.Along (trackedStep lib opts) (fun w c => KeepsVerified opts c w.accounts)
      w calls)
    (userId : Uuid) (vaultId : Text) {r : DepositReadiness}
    (hready : vaultDepositReady userId vaultId
      (trackedRun lib opts w calls).accounts.noteVaults = some r)
    (h : r.ready = true) :
  ∃ v, getNoteVault userId vaultId (trackedRun lib opts w calls).accounts.noteVaults = some v
    ∧ (trackedRun lib opts w calls).verified vaultId = some v.envelope
  := by
  have hmatches : (trackedRun lib opts w calls).Matches := by
    refine Machine.invariant_run ?_ calls w hkeeps hw.matches
    rintro ⟨s, verified⟩ c w' hs hc heq
    cases heq
    apply hs.answer lib opts hc
  obtain ⟨v, hv, rfl⟩ := Option.map_eq_some_iff.mp hready
  obtain ⟨hmem, -, rfl⟩ := getNoteVault_eq_some hv
  use v, hv
  apply hmatches.envelope v hmem (of_decide_eq_true h).1

/-! ### A verified vault that is replaced -/

/-- No vaults. -/
def noVaults : Tracked where
  accounts := ⟨[], [], [], []⟩
  verified _ := none

theorem noVaults_initial :
  noVaults.Initial
  where
  nodup := List.nodup_nil
  created v hv := by cases hv

/-- Alice creates a vault. -/
def createCall (now : ℕ) (ciphertext : Text) : AccountCall where
  auth := alice
  now := now
  ids := fun i => 10 * now + i
  request := .createVault (bodyOf (envelopeOf "vault-1".toList alice ciphertext))

/-- Alice reports that she could decrypt the vault. -/
def verifyCall (now : ℕ) : AccountCall where
  auth := alice
  now := now
  ids := fun i => 10 * now + i
  request := .verifyBackup "vault-1".toList (.object [("verification".toList, .object
    [("vault_id".toList, .string "vault-1".toList),
      ("decrypted_vault_hash".toList, .string "0x00112233".toList),
      ("commitments_hash".toList, .string "0x44".toList),
      ("method".toList, .string "recovery_kit_password".toList),
      ("verified_at_client".toList, .string "2026-01-01".toList)])])

/-- The vault that Alice has verified. -/
def verifiedVault : Tracked :=
  trackedRun noWallets testnet noVaults [createCall 1 "Zmlyc3Q=".toList, verifyCall 2]

/-- It is ready, and it has the envelope that was verified. -/
theorem verifiedVault_ready :
  ∃ v, getNoteVault alice.userId "vault-1".toList verifiedVault.accounts.noteVaults = some v
    ∧ verifiedVault.verified "vault-1".toList = some v.envelope
  := by
  have hready : vaultDepositReady alice.userId "vault-1".toList verifiedVault.accounts.noteVaults
      = some ⟨true, .verified, .sufficient⟩ := by decide +kernel
  apply ready_verified noWallets testnet noVaults_initial
    [createCall 1 "Zmlyc3Q=".toList, verifyCall 2] _ alice.userId "vault-1".toList hready rfl
  refine ⟨?_, trivial, trivial⟩
  intro env policy _ v hv
  cases hv

/-- Another envelope is stored with the same request, and the vault is still ready, although the
envelope that was verified is not the one that is stored. -/
theorem replacedVault_ready :
  let w := trackedRun noWallets testnet noVaults
    [createCall 1 "Zmlyc3Q=".toList, verifyCall 2, createCall 3 "c2Vjb25k".toList]
  (vaultDepositReady alice.userId "vault-1".toList w.accounts.noteVaults).map
      DepositReadiness.ready = some true
    ∧ (getNoteVault alice.userId "vault-1".toList w.accounts.noteVaults).map
        NoteVault.envelope ≠ w.verified "vault-1".toList
  := by
  intro w
  constructor
  · decide +kernel
  · intro h
    have hciphertexts := congrArg (Option.map EncryptedVaultEnvelope.ciphertext) h
    revert hciphertexts
    decide +kernel

end Shade.Api
