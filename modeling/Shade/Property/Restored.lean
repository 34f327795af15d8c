import Shade.Property.Backup
import Shade.Property.NewVault

/-!
# Restored vaults

A user that has created a vault restores it with every method that it has chosen, whatever requests
the server has answered in between, provided that they store no envelopes for the vault other than
the versions that the user has saved. The user may also report that it has decrypted the vault, and
then the vault is ready for a deposit, unless the recovery policy is insufficient.
-/

namespace Shade.Client

open Text Api Table

variable {browser : Browser} {opts : RecoverySettings} {auth : PrivyAuth}

/-! ### Requests in between -/

/-- A vault of a user has an envelope and a recovery policy. -/
def Holds (owner : Uuid) (vid : Text) (env : EncryptedVaultEnvelope)
    (policy : RecoveryPolicyStatus) (vaults : List Api.NoteVault) : Prop :=
  ∃ v, getNoteVault owner vid vaults = some v ∧ v.envelope = env
    ∧ v.recoveryPolicyStatus = policy

section

variable {owner : Uuid} {vid : Text} {env : EncryptedVaultEnvelope}
  {policy : RecoveryPolicyStatus} {vaults : List Api.NoteVault}

/-- An update that keeps the keys of the rows keeps which row is found. -/
theorem getNoteVault_updateWhere {p : Api.NoteVault → Prop} [DecidablePred p]
    {f : Api.NoteVault → Api.NoteVault}
    (hkeys : ∀ v, (f v).userId = v.userId ∧ (f v).vaultId = v.vaultId) :
  getNoteVault owner vid (updateWhere p f vaults)
    = (getNoteVault owner vid vaults).map fun v => if p v then f v else v
  := by
  rw [getNoteVault, updateWhere, List.find?_map, getNoteVault]
  congr 2
  funext v
  rw [Function.comp_apply]
  split
  · rw [(hkeys v).1, (hkeys v).2]
  · rfl

/-- The user stores another envelope for the vault. -/
theorem Holds.save (h : Holds owner vid env policy vaults) (env' : EncryptedVaultEnvelope)
    (policy' : RecoveryPolicyStatus) (now : ℕ) :
  Holds owner vid env' policy' (updateNoteVault owner vid env' policy' now vaults)
  := by
  obtain ⟨v, hv, -⟩ := h
  obtain ⟨-, huser, hid⟩ := getNoteVault_eq_some hv
  refine ⟨v.withEnvelope env' policy' now, ?_, rfl, rfl⟩
  rw [updateNoteVault, getNoteVault_updateWhere, hv, Option.map_some, if_pos ⟨huser, hid⟩]
  intro v
  exact ⟨rfl, rfl⟩

/-- An update that writes neither to the envelope nor to the policy of the vault keeps them. -/
theorem Holds.update (h : Holds owner vid env policy vaults) {p : Api.NoteVault → Prop}
    [DecidablePred p] {f : Api.NoteVault → Api.NoteVault}
    (hkeys : ∀ v, (f v).userId = v.userId ∧ (f v).vaultId = v.vaultId)
    (hkeeps : ∀ v, v.userId = owner → v.vaultId = vid → p v →
      (f v).envelope = v.envelope ∧ (f v).recoveryPolicyStatus = v.recoveryPolicyStatus) :
  Holds owner vid env policy (updateWhere p f vaults)
  := by
  obtain ⟨v, hv, henv, hpolicy⟩ := h
  obtain ⟨-, huser, hid⟩ := getNoteVault_eq_some hv
  refine ⟨_, by rw [getNoteVault_updateWhere hkeys, hv, Option.map_some], ?_⟩
  split
  · case isTrue hp =>
      rw [(hkeeps v huser hid hp).1, (hkeeps v huser hid hp).2]
      use henv
  · use henv

/-- A vault with another identifier is stored beside the vault. -/
theorem Holds.create (h : Holds owner vid env policy vaults) {id userId : Uuid}
    {privyUserId : Text} {env' : EncryptedVaultEnvelope} {policy' : RecoveryPolicyStatus}
    {now : ℕ} (hne : env'.vaultId ≠ vid) :
  Holds owner vid env policy (createNoteVault id userId privyUserId env' policy' now vaults)
  := by
  rw [createNoteVault, insertOrUpdate]
  split
  · apply h.update
    · intro v
      exact ⟨rfl, rfl⟩
    · intro v _ hid hp
      exact absurd (hp.symm.trans hid) hne
  · obtain ⟨v, hv, hrest⟩ := h
    refine ⟨v, ?_, hrest⟩
    rw [getNoteVault] at hv
    rw [getNoteVault, List.find?_append, hv]
    rfl

/-- A vault with a new identifier has the envelope that is stored. -/
theorem holds_create (hfresh : ¬ VaultExists vid vaults) (hid : env.vaultId = vid) (id : Uuid)
    (privyUserId : Text) (now : ℕ) :
  Holds owner vid env policy (createNoteVault id owner privyUserId env policy now vaults)
  := by
  have hnone : getNoteVault owner vid vaults = none := by
    rw [getNoteVault, List.find?_eq_none]
    intro v hv hp
    apply hfresh ⟨v, hv, (of_decide_eq_true hp).2⟩
  have hconflict : ¬ ∃ v ∈ vaults, v.vaultId = env.vaultId := by
    rw [hid]
    apply hfresh
  refine ⟨newVault id owner privyUserId env policy now, ?_, rfl, rfl⟩
  rw [getNoteVault] at hnone
  rw [createNoteVault, insertOrUpdate, if_neg hconflict, getNoteVault, List.find?_append, hnone,
    Option.none_or, List.find?_singleton, if_pos]
  exact decide_eq_true ⟨rfl, hid⟩

end

section

variable (lib : Wallets) (opts : RecoverySettings)

/-- One request. -/
def accountStep (c : AccountCall) (s : Accounts) : Option Accounts := some (c.answer lib opts s).2

/-- The tables after a list of requests. -/
def accountRun (s : Accounts) (calls : List AccountCall) : Accounts :=
  Machine.run (accountStep lib opts) s calls

/-- If the request is accepted, it stores no envelope for the vault of a user. -/
def StoresNone (owner : Uuid) (vid : Text) (c : AccountCall) : Prop :=
  match c.request with
  | .createVault body =>
      ∀ env policy, checkCreate opts c.auth body = .ok (env, policy) → env.vaultId ≠ vid
  | .updateVault vaultId body =>
      ∀ res, checkUpdate opts c.auth vaultId body = .ok res →
        ¬ (c.auth.userId = owner ∧ vaultId = vid)
  | .addWrapper vaultId body =>
      ∀ res, checkWrapper opts vaultId body = .ok res → ¬ (c.auth.userId = owner ∧ vaultId = vid)
  | _ => True

variable {owner : Uuid} {vid : Text} {env : EncryptedVaultEnvelope}
  {policy : RecoveryPolicyStatus}

/-- One request keeps the envelope and the policy of a vault. -/
theorem Holds.answer {s : Accounts} (h : Holds owner vid env policy s.noteVaults)
    {c : AccountCall} (hnone : StoresNone opts owner vid c) :
  Holds owner vid env policy (c.answer lib opts s).2.noteVaults
  := by
  obtain ⟨auth, now, ids, request⟩ := c
  have hother : ∀ {vaultId : Text} {env' : EncryptedVaultEnvelope} {policy' : RecoveryPolicyStatus},
      ¬ (auth.userId = owner ∧ vaultId = vid) →
      Holds owner vid env policy (updateNoteVault auth.userId vaultId env' policy' now
        s.noteVaults) := by
    intro vaultId env' policy' hne
    apply h.update
    · intro v
      exact ⟨rfl, rfl⟩
    · rintro v rfl rfl ⟨huser, hid⟩
      exact absurd ⟨huser.symm, hid.symm⟩ hne
  simp only [AccountCall.answer]
  cases request with
  | createVault body =>
      simp only [handle]
      cases hcheck : checkCreate opts auth body with
      | error e => exact h
      | ok res =>
          apply h.create
          apply hnone res.1 res.2 hcheck
  | updateVault vaultId body =>
      simp only [handle]
      cases hcheck : checkUpdate opts auth vaultId body with
      | error e => exact h
      | ok res =>
          cases hget : getNoteVault auth.userId vaultId s.noteVaults with
          | none => exact h
          | some _ => apply hother (hnone res hcheck)
  | verifyBackup vaultId body =>
      simp only [handle]
      cases hcheck : checkVerification auth vaultId body s.noteVaults with
      | error e => exact h
      | ok verification =>
          apply h.update
          · intro v
            exact ⟨rfl, rfl⟩
          · intro v _ _ _
            exact ⟨rfl, rfl⟩
  | markRestored vaultId =>
      simp only [handle]
      cases hget : getNoteVault auth.userId vaultId s.noteVaults with
      | none => exact h
      | some _ =>
          apply h.update
          · intro v
            exact ⟨rfl, rfl⟩
          · intro v _ _ _
            exact ⟨rfl, rfl⟩
  | addWrapper vaultId body =>
      simp only [handle]
      cases hcheck : checkWrapper opts vaultId body with
      | error e => exact h
      | ok res =>
          dsimp only
          split
          · apply hother (hnone res hcheck)
          · apply hother (hnone res hcheck)
  | deleteWrapper vaultId wrapperId =>
      simp only [handle]
      split
      · exact h
      · exact h
  | syncPrivy body =>
      simp only [handle]
      cases hparse : parsed (syncPrivyWalletsSchema body) with
      | error e => exact h
      | ok ls => exact h
  | addWallet body =>
      simp only [handle]
      cases hcheck : checkWallet lib now body s.authNonces with
      | error e => exact h
      | ok res =>
          obtain ⟨req, address, _ | n⟩ := res
          · exact h
          · dsimp only
            split
            · exact h
            · exact h
  | deleteWallet walletId =>
      simp only [handle]
      split
      · exact h
      · exact h

/-- A client that fetches a vault gets its envelope as the database has kept it. -/
theorem Holds.fetchVault {auth : PrivyAuth} {s : Accounts}
    (h : Holds auth.userId vid env policy s.noteVaults) :
  fetchVault auth vid s = .ok env.stored
  := by
  obtain ⟨v, hv, rfl, -⟩ := h
  rw [Api.fetchVault, hv]

end

/-! ### Runs -/

/-- In the requests that the server answers the user saves versions of a vault, sealed with the
master key and with the wrappers of the vault, and no other request stores an envelope for it. The
last version is the one after the requests. -/
inductive Saved (browser : Browser) (opts : RecoverySettings) (auth : PrivyAuth) (masterKey : Bytes)
    (wrappers : List VaultWrapper) : NoteVault → List AccountCall → NoteVault → Prop
  | nil {v : NoteVault} : Saved browser opts auth masterKey wrappers v [] v
  | other {v last : NoteVault} {c : AccountCall} {calls : List AccountCall} :
      StoresNone opts auth.userId v.vaultId c →
      Saved browser opts auth masterKey wrappers v calls last →
      Saved browser opts auth masterKey wrappers v (c :: calls) last
  | save {v v' last : NoteVault} {env : EncryptedVaultEnvelope} {iv : Sized 12} {origin : Text}
      {t : ℕ} {ids : ℕ → Uuid} {calls : List AccountCall} :
      createVaultEnvelope browser iv v' masterKey auth.privyUserId origin wrappers = some env →
      v'.vaultId = v.vaultId →
      Saved browser opts auth masterKey wrappers v' calls last →
      Saved browser opts auth masterKey wrappers v
        (⟨auth, t, ids, .updateVault v.vaultId (envelopeBody env)⟩ :: calls) last

variable (lib : Wallets) {sel : Selection} {draws : SetupDraws} {now vid : Text}
  {vault last : NoteVault} {wrappers : List VaultWrapper} {policy : RecoveryPolicyStatus}

/-- The server keeps the last version of a vault. -/
theorem Saved.holds (hb : browser.Lawful) (hprivy : auth.privyUserId ≠ [])
    {calls : List AccountCall}
    (h : Saved browser opts auth draws.master.val wrappers vault calls last)
    (hvid : vault.vaultId ≠ []) {s : Accounts} {env : EncryptedVaultEnvelope}
    (hcreated : Created browser sel draws now auth.privyUserId vault env)
    (hwrappers : env.wrappers = wrappers)
    (hs : Holds auth.userId vault.vaultId env (evaluateRecoveryPolicy wrappers opts)
      s.noteVaults) :
  ∃ env', Created browser sel draws now auth.privyUserId last env' ∧ env'.wrappers = wrappers
    ∧ last.vaultId = vault.vaultId
    ∧ Holds auth.userId vault.vaultId env' (evaluateRecoveryPolicy wrappers opts)
      (accountRun lib opts s calls).noteVaults
  := by
  induction h generalizing s env with
  | nil => exact ⟨env, hcreated, hwrappers, rfl, hs⟩
  | other hnone _ ih => exact ih hvid hcreated hwrappers (hs.answer lib opts hnone)
  | @save v v' last env' iv origin t ids calls hsealed hid _ ih =>
      rw [← hwrappers] at hsealed
      obtain ⟨hwrappers', hcreated'⟩ := hcreated.reseal hsealed
      have hvid' : v'.vaultId ≠ [] := by
        rw [hid]
        apply hvid
      have hcheck : checkUpdate opts auth v.vaultId (envelopeBody env')
          = .ok (env', evaluateRecoveryPolicy wrappers opts) := by
        have haccepted : checkUpdate opts auth env'.vaultId (envelopeBody env') = _ :=
          checkUpdate_envelopeBody (hcreated'.clean hb hvid' hprivy) hcreated'.ids.2
        rw [hcreated'.ids.1, hid, hwrappers', hwrappers] at haccepted
        apply haccepted
      have hanswer : Holds auth.userId v.vaultId env' (evaluateRecoveryPolicy wrappers opts)
          ((⟨auth, t, ids, .updateVault v.vaultId (envelopeBody env')⟩ : AccountCall).answer lib
            opts s).2.noteVaults := by
        have hsaved := hs.save env' (evaluateRecoveryPolicy wrappers opts) t
        obtain ⟨row, hrow, -⟩ := hs
        simp only [AccountCall.answer, handle, hcheck, hrow]
        apply hsaved
      rw [← hid] at hanswer ⊢
      exact ih hvid' hcreated' (hwrappers'.trans hwrappers) hanswer

/-- The server stores a new vault, and then keeps its last version. -/
theorem Created.holds (hb : browser.Lawful) (hprivy : auth.privyUserId ≠ [])
    {env : EncryptedVaultEnvelope}
    (h : Created browser sel draws now auth.privyUserId vault env) (hvid : vault.vaultId ≠ [])
    {s : Accounts} (hfresh : ¬ VaultExists vault.vaultId s.noteVaults) (t : ℕ) (ids : ℕ → Uuid)
    {calls : List AccountCall}
    (hsaved : Saved browser opts auth draws.master.val env.wrappers vault calls last) :
  ∃ env', Created browser sel draws now auth.privyUserId last env' ∧ env'.wrappers = env.wrappers
    ∧ last.vaultId = vault.vaultId
    ∧ Holds auth.userId vault.vaultId env' (evaluateRecoveryPolicy env.wrappers opts)
      (accountRun lib opts s (⟨auth, t, ids, createVaultRequest env⟩ :: calls)).noteVaults
  := by
  have hcheck : checkCreate opts auth (envelopeBody env)
      = .ok (env, evaluateRecoveryPolicy env.wrappers opts) :=
    checkCreate_envelopeBody (h.clean hb hvid hprivy) h.ids.2
  have hanswer : Holds auth.userId vault.vaultId env (evaluateRecoveryPolicy env.wrappers opts)
      ((⟨auth, t, ids, .createVault (envelopeBody env)⟩ : AccountCall).answer lib opts
        s).2.noteVaults := by
    simp only [AccountCall.answer, handle, hcheck]
    apply holds_create hfresh h.ids.1
  exact hsaved.holds lib hb hprivy hvid h rfl hanswer

/-- A user that chooses a recovery method creates a vault. After the server has stored it and has
answered other requests, among them those with which the user saves versions of the vault, the user
restores the last version with every method that it has chosen, provided that no other request
stores an envelope for the vault. The page for the restoration has no button for the passkey, whose
wrapper is opened as the others are. -/
theorem vault_restored (hb : browser.Lawful) (lib : Wallets) (opts : RecoverySettings)
    (auth : PrivyAuth) (sel : Selection) (draws : SetupDraws) (now vid origin : Text)
    (hsel : 0 < sel.count) (hvid : vid ≠ []) (hprivy : auth.privyUserId ≠ []) :
  ∃ env file, createVault browser sel draws now vid auth.privyUserId origin = some (env, file)
    ∧ ∀ (s : Accounts) (t : ℕ) (ids : ℕ → Uuid) (calls : List AccountCall) (last : NoteVault),
      ¬ VaultExists vid s.noteVaults →
      Saved browser opts auth draws.master.val env.wrappers (createEmptyNoteVault vid now) calls
        last →
      ∃ stored, fetchEnvelope auth vid
          (accountRun lib opts s (⟨auth, t, ids, createVaultRequest env⟩ :: calls)) = some stored
        ∧ (∀ pk, sel.passkey = some pk →
          restoreBy browser (passkeyPrf browser) pk.prfOutput stored = some last.toJson)
        ∧ (∀ wallet, sel.freighter = some wallet →
          restoreWithFreighter browser wallet.2 stored = some last.toJson)
        ∧ (∀ pw, sel.password = some pw → pw ≠ [] →
          restoreWithPassword browser pw stored = some last.toJson)
        ∧ (sel.file = true →
          ∃ rf, file = some rf ∧ rf.vaultId = vid
            ∧ restoreFromFile browser rf stored = some last.toJson)
  := by
  obtain ⟨env, file, hcreate, hcreated, hfile⟩ := exists_createVault hsel
  refine ⟨env, file, hcreate, ?_⟩
  intro s t ids calls last hfresh hsaved
  obtain ⟨env', hcreated', -, hid, hholds⟩ :=
    hcreated.holds lib hb hprivy hvid hfresh t ids hsaved
  have hclean : Clean env' := by
    apply hcreated'.clean hb _ hprivy
    rw [hid]
    apply hvid
  refine ⟨env'.stored, ?_, ?_, ?_, ?_, ?_⟩
  · have hfetch : fetchVault auth vid
        (accountRun lib opts s (⟨auth, t, ids, createVaultRequest env⟩ :: calls))
        = .ok env'.stored := hholds.fetchVault
    rw [fetchEnvelope, hfetch]
    dsimp only
    rw [hclean.stored.validate]
  · intro pk hpk
    obtain ⟨w, hw⟩ := exists_passkeyWrapper browser draws hpk
    have hwrap := hw
    rw [passkeyWrapper, hpk] at hwrap
    exact hcreated'.restoreBy hb (.passkey hw) hwrap
  · intro wallet hwallet
    obtain ⟨w, hw⟩ := exists_freighterWrapper browser draws hwallet
    have hwrap := hw
    rw [freighterWrapper, hwallet] at hwrap
    exact hcreated'.restoreBy hb (.freighter hw) hwrap
  · intro pw hpw hne
    obtain ⟨w, hw⟩ := exists_passwordWrapper browser draws now pw
    exact hcreated'.restoreBy hb (.password hne hpw hw) hw
  · intro hchosen
    obtain ⟨w, hw, hrf⟩ := hfile hchosen
    exact ⟨_, hrf, rfl, hcreated'.restoreFromFile hb hchosen hw⟩

/-! ### Reports -/

theorem length_le_codeUnits (t : Text) :
  t.length ≤ (codeUnits t).length
  := by
  induction t with
  | nil => rfl
  | cons c t ih =>
      have hcons : codeUnits (c :: t) = unitsOf c ++ codeUnits t := rfl
      have hone : 1 ≤ (unitsOf c).length := by
        rw [unitsOf]
        split
        · exact Nat.le_refl 1
        · exact Nat.le_succ 1
      rw [hcons, List.length_append, List.length_cons]
      omega

theorem length_toHex (bs : Bytes) :
  (toHex bs).length = 2 * bs.length
  := by
  induction bs with
  | nil => rfl
  | cons b bs ih =>
      have hcons : toHex (b :: bs) = hexByte b ++ toHex bs := rfl
      have hbyte : (hexByte b).length = 2 := rfl
      rw [hcons, List.length_append, ih, hbyte, List.length_cons]
      omega

/-- A report with the hash of the identifier. -/
def backupReport (now vid method : Text) : Json :=
  .object
    [("vault_id".toList, .string vid), ("decrypted_vault_hash".toList, .string (textHash vid)),
      ("commitments_hash".toList, .string (textHash [])), ("method".toList, .string method),
      ("verified_at_client".toList, .string now)]

/-- The body of a request with the report. -/
def reportBody (now vid method : Text) : Json :=
  .object [("verification".toList, backupReport now vid method)]

/-- The report fits the schema of the server. -/
theorem verifyBackupSchema_report (hvid : vid ≠ []) (hnow : now ≠ []) {type : WrapperType}
    (htype : type ≠ .evmSignature) :
  verifyBackupSchema (reportBody now vid type.name)
    = some ⟨vid, textHash vid, textHash [], type, now⟩
  := by
  have hlength : 8 ≤ (codeUnits (textHash vid)).length := by
    have hhash : (textHash vid).length = 66 := by
      rw [textHash, List.length_append, sha256Hex, length_toHex, Word.length_toBytes]
      rfl
    have hunits := length_le_codeUnits (textHash vid)
    omega
  have hcommitments : textHash [] ≠ [] := List.cons_ne_nil _ _
  have hmethod : parseEnum
      [.stellarEd25519Signature, .recoveryFileSecret, .recoveryKitPassword, .passkeyPrf]
      WrapperType.name (.string type.name) = some type := by
    cases type with
    | evmSignature => contradiction
    | _ => rfl
  have hget : (reportBody now vid type.name).get? "verification".toList
      = some (backupReport now vid type.name) := rfl
  have hvault : (backupReport now vid type.name).get? "vault_id".toList
      = some (.string vid) := rfl
  have hhash : (backupReport now vid type.name).get? "decrypted_vault_hash".toList
      = some (.string (textHash vid)) := rfl
  have hnotes : (backupReport now vid type.name).get? "commitments_hash".toList
      = some (.string (textHash [])) := rfl
  have hname : (backupReport now vid type.name).get? "method".toList
      = some (.string type.name) := rfl
  have htime : (backupReport now vid type.name).get? "verified_at_client".toList
      = some (.string now) := rfl
  rw [verifyBackupSchema, hget]
  simp only [Option.bind_eq_bind, Option.bind_some, hvault, hhash, hnotes, hname, htime,
    asNonempty?_string hvid, asNonempty?_string hcommitments, asNonempty?_string hnow,
    Json.asString?, guard, if_pos hlength, hmethod]
  rfl

/-- The client decrypts what the server has stored, and reports it. -/
theorem Created.confirmBackup (hb : browser.Lawful) {privyUserId : Text}
    {env : EncryptedVaultEnvelope} (h : Created browser sel draws now privyUserId vault env) :
  ∃ type : WrapperType, type ≠ .evmSignature
    ∧ confirmBackup browser sel draws now vault.vaultId env.stored
      = some (verifyBackupRequest now vault.vaultId type.name)
  := by
  obtain ⟨iv, origin, hsealed⟩ := h.sealed
  have hname : ((vault.toJson.get? "vault_id".toList).bind Json.asString?)
      = some vault.vaultId := rfl
  cases hsel : sel.file with
  | true =>
      obtain ⟨w, hw⟩ := exists_fileWrapper browser draws now
      have hunwrap : unwrapVaultKeyWithRecoveryFileSecret browser w.stored draws.fileSecret.val
          = some draws.master.val := unwrapVaultKey_stored hb hw
      refine ⟨.recoveryFileSecret, by decide, ?_⟩
      rw [Client.confirmBackup, h.find (.file hsel hw) (fileWrapper_spec hw).type, hsel]
      dsimp only
      rw [hunwrap, Option.map_some, Option.bind_eq_bind, Option.bind_some]
      dsimp only
      rw [decryptEnvelope_stored hb hsealed, Option.bind_eq_bind, Option.bind_some, guard,
        if_pos hname]
      rfl
  | false =>
      obtain ⟨w, ws, hws⟩ := List.exists_cons_of_ne_nil h.nonempty
      have hmem : w ∈ env.wrappers := by
        rw [hws]
        apply List.mem_cons_self
      obtain ⟨type, hne, hmade⟩ := ((h.chosen w).mp hmem).made
      have hhead : env.stored.wrappers.head? = some w.stored := by
        change (env.wrappers.map VaultWrapper.stored).head? = _
        rw [hws]
        rfl
      refine ⟨w.type, by rw [hmade.type]; apply hne, ?_⟩
      have hopen : ((decryptEnvelope browser env.stored draws.master.val).bind fun dec =>
          (guard ((dec.get? "vault_id".toList).bind Json.asString? = some vault.vaultId) :
            Option Unit).bind fun _ =>
              some (verifyBackupRequest now vault.vaultId w.type.name))
          = some (verifyBackupRequest now vault.vaultId w.type.name) := by
        rw [decryptEnvelope_stored hb hsealed, Option.bind_some, guard, if_pos hname]
        rfl
      rw [Client.confirmBackup, hsel, hhead]
      cases env.stored.wrappers.find? fun w => w.type = .recoveryFileSecret with
      | none => exact hopen
      | some _ => exact hopen

/-- The server accepts the report on a vault if the recovery policy is not insufficient. -/
theorem checkVerification_report (hvid : vid ≠ []) (hnow : now ≠ []) {type : WrapperType}
    (htype : type ≠ .evmSignature) {vaults : List Api.NoteVault} {v : Api.NoteVault}
    (hv : getNoteVault auth.userId vid vaults = some v) :
  checkVerification auth vid (reportBody now vid type.name) vaults
    = if v.recoveryPolicyStatus = .insufficient then
        .error ⟨409, "recovery policy insufficient (insufficient)".toList⟩
      else .ok ⟨vid, textHash vid, textHash [], type, now⟩
  := by
  have hread := verifyBackupSchema_report hvid hnow htype
  have hsame : ensure (vid = vid) ⟨400, "verification vault_id mismatch".toList⟩ = .ok () :=
    if_pos rfl
  rw [checkVerification, hread, hv]
  change (ensure (vid = vid) _ >>= fun _ =>
    ensure (v.recoveryPolicyStatus = .sufficient ∨ v.recoveryPolicyStatus = .strong) _ >>= fun _ =>
      pure _) = _
  rw [hsame]
  cases v.recoveryPolicyStatus with
  | insufficient => rfl
  | sufficient => rfl
  | strong => rfl

/-- The server answers to a report that the vault is ready for a deposit, unless the recovery policy
is insufficient. -/
theorem Holds.report {env : EncryptedVaultEnvelope} {s : Accounts}
    (h : Holds auth.userId vid env policy s.noteVaults) (hvid : vid ≠ []) (hnow : now ≠ [])
    {type : WrapperType} (htype : type ≠ .evmSignature) (t : ℕ) (ids : ℕ → Uuid) :
  ((⟨auth, t, ids, verifyBackupRequest now vid type.name⟩ : AccountCall).answer lib opts s).1
    = if policy = .insufficient then
        .error ⟨409, "recovery policy insufficient (insufficient)".toList⟩
      else .ok (.verified vid (some ⟨true, .verified, policy⟩))
  := by
  obtain ⟨v, hv, -, rfl⟩ := h
  obtain ⟨-, huser, hid⟩ := getNoteVault_eq_some hv
  have hcheck := checkVerification_report hvid hnow htype hv
  have hrequest : verifyBackupRequest now vid type.name
      = .verifyBackup vid (reportBody now vid type.name) := rfl
  simp only [AccountCall.answer, hrequest, handle]
  rw [hcheck]
  by_cases hpolicy : v.recoveryPolicyStatus = .insufficient
  · rw [if_pos hpolicy, if_pos hpolicy]
  · have hmet : v.recoveryPolicyStatus = .sufficient ∨ v.recoveryPolicyStatus = .strong := by
      cases hstatus : v.recoveryPolicyStatus with
      | insufficient => exact absurd hstatus hpolicy
      | sufficient => exact .inl rfl
      | strong => exact .inr rfl
    rw [if_neg hpolicy, if_neg hpolicy]
    obtain ⟨v', hv', hbackup, hstatus⟩ : ∃ v', getNoteVault auth.userId vid
        (setVaultBackupVerified auth.userId vid ⟨vid, textHash vid, textHash [], type, now⟩ t
          s.noteVaults) = some v'
        ∧ v'.backupStatus = .verified ∧ v'.recoveryPolicyStatus = v.recoveryPolicyStatus := by
      rw [setVaultBackupVerified, getNoteVault_updateWhere, hv, Option.map_some,
        if_pos ⟨huser, hid⟩]
      · exact ⟨_, rfl, rfl, rfl⟩
      · intro v
        exact ⟨rfl, rfl⟩
    have hready : decide v'.DepositReady = true := by
      apply decide_eq_true
      rw [← hstatus] at hmet
      use hbackup
    dsimp only
    rw [vaultDepositReady, hv', Option.map_some, hready, hbackup, hstatus]

/-- What the page for the creation of a vault does last: the client decrypts what the server has
stored and reports it, and the server answers that the vault is ready for a deposit, unless the
recovery policy of the chosen methods is insufficient. This holds whatever other requests the server
has answered in between, provided that they store no envelope for the vault. -/
theorem vault_ready (hb : browser.Lawful) (lib : Wallets) (opts : RecoverySettings)
    (auth : PrivyAuth) (sel : Selection) (draws : SetupDraws) (now vid origin : Text)
    (hsel : 0 < sel.count) (hvid : vid ≠ []) (hprivy : auth.privyUserId ≠ []) (hnow : now ≠ []) :
  ∃ env file, createVault browser sel draws now vid auth.privyUserId origin = some (env, file)
    ∧ ∀ (s s' : Accounts) (t t' : ℕ) (ids ids' : ℕ → Uuid) (calls : List AccountCall)
        (last : NoteVault),
      ¬ VaultExists vid s.noteVaults →
      Saved browser opts auth draws.master.val env.wrappers (createEmptyNoteVault vid now) calls
        last →
      s' = accountRun lib opts s (⟨auth, t, ids, createVaultRequest env⟩ :: calls) →
      ∃ fetched request, fetchVault auth vid s' = .ok fetched
        ∧ confirmBackup browser sel draws now vid fetched = some request
        ∧ ((⟨auth, t', ids', request⟩ : AccountCall).answer lib opts s').1
          = if statusOf opts sel.count (sel.passkey.isSome ∨ sel.freighter.isSome)
              = .insufficient then
            .error ⟨409, "recovery policy insufficient (insufficient)".toList⟩
          else .ok (.verified vid (some ⟨true, .verified,
            statusOf opts sel.count (sel.passkey.isSome ∨ sel.freighter.isSome)⟩))
  := by
  obtain ⟨env, file, hcreate, hcreated, -⟩ := exists_createVault hsel
  refine ⟨env, file, hcreate, ?_⟩
  rintro s s' t t' ids ids' calls last hfresh hsaved rfl
  obtain ⟨env', hcreated', -, hid, hholds⟩ :=
    hcreated.holds lib hb hprivy hvid hfresh t ids hsaved
  obtain ⟨type, htype, hconfirm⟩ := hcreated'.confirmBackup hb
  rw [hid] at hconfirm
  refine ⟨env'.stored, _, hholds.fetchVault, hconfirm, ?_⟩
  rw [← hcreated.policy opts]
  apply hholds.report lib hvid hnow htype

/-! ### A vault that is restored -/

/-- The user has chosen the recovery file and a password. -/
def fileAndPassword : Selection := ⟨none, none, true, some "correct horse".toList⟩

/-- What is drawn, all zeros. -/
def zeroDraws : SetupDraws :=
  ⟨zeros 32, zeros 12, zeros 32, ⟨zeros 16, zeros 12, zeros 8⟩, ⟨zeros 16, zeros 12, zeros 8⟩,
    ⟨zeros 16, zeros 12, zeros 8⟩, ⟨zeros 16, zeros 12, zeros 8⟩⟩

/-- Alice creates a vault, saves a version with a note, and restores it with the password. -/
theorem vault_restored_alice :
  ∃ env file env' stored, createVault plainBrowser fileAndPassword zeroDraws "2026-01-01".toList
      "vault-1".toList alice.privyUserId "https://shade".toList = some (env, file)
    ∧ fetchEnvelope alice "vault-1".toList (accountRun noWallets testnet ⟨[], [], [], []⟩
        [⟨alice, 1, id, createVaultRequest env⟩,
          ⟨alice, 2, id, .updateVault "vault-1".toList (envelopeBody env')⟩]) = some stored
    ∧ restoreWithPassword plainBrowser "correct horse".toList stored = some oneNote.toJson
  := by
  obtain ⟨env, file, hcreate, hrun⟩ := vault_restored plainBrowser_lawful noWallets testnet alice
    fileAndPassword zeroDraws "2026-01-01".toList "vault-1".toList "https://shade".toList
    (by decide) (by decide) (by decide)
  obtain ⟨env', henv'⟩ := exists_createVaultEnvelope plainBrowser (zeros 12) oneNote
    zeroDraws.master alice.privyUserId "https://shade".toList env.wrappers
  have hfresh : ¬ VaultExists "vault-1".toList [] := by
    rintro ⟨_, hv, -⟩
    cases hv
  obtain ⟨stored, hfetch, -, -, hpassword, -⟩ := hrun ⟨[], [], [], []⟩ 1 id _ _ hfresh
    (.save henv' rfl .nil)
  exact ⟨env, file, env', stored, hcreate, hfetch, hpassword _ rfl (by decide)⟩

/-- Alice creates a vault and reports its backup, and the vault is ready. -/
theorem vault_ready_alice :
  ∃ env file fetched request, createVault plainBrowser fileAndPassword zeroDraws
      "2026-01-01".toList "vault-1".toList alice.privyUserId "https://shade".toList
      = some (env, file)
    ∧ confirmBackup plainBrowser fileAndPassword zeroDraws "2026-01-01".toList "vault-1".toList
        fetched = some request
    ∧ ((⟨alice, 2, id, request⟩ : AccountCall).answer noWallets testnet
        (accountRun noWallets testnet ⟨[], [], [], []⟩
          [⟨alice, 1, id, createVaultRequest env⟩])).1
      = .ok (.verified "vault-1".toList (some ⟨true, .verified, .sufficient⟩))
  := by
  obtain ⟨env, file, hcreate, hrun⟩ := vault_ready plainBrowser_lawful noWallets testnet alice
    fileAndPassword zeroDraws "2026-01-01".toList "vault-1".toList "https://shade".toList
    (by decide) (by decide) (by decide) (by decide)
  have hfresh : ¬ VaultExists "vault-1".toList [] := by
    rintro ⟨_, hv, -⟩
    cases hv
  obtain ⟨fetched, request, -, hconfirm, hanswer⟩ := hrun ⟨[], [], [], []⟩ _ 1 2 id id [] _ hfresh
    .nil rfl
  have hpolicy : statusOf testnet fileAndPassword.count
      (fileAndPassword.passkey.isSome ∨ fileAndPassword.freighter.isSome) = .sufficient := by
    decide +kernel
  rw [hpolicy] at hanswer
  exact ⟨env, file, fetched, request, hcreate, hconfirm, hanswer⟩

end Shade.Client
