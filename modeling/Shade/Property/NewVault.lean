import Shade.Property.Recovery
import Shade.Property.Sealed

/-!
# New vaults

The envelope of a new vault has a wrapper for every method that the user has chosen. The server
accepts it, its recovery policy depends on how many methods were chosen, and the vault is restored
with each of them from what the database has kept.
-/

namespace Shade.Client

open Text Api Table

variable {browser : Browser}

/-! ### Envelopes that the server accepts -/

/-- The envelope has its identifiers and a ciphertext, and no names of secrets occur in the parts
that have names of their own. -/
structure Clean (env : EncryptedVaultEnvelope) : Prop where
  vaultId : env.vaultId ≠ []
  privyUserId : env.privyUserId ≠ []
  ciphertext : env.ciphertext ≠ []
  aad : Json.findName plaintextForbidden (.object env.aad) = none
  metadata : ∀ w ∈ env.wrappers, Json.findName plaintextForbidden (.object w.metadata) = none

theorem findNameFields_cons {names : List Text} {k : Text} {v : Json} {rest : Record}
    (hk : k ∉ names) (hv : Json.findName names v = none) :
  Json.findNameFields names ((k, v) :: rest) = Json.findNameFields names rest
  := by
  rw [Json.findNameFields, if_neg hk, hv, Option.none_or]

theorem findName_wrapper {w : VaultWrapper}
    (h : Json.findName plaintextForbidden (.object w.metadata) = none) :
  Json.findName plaintextForbidden w.toJson = none
  := by
  obtain ⟨id, type, status, kdf, salt, wrappedKey, _ | b, metadata⟩ := w
  · rw [VaultWrapper.toJson, Json.findName]
    simp only [Option.map_none, Option.toList_none, List.append_nil, List.cons_append,
      List.nil_append]
    iterate 6 rw [findNameFields_cons (by decide) rfl]
    rw [findNameFields_cons (by decide) h]
    rfl
  · rw [VaultWrapper.toJson, Json.findName]
    simp only [Option.map_some, Option.toList_some, List.cons_append, List.nil_append]
    iterate 7 rw [findNameFields_cons (by decide) rfl]
    rw [findNameFields_cons (by decide) h]
    rfl

/-- No names of secrets occur in such an envelope. -/
theorem Clean.findName {env : EncryptedVaultEnvelope} (h : Clean env) :
  Json.findName plaintextForbidden env.toJson = none
  := by
  have hwrappers : Json.findName plaintextForbidden
      (.array (env.wrappers.map VaultWrapper.toJson)) = none := by
    rw [← Option.not_isSome_iff_eq_none, Json.findName, Json.isSome_findNameItems]
    rintro ⟨j, hj, hname⟩
    obtain ⟨w, hw, rfl⟩ := List.mem_map.mp hj
    rw [findName_wrapper (h.metadata w hw)] at hname
    cases hname
  rw [EncryptedVaultEnvelope.toJson, Json.findName]
  iterate 4 rw [findNameFields_cons (by decide) rfl]
  rw [findNameFields_cons (by decide) h.aad, findNameFields_cons (by decide) rfl,
    findNameFields_cons (by decide) hwrappers]
  rfl

/-- Names of secrets occur in the members of an object as the database keeps them if they occur in
the object. -/
theorem findName_jsonbRecord {names : List Text} {fields : Record}
    (h : Json.findName names (.object fields) = none) :
  Json.findName names (.object (jsonbRecord fields)) = none
  := by
  have hnormal : Json.object (jsonbRecord fields) = Json.normalize jsonbLe (.object fields) := rfl
  rw [← Option.not_isSome_iff_eq_none, hnormal, Json.isSome_findName_normalize, h]
  simp

/-- Such an envelope is one after it was stored. -/
theorem Clean.stored {env : EncryptedVaultEnvelope} (h : Clean env) :
  Clean env.stored
  where
  vaultId := h.vaultId
  privyUserId := h.privyUserId
  ciphertext := h.ciphertext
  aad := findName_jsonbRecord h.aad
  metadata := by
    intro w hw
    obtain ⟨w', hw', rfl⟩ := List.mem_map.mp hw
    apply findName_jsonbRecord (h.metadata w' hw')

/-- Both sides accept such an envelope. -/
theorem Clean.validate {env : EncryptedVaultEnvelope} (h : Clean env) :
  validateVaultEnvelope env = .ok ()
  := by
  rw [validateVaultEnvelope, if_neg, assertNoPlaintextNoteFields, h.findName]
  rintro (hid | hid | hid)
  · apply h.vaultId hid
  · apply h.privyUserId hid
  · apply h.ciphertext hid

/-! ### Envelopes that are sent -/

theorem asNonempty?_string {t : Text} (h : t ≠ []) :
  Json.asNonempty? (.string t) = some t
  := by
  rw [Json.asNonempty?, Json.asString?, Option.filter_some, if_pos]
  exact decide_eq_true h

theorem parseEnum_type (type : WrapperType) :
  parseEnum wrapperTypes WrapperType.name (.string type.name) = some type
  := by
  cases type <;> rfl

theorem parseEnum_status (status : WrapperStatus) :
  parseEnum [.active, .revoked] WrapperStatus.name (.string status.name) = some status
  := by
  cases status <;> rfl

theorem parseEnum_kdf (kdf : Kdf) :
  parseEnum [.hkdfSha256, .pbkdf2Sha256] Kdf.name (.string kdf.name) = some kdf
  := by
  cases kdf <;> rfl

/-- The schema reads a wrapper from its JSON value. -/
theorem vaultWrapperSchema_toJson (w : VaultWrapper) :
  vaultWrapperSchema w.toJson = some w
  := by
  obtain ⟨id, type, status, kdf, salt, wrappedKey, d, metadata⟩ := w
  have hmembers : ∀ w : VaultWrapper,
      w.toJson.get? "id".toList = some (.string w.id)
      ∧ w.toJson.get? "type".toList = some (.string w.type.name)
      ∧ w.toJson.get? "status".toList = some (.string w.status.name)
      ∧ w.toJson.get? "kdf".toList = some (.string w.kdf.name)
      ∧ w.toJson.get? "salt".toList = some (.string w.salt)
      ∧ w.toJson.get? "wrapped_key".toList = some (.string w.wrappedKey) :=
    fun w => ⟨rfl, rfl, rfl, rfl, rfl, rfl⟩
  obtain ⟨h₁, h₂, h₃, h₄, h₅, h₆⟩ := hmembers
    ⟨id, type, status, kdf, salt, wrappedKey, d, metadata⟩
  rw [vaultWrapperSchema, h₁, h₂, h₃, h₄, h₅, h₆]
  simp only [Option.bind_eq_bind, Option.bind_some, Json.asString?, parseEnum_type,
    parseEnum_status, parseEnum_kdf]
  cases d with
  | none => rfl
  | some b => rfl

theorem mapM_map_eq_some {α β : Type} {read : β → Option α} {write : α → β}
    (h : ∀ a, read (write a) = some a) (as : List α) :
  (as.map write).mapM read = some as
  := by
  induction as with
  | nil => rfl
  | cons a as ih =>
      rw [List.map_cons, List.mapM_cons, h a, ih]
      rfl

/-- The schema reads an envelope from its JSON value. -/
theorem encryptedVaultEnvelopeSchema_toJson {env : EncryptedVaultEnvelope} (h : Clean env) :
  encryptedVaultEnvelopeSchema env.toJson = some env
  := by
  have hvault : (env.toJson.get? "vault_id".toList) = some (.string env.vaultId) := rfl
  have hprivy : (env.toJson.get? "privy_user_id".toList) = some (.string env.privyUserId) := rfl
  have hcipher : (env.toJson.get? "ciphertext".toList) = some (.string env.ciphertext) := rfl
  have hwrappers : (env.toJson.get? "wrappers".toList)
      = some (.array (env.wrappers.map VaultWrapper.toJson)) := rfl
  have hversion : (env.toJson.get? "version".toList)
      = some (.string "shade-encrypted-vault-v1".toList) := rfl
  have hname : (env.toJson.get? "cipher".toList) = some (.object
      [("name".toList, .string "AES-256-GCM".toList), ("iv".toList, .string env.iv),
        ("tagLength".toList, .number 128)]) := rfl
  have haad : (env.toJson.get? "aad".toList) = some (.object env.aad) := rfl
  rw [encryptedVaultEnvelopeSchema, hversion, hvault, hprivy, hname, haad, hcipher, hwrappers]
  simp only [Option.bind_eq_bind, Option.bind_some, asNonempty?_string h.vaultId,
    asNonempty?_string h.privyUserId, asNonempty?_string h.ciphertext, Json.asArray?,
    mapM_map_eq_some vaultWrapperSchema_toJson]
  rfl

variable {opts : RecoverySettings} {auth : PrivyAuth}

theorem ingestEnvelope_eq {env : EncryptedVaultEnvelope} (h : Clean env) :
  ingestEnvelope opts env = .ok (evaluateRecoveryPolicy env.wrappers opts)
  := by
  rw [ingestEnvelope, h.validate, assertNoPlaintextNoteFields, h.findName]
  rfl

/-- The body of a request with an envelope. -/
def envelopeBody (env : EncryptedVaultEnvelope) : Json :=
  .object [("envelope".toList, env.toJson)]

/-- The server reads an envelope from the body of a request. -/
theorem envelopeBody_spec {env : EncryptedVaultEnvelope} (h : Clean env) :
  assertNoPlaintextNoteFields (envelopeBody env) = .ok ()
    ∧ ((envelopeBody env).get? "envelope".toList).bind encryptedVaultEnvelopeSchema = some env
  := by
  constructor
  · rw [assertNoPlaintextNoteFields, envelopeBody, Json.findName,
      findNameFields_cons (by decide) h.findName]
    rfl
  · change encryptedVaultEnvelopeSchema env.toJson = some env
    apply encryptedVaultEnvelopeSchema_toJson h

/-- The server accepts the request that creates a vault for its user. -/
theorem checkCreate_envelopeBody {env : EncryptedVaultEnvelope} (h : Clean env)
    (hprivy : env.privyUserId = auth.privyUserId) :
  checkCreate opts auth (envelopeBody env)
    = .ok (env, evaluateRecoveryPolicy env.wrappers opts)
  := by
  obtain ⟨hbody, hread⟩ := envelopeBody_spec h
  have hensure : ensure (env.privyUserId = auth.privyUserId)
      ⟨403, "envelope privy_user_id mismatch".toList⟩ = .ok () := if_pos hprivy
  rw [checkCreate, hbody, hread]
  change (ensure (env.privyUserId = auth.privyUserId) _ >>= fun _ =>
    ingestEnvelope opts env >>= fun policy => pure (env, policy)) = _
  rw [hensure, ingestEnvelope_eq h]
  rfl

/-- The server accepts the request that stores another version of a vault for its user. -/
theorem checkUpdate_envelopeBody {env : EncryptedVaultEnvelope} (h : Clean env)
    (hprivy : env.privyUserId = auth.privyUserId) :
  checkUpdate opts auth env.vaultId (envelopeBody env)
    = .ok (env, evaluateRecoveryPolicy env.wrappers opts)
  := by
  obtain ⟨hbody, hread⟩ := envelopeBody_spec h
  have hensure : ensure (env.vaultId = env.vaultId ∧ env.privyUserId = auth.privyUserId)
      ⟨403, "vault id / identity mismatch".toList⟩ = .ok () := if_pos ⟨rfl, hprivy⟩
  rw [checkUpdate, hbody, hread]
  change (ensure (env.vaultId = env.vaultId ∧ env.privyUserId = auth.privyUserId) _ >>= fun _ =>
    ingestEnvelope opts env >>= fun policy => pure (env, policy)) = _
  rw [hensure, ingestEnvelope_eq h]
  rfl

/-! ### New vaults -/

section

variable {sel : Selection} {draws : SetupDraws} {now : Text} {w w' : VaultWrapper}

/-- A wrapper of a new vault has a type, is active and counts for a recovery, and no names of
secrets occur in its metadata. -/
structure MadeBy (type : WrapperType) (w : VaultWrapper) : Prop where
  type : w.type = type
  status : w.status = .active
  diagnosticOnly : w.diagnosticOnly = none
  metadata : Json.findName plaintextForbidden (.object w.metadata) = none

theorem passkeyWrapper_spec (h : passkeyWrapper browser sel draws = some w) :
  MadeBy .passkeyPrf w
  := by
  rw [passkeyWrapper, Option.bind_eq_bind, Option.bind_eq_some_iff] at h
  obtain ⟨pk, -, h⟩ := h
  obtain ⟨htype, hmetadata, hstatus, hdiagnostic⟩ := wrapVaultKey_spec h
  use htype, hstatus, hdiagnostic
  rw [hmetadata]
  rfl

theorem freighterWrapper_spec (h : freighterWrapper browser sel draws = some w) :
  MadeBy .stellarEd25519Signature w
  := by
  rw [freighterWrapper, Option.bind_eq_bind, Option.bind_eq_some_iff] at h
  obtain ⟨⟨addr, sig⟩, -, h⟩ := h
  obtain ⟨htype, hmetadata, hstatus, hdiagnostic⟩ := wrapVaultKey_spec h
  use htype, hstatus, hdiagnostic
  rw [hmetadata]
  rfl

theorem fileWrapper_spec (h : fileWrapper browser draws now = some w) :
  MadeBy .recoveryFileSecret w
  := by
  obtain ⟨htype, hmetadata, hstatus, hdiagnostic⟩ := wrapVaultKey_spec h
  use htype, hstatus, hdiagnostic
  rw [hmetadata]
  rfl

theorem passwordWrapper_spec {pw : Text} (h : passwordWrapper browser draws now pw = some w) :
  MadeBy .recoveryKitPassword w
  := by
  obtain ⟨htype, hmetadata, hstatus, hdiagnostic⟩ := wrapVaultKey_spec h
  use htype, hstatus, hdiagnostic
  rw [hmetadata]
  rfl

/-- The wrapper is the one of a method that the user has chosen. -/
inductive Chosen (browser : Browser) (sel : Selection) (draws : SetupDraws) (now : Text)
    (w : VaultWrapper) : Prop
  | passkey : passkeyWrapper browser sel draws = some w → Chosen browser sel draws now w
  | freighter : freighterWrapper browser sel draws = some w → Chosen browser sel draws now w
  | file : sel.file = true → fileWrapper browser draws now = some w →
      Chosen browser sel draws now w
  | password {pw : Text} : pw ≠ [] → sel.password = some pw →
      passwordWrapper browser draws now pw = some w → Chosen browser sel draws now w

/-- There is one wrapper of a type at most. -/
theorem Chosen.unique (h : Chosen browser sel draws now w) (h' : Chosen browser sel draws now w')
    (htype : w.type = w'.type) :
  w = w'
  := by
  have spec : ∀ {w}, Chosen browser sel draws now w →
      w.type = .passkeyPrf ∧ passkeyWrapper browser sel draws = some w
      ∨ w.type = .stellarEd25519Signature ∧ freighterWrapper browser sel draws = some w
      ∨ w.type = .recoveryFileSecret ∧ fileWrapper browser draws now = some w
      ∨ w.type = .recoveryKitPassword
        ∧ sel.password.bind (passwordWrapper browser draws now) = some w := by
    intro w h
    cases h with
    | passkey h => exact .inl ⟨(passkeyWrapper_spec h).1, h⟩
    | freighter h => exact .inr (.inl ⟨(freighterWrapper_spec h).1, h⟩)
    | file _ h => exact .inr (.inr (.inl ⟨(fileWrapper_spec h).1, h⟩))
    | password _ hsel h =>
        refine .inr (.inr (.inr ⟨(passwordWrapper_spec h).1, ?_⟩))
        rw [hsel, Option.bind_some, h]
  apply Option.some.inj
  obtain ⟨ht, hw⟩ | ⟨ht, hw⟩ | ⟨ht, hw⟩ | ⟨ht, hw⟩ := spec h <;>
    obtain ⟨ht', hw'⟩ | ⟨ht', hw'⟩ | ⟨ht', hw'⟩ | ⟨ht', hw'⟩ := spec h' <;>
    first
    | rw [← hw, hw']
    | rw [ht, ht'] at htype; cases htype

theorem Chosen.made (h : Chosen browser sel draws now w) :
  ∃ type : WrapperType, type ≠ .evmSignature ∧ MadeBy type w
  := by
  cases h with
  | passkey h => exact ⟨_, by decide, passkeyWrapper_spec h⟩
  | freighter h => exact ⟨_, by decide, freighterWrapper_spec h⟩
  | file _ h => exact ⟨_, by decide, fileWrapper_spec h⟩
  | password _ _ h => exact ⟨_, by decide, passwordWrapper_spec h⟩

/-- The wrapper of a chosen method counts for a recovery. -/
theorem Chosen.counts (h : Chosen browser sel draws now w) :
  w.Counts
  := by
  obtain ⟨type, hne, hmade⟩ := h.made
  refine ⟨hmade.status, ?_, ?_⟩
  · rw [hmade.type]
    apply hne
  · rw [hmade.diagnosticOnly]
    simp

/-- The wrappers of a new vault are those of the methods that the user has chosen. -/
theorem mem_chosenWrappers {ws : List VaultWrapper}
    (h : chosenWrappers browser sel draws now = some ws) :
  w ∈ ws ↔ Chosen browser sel draws now w
  := by
  simp only [chosenWrappers, Option.bind_eq_bind, Option.bind_eq_some_iff] at h
  obtain ⟨file, hfile, password, hpassword, h⟩ := h
  obtain rfl := Option.some.inj h
  have hmemfile : w ∈ file ↔ sel.file = true ∧ fileWrapper browser draws now = some w := by
    rw [fileWrappers] at hfile
    split at hfile
    · case isTrue hsel =>
        obtain ⟨f, hf, rfl⟩ := Option.map_eq_some_iff.mp hfile
        simp [hsel, hf, eq_comm]
    · case isFalse hsel =>
        obtain rfl := Option.some.inj hfile
        simp [hsel]
  have hmempassword : w ∈ password ↔ ∃ pw, pw ≠ [] ∧ sel.password = some pw
      ∧ passwordWrapper browser draws now pw = some w := by
    rw [passwordWrappers] at hpassword
    split at hpassword
    · next c pw hsel =>
        obtain ⟨f, hf, rfl⟩ := Option.map_eq_some_iff.mp hpassword
        constructor
        · intro hw
          obtain rfl := List.mem_singleton.mp hw
          exact ⟨c :: pw, List.cons_ne_nil c pw, hsel, hf⟩
        · rintro ⟨pw', -, hsel', hw⟩
          rw [hsel, Option.some.injEq] at hsel'
          rw [← hsel', hf] at hw
          apply List.mem_singleton.mpr (Option.some.inj hw).symm
    · next hsel =>
        obtain rfl := Option.some.inj hpassword
        apply iff_of_false List.not_mem_nil
        rintro ⟨_ | ⟨c, pw⟩, hne, hsel', -⟩
        · apply hne rfl
        · apply hsel c pw hsel'
  rw [List.mem_append, List.mem_append, List.mem_append, Option.mem_toList, Option.mem_toList,
    hmemfile, hmempassword]
  constructor
  · rintro (((hw | hw) | ⟨hsel, hw⟩) | ⟨pw, hne, hsel, hw⟩)
    · apply Chosen.passkey hw
    · apply Chosen.freighter hw
    · apply Chosen.file hsel hw
    · apply Chosen.password hne hsel hw
  · intro hw
    cases hw with
    | passkey hw => exact .inl (.inl (.inl hw))
    | freighter hw => exact .inl (.inl (.inr hw))
    | file hsel hw => exact .inl (.inr ⟨hsel, hw⟩)
    | password hne hsel hw => exact .inr ⟨_, hne, hsel, hw⟩

/-- A new vault has a wrapper for every method that the user has chosen, and there is one. -/
theorem setupWrappers_eq_some {ws : List VaultWrapper} :
  setupWrappers browser sel draws now = some ws
    ↔ chosenWrappers browser sel draws now = some ws ∧ ws ≠ []
  := by
  have hcounted : ∀ ws : List VaultWrapper, chosenWrappers browser sel draws now = some ws →
      (ws.filter fun w => w.type ≠ .evmSignature) = ws := by
    intro ws h
    rw [List.filter_eq_self]
    intro w hw
    exact decide_eq_true ((mem_chosenWrappers h).mp hw).counts.2.1
  rw [setupWrappers, Option.bind_eq_bind, Option.bind_eq_some_iff]
  constructor
  · rintro ⟨ws', hws, h⟩
    rw [Option.bind_eq_bind, Option.bind_eq_some_iff] at h
    obtain ⟨⟨⟩, hguard, h⟩ := h
    obtain rfl := Option.some.inj h
    rw [Option.guard_eq_some', hcounted ws' hws] at hguard
    use hws
    rintro rfl
    apply hguard rfl
  · rintro ⟨hws, hne⟩
    have hguard : (ws.filter fun w => w.type ≠ .evmSignature).length ≠ 0 := by
      rw [hcounted ws hws]
      intro hlen
      apply hne (List.length_eq_zero_iff.mp hlen)
    refine ⟨ws, hws, ?_⟩
    rw [guard, if_pos hguard]
    rfl

end

/-! ### Every chosen method has a wrapper -/

theorem length_hkdf (ikm salt : Bytes) (info : Text) :
  (hkdf browser ikm salt info).length = 32
  := (browser.hkdfBits ikm salt (utf8 info)).property

section

variable {sel : Selection} {draws : SetupDraws} {now : Text}

theorem exists_passkeyWrapper (browser : Browser) (draws : SetupDraws) {pk : PasskeyResult}
    (h : sel.passkey = some pk) :
  ∃ w, passkeyWrapper browser sel draws = some w
  := by
  rw [passkeyWrapper, h]
  apply exists_wrapVaultKey
  intro secret salt
  apply length_hkdf

theorem exists_freighterWrapper (browser : Browser) (draws : SetupDraws) {wallet : Text × Bytes}
    (h : sel.freighter = some wallet) :
  ∃ w, freighterWrapper browser sel draws = some w
  := by
  rw [freighterWrapper, h]
  apply exists_wrapVaultKey
  intro secret salt
  apply length_hkdf

theorem exists_fileWrapper (browser : Browser) (draws : SetupDraws) (now : Text) :
  ∃ w, fileWrapper browser draws now = some w
  := by
  apply exists_wrapVaultKey
  intro secret salt
  apply length_hkdf

theorem exists_passwordWrapper (browser : Browser) (draws : SetupDraws) (now pw : Text) :
  ∃ w, passwordWrapper browser draws now pw = some w
  := by
  apply exists_wrapVaultKey
  intro secret salt
  exact (browser.pbkdf2Bits (utf8 secret) salt pbkdf2Iters).property

/-- How many methods a user has chosen. -/
def Selection.count (sel : Selection) : ℕ :=
  sel.passkey.toList.length + sel.freighter.toList.length + (if sel.file then 1 else 0)
    + (sel.password.filter fun pw => pw ≠ []).toList.length

/-- There is one wrapper for every method that the user has chosen. -/
theorem exists_chosenWrappers (browser : Browser) (sel : Selection) (draws : SetupDraws)
    (now : Text) :
  ∃ ws, chosenWrappers browser sel draws now = some ws ∧ ws.length = sel.count
  := by
  have hpasskey : (passkeyWrapper browser sel draws).toList.length
      = sel.passkey.toList.length := by
    cases h : sel.passkey with
    | none => rw [passkeyWrapper, h]; rfl
    | some pk =>
        obtain ⟨w, hw⟩ := exists_passkeyWrapper browser draws h
        rw [hw]
        rfl
  have hfreighter : (freighterWrapper browser sel draws).toList.length
      = sel.freighter.toList.length := by
    cases h : sel.freighter with
    | none => rw [freighterWrapper, h]; rfl
    | some wallet =>
        obtain ⟨w, hw⟩ := exists_freighterWrapper browser draws h
        rw [hw]
        rfl
  obtain ⟨file, hfile, hfilelen⟩ : ∃ file, fileWrappers browser sel draws now = some file
      ∧ file.length = if sel.file then 1 else 0 := by
    obtain ⟨w, hw⟩ := exists_fileWrapper browser draws now
    rw [fileWrappers, hw]
    split
    · exact ⟨[w], rfl, rfl⟩
    · exact ⟨[], rfl, rfl⟩
  obtain ⟨password, hpassword, hpasswordlen⟩ : ∃ password,
      passwordWrappers browser sel draws now = some password
      ∧ password.length = (sel.password.filter fun pw => pw ≠ []).toList.length := by
    rw [passwordWrappers]
    split
    · next c pw hpw =>
        obtain ⟨w, hw⟩ := exists_passwordWrapper browser draws now (c :: pw)
        rw [hpw, hw]
        exact ⟨[w], rfl, rfl⟩
    · next hpw =>
        refine ⟨[], rfl, ?_⟩
        obtain h | ⟨_ | ⟨c, pw⟩, h⟩ := Option.eq_none_or_eq_some sel.password
        · rw [h]
          rfl
        · rw [h]
          rfl
        · exact absurd h (hpw c pw)
  rw [chosenWrappers, hfile, hpassword]
  refine ⟨_, rfl, ?_⟩
  rw [List.length_append, List.length_append, List.length_append, hpasskey, hfreighter, hfilelen,
    hpasswordlen, Selection.count]

end

/-! ### The envelope of a new vault -/

/-- The envelope is one of a vault that is sealed with the master key and has the wrappers of the
chosen methods. -/
structure Created (browser : Browser) (sel : Selection) (draws : SetupDraws)
    (now privyUserId : Text) (vault : NoteVault) (env : EncryptedVaultEnvelope) : Prop where
  sealed : ∃ iv origin, createVaultEnvelope browser iv vault draws.master.val privyUserId origin
    env.wrappers = some env
  chosen : ∀ w, w ∈ env.wrappers ↔ Chosen browser sel draws now w
  length : env.wrappers.length = sel.count
  nonempty : env.wrappers ≠ []

section

variable {sel : Selection} {draws : SetupDraws} {now vid privyUserId origin : Text}
  {vault : NoteVault} {env : EncryptedVaultEnvelope}

/-- A user that has chosen a method creates a vault. If it has chosen the recovery file, it gets
one. -/
theorem exists_createVault (hsel : 0 < sel.count) :
  ∃ env file, createVault browser sel draws now vid privyUserId origin = some (env, file)
    ∧ Created browser sel draws now privyUserId (createEmptyNoteVault vid now) env
    ∧ (sel.file = true → ∃ w, fileWrapper browser draws now = some w
      ∧ file = some (buildRecoveryFile vid draws.fileSecret.val w now))
  := by
  obtain ⟨ws, hws, hlen⟩ := exists_chosenWrappers browser sel draws now
  have hne : ws ≠ [] := by
    rintro rfl
    rw [List.length_nil] at hlen
    omega
  obtain ⟨env, henv⟩ := exists_createVaultEnvelope browser draws.iv (createEmptyNoteVault vid now)
    draws.master privyUserId origin ws
  obtain ⟨-, -, rfl, -⟩ := createVaultEnvelope_spec henv
  obtain ⟨file, hfile, hspec⟩ : ∃ file, newRecoveryFile browser sel draws now vid = some file
      ∧ (sel.file = true → ∃ w, fileWrapper browser draws now = some w
        ∧ file = some (buildRecoveryFile vid draws.fileSecret.val w now)) := by
    obtain ⟨w, hw⟩ := exists_fileWrapper browser draws now
    rw [newRecoveryFile, hw]
    split
    · exact ⟨_, rfl, fun _ => ⟨w, rfl, rfl⟩⟩
    · case isFalse hnot => exact ⟨_, rfl, fun hfile => absurd hfile hnot⟩
  refine ⟨env, file, ?_, ⟨⟨_, _, henv⟩, ?_, hlen, hne⟩, hspec⟩
  · rw [createVault, setupWrappers_eq_some.mpr ⟨hws, hne⟩, hfile]
    simp only [Option.bind_eq_bind, Option.bind_some, henv]
    rfl
  · intro w
    apply mem_chosenWrappers hws

/-- Another version of the vault is sealed with the same wrappers. -/
theorem Created.reseal (h : Created browser sel draws now privyUserId vault env) {iv : Sized 12}
    {vault' : NoteVault} {env' : EncryptedVaultEnvelope}
    (hsealed : createVaultEnvelope browser iv vault' draws.master.val privyUserId origin
      env.wrappers = some env') :
  env'.wrappers = env.wrappers ∧ Created browser sel draws now privyUserId vault' env'
  := by
  obtain ⟨-, -, hwrappers, -⟩ := createVaultEnvelope_spec hsealed
  use hwrappers
  constructor
  · rw [hwrappers]
    exact ⟨iv, origin, hsealed⟩
  · rw [hwrappers]
    apply h.chosen
  · rw [hwrappers]
    apply h.length
  · rw [hwrappers]
    apply h.nonempty

theorem Created.ids (h : Created browser sel draws now privyUserId vault env) :
  env.vaultId = vault.vaultId ∧ env.privyUserId = privyUserId
  := by
  obtain ⟨iv, origin, hsealed⟩ := h.sealed
  obtain ⟨hid, huser, -⟩ := createVaultEnvelope_spec hsealed
  use hid, huser

/-- The server accepts the envelope, and so does the client that fetches it. -/
theorem Created.clean (hb : browser.Lawful)
    (h : Created browser sel draws now privyUserId vault env) (hvid : vault.vaultId ≠ [])
    (hprivy : privyUserId ≠ []) :
  Clean env
  := by
  obtain ⟨iv, origin, hsealed⟩ := h.sealed
  obtain ⟨hid, huser, -, haad, hencrypt⟩ := createVaultEnvelope_spec hsealed
  constructor
  · rw [hid]
    apply hvid
  · rw [huser]
    apply hprivy
  · obtain ⟨iv', ct, hct, hciphertext, -⟩ := encryptNoteVault_spec hencrypt
    rw [aesGcmEncrypt, Option.bind_eq_bind, Option.bind_eq_some_iff] at hct
    obtain ⟨key, -, hct⟩ := hct
    obtain ⟨-, rfl⟩ := Prod.mk.inj (Option.some.inj hct)
    rw [hciphertext]
    intro hnil
    have hbytes : browser.encrypt (aesGcmParams iv.val (some (aadBytes browser env.aad))) key
        (utf8 (Json.stringify browser.printNumber vault.toJson)) = [] := by
      apply Base64.btoa_injective
      apply hnil
    have hlen := hb.length_encrypt (aesGcmParams iv.val (some (aadBytes browser env.aad))) key
      (utf8 (Json.stringify browser.printNumber vault.toJson))
    rw [hbytes, List.length_nil] at hlen
    omega
  · rw [haad]
    rfl
  · intro w hw
    obtain ⟨_, -, hmade⟩ := ((h.chosen w).mp hw).made
    apply hmade.metadata

/-- The master key that a wrapper gives decrypts the vault from what the database has kept. -/
theorem Created.finish (hb : browser.Lawful)
    (h : Created browser sel draws now privyUserId vault env) :
  finish browser env.stored draws.master.val = some vault.toJson
  := by
  obtain ⟨iv, origin, hsealed⟩ := h.sealed
  apply finish_stored hb hsealed

/-- The wrapper of a chosen method is the first one of its type. -/
theorem Created.find (h : Created browser sel draws now privyUserId vault env) {w : VaultWrapper}
    (hchosen : Chosen browser sel draws now w) {type : WrapperType} (htype : w.type = type) :
  env.stored.wrappers.find? (fun w => w.type = type) = some w.stored
  := by
  have hsome : (env.wrappers.find? fun w => w.type = type).isSome := by
    rw [List.find?_isSome]
    exact ⟨w, (h.chosen w).mpr hchosen, decide_eq_true htype⟩
  obtain ⟨w', hw'⟩ := Option.isSome_iff_exists.mp hsome
  have htype' : w'.type = type := of_decide_eq_true (List.find?_some hw' :)
  have hchosen' := (h.chosen w').mp (List.mem_of_find?_eq_some hw')
  rw [hchosen.unique hchosen' (htype.trans htype'.symm)]
  change (env.wrappers.map VaultWrapper.stored).find? _ = _
  rw [List.find?_map]
  change Option.map _ (env.wrappers.find? fun w => w.type = type) = _
  rw [hw']
  rfl

/-- The vault is restored with the secret of a wrapper, from what the database has kept. -/
theorem Created.restoreBy (hb : browser.Lawful)
    (h : Created browser sel draws now privyUserId vault env) {Secret : Type}
    {m : WrapMethod Secret} {wd : WrapDraws} {secret : Secret} {metadata : Record}
    {w : VaultWrapper} (hchosen : Chosen browser sel draws now w)
    (hw : wrapVaultKey browser m wd draws.master.val secret metadata = some w) :
  restoreBy browser m secret env.stored = some vault.toJson
  := by
  rw [Client.restoreBy, h.find hchosen (wrapVaultKey_spec hw).1, Option.bind_eq_bind,
    Option.bind_some, unwrapVaultKey_stored hb hw, Option.bind_eq_bind, Option.bind_some, h.finish hb]

/-- The vault is restored from its recovery file. -/
theorem Created.restoreFromFile (hb : browser.Lawful)
    (h : Created browser sel draws now privyUserId vault env) (hsel : sel.file = true)
    {w : VaultWrapper} (hw : fileWrapper browser draws now = some w) :
  restoreFromFile browser (buildRecoveryFile vid draws.fileSecret.val w now) env.stored
    = some vault.toJson
  := by
  have hunwrap : unwrapVaultKeyWithRecoveryFileSecret browser w.stored draws.fileSecret.val
      = some draws.master.val := unwrapVaultKey_stored hb hw
  have hsecret : fromB64 (buildRecoveryFile vid draws.fileSecret.val w now).recoveryFileSecret
      = some draws.fileSecret.val := fromB64_toB64 draws.fileSecret.val
  rw [Client.restoreFromFile, h.find (.file hsel hw) (fileWrapper_spec hw).type,
    Option.bind_eq_bind, Option.bind_some, hsecret, Option.bind_eq_bind, Option.bind_some, hunwrap,
    Option.bind_some, h.finish hb]

/-- The recovery policy of the wrappers depends on how many methods were chosen, and on whether the
passkey or the wallet is one of them. -/
theorem Created.policy (h : Created browser sel draws now privyUserId vault env)
    (opts : RecoverySettings) :
  evaluateRecoveryPolicy env.wrappers opts
    = statusOf opts sel.count (sel.passkey.isSome ∨ sel.freighter.isSome)
  := by
  have hactive : (env.wrappers.filter fun w => w.status = .active) = env.wrappers := by
    rw [List.filter_eq_self]
    intro w hw
    exact decide_eq_true ((h.chosen w).mp hw).counts.1
  have hnonEvm : (env.wrappers.filter fun w =>
      w.type ≠ .evmSignature ∧ w.diagnosticOnly ≠ some true) = env.wrappers := by
    rw [List.filter_eq_self]
    intro w hw
    exact decide_eq_true ((h.chosen w).mp hw).counts.2
  have hstrong : (env.wrappers.any fun w =>
      w.type = .passkeyPrf ∨ w.type = .stellarEd25519Signature) = true
      ↔ (sel.passkey.isSome ∨ sel.freighter.isSome) := by
    rw [List.any_eq_true]
    constructor
    · rintro ⟨w, hw, hstrong⟩
      cases (h.chosen w).mp hw with
      | passkey hw =>
          left
          rw [passkeyWrapper, Option.bind_eq_bind, Option.bind_eq_some_iff] at hw
          obtain ⟨pk, hpk, -⟩ := hw
          rw [hpk]
          rfl
      | freighter hw =>
          right
          rw [freighterWrapper, Option.bind_eq_bind, Option.bind_eq_some_iff] at hw
          obtain ⟨wallet, hwallet, -⟩ := hw
          rw [hwallet]
          rfl
      | file _ hw =>
          rw [(fileWrapper_spec hw).type] at hstrong
          cases hstrong
      | password _ _ hw =>
          rw [(passwordWrapper_spec hw).type] at hstrong
          cases hstrong
    · rintro (hsel | hsel)
      · obtain ⟨pk, hpk⟩ := Option.isSome_iff_exists.mp hsel
        obtain ⟨w, hw⟩ := exists_passkeyWrapper browser draws hpk
        exact ⟨w, (h.chosen w).mpr (.passkey hw),
          decide_eq_true (.inl (passkeyWrapper_spec hw).type)⟩
      · obtain ⟨wallet, hwallet⟩ := Option.isSome_iff_exists.mp hsel
        obtain ⟨w, hw⟩ := exists_freighterWrapper browser draws hwallet
        exact ⟨w, (h.chosen w).mpr (.freighter hw),
          decide_eq_true (.inr (freighterWrapper_spec hw).type)⟩
  have hcount : sel.count ≠ 0 := by
    rw [← h.length]
    intro hlen
    apply h.nonempty (List.length_eq_zero_iff.mp hlen)
  simp only [evaluateRecoveryPolicy, hactive, hnonEvm, hstrong, h.length, statusOf]
  by_cases hm : opts.min.exceeds sel.count
  · simp [hm]
  · simp only [hcount, hm, or_self, if_false, and_comm]
    split <;> split <;> simp_all

end

end Shade.Client
