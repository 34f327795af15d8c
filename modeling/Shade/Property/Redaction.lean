import Shade.Api.Envelope

/-!
# Secrets in stored and logged values

The check of values that are stored or sent looks for names of secrets, and the redaction of logs
replaces what stands under them. Both know the names of the secrets of a note and of the master
key. The name of the secret in a recovery file is not among them.
-/

namespace Shade.Api

open Text Json

/-! ### Objects with secrets -/

/-- A member with a name is a text. -/
def HasText (fields : Record) (name : Text) : Prop :=
  ∃ s, (name, Json.string s) ∈ fields

/-- The fields of a note that are secret. -/
def noteSecrets : List Text :=
  ["owner_secret".toList, "spend_secret".toList, "blinding".toList, "nonce".toList]

/-- The members are those of the preimage of a note. -/
structure IsNotePreimage (fields : Record) : Prop where
  distinct : (fields.map Prod.fst).Nodup
  secrets : ∀ name ∈ noteSecrets, HasText fields name
  memoCommitment : HasText fields "memo_commitment".toList
  complianceTag : HasText fields "compliance_tag".toList
  sourceContext : HasText fields "source_context".toList

/-- The name of the secret of a recovery file. -/
def recoveryFileSecret : Text := "recovery_file_secret".toList

/-- The members are those of a recovery file. -/
structure IsRecoveryFile (fields : Record) : Prop where
  distinct : (fields.map Prod.fst).Nodup
  version : ("version".toList, Json.string "shade-recovery-file-v1".toList) ∈ fields
  vaultId : HasText fields "vault_id".toList
  createdAt : HasText fields "created_at".toList
  app : ("app".toList, Json.string "Shade Protocol".toList) ∈ fields
  warning : HasText fields "warning".toList
  secret : HasText fields recoveryFileSecret
  wrapper : ∃ v w, ("wrapper".toList, v) ∈ fields ∧ vaultWrapperSchema v = some w

/-- The value is the preimage of a note. -/
def NotePreimage (v : Json) : Prop := ∃ fields, v = .object fields ∧ IsNotePreimage fields

/-- The value is a recovery file. -/
def RecoveryFile (v : Json) : Prop := ∃ fields, v = .object fields ∧ IsRecoveryFile fields

/-- The name of the master key of a vault. -/
def vaultMasterKey : Text := "vault_master_key".toList

/-- The value of the member with this name is a secret of the object. -/
def SecretField (fields : Record) (name : Text) : Prop :=
  (IsNotePreimage fields ∧ name ∈ noteSecrets)
    ∨ (IsRecoveryFile fields ∧ name = recoveryFileSecret) ∨ name = vaultMasterKey

/-- Members at the same place of two objects with the same names have the same name. -/
theorem names_eq_of_mem_zip {fields fields' : Record}
    (h : fields.map Prod.fst = fields'.map Prod.fst) {p : (Text × Json) × (Text × Json)}
    (hp : p ∈ fields.zip fields') :
  p.1.1 = p.2.1
  := by
  induction fields generalizing fields' with
  | nil => cases hp
  | cons f rest ih =>
      cases fields' with
      | nil => cases hp
      | cons g rest' =>
          obtain ⟨hk, ht⟩ := List.cons.inj h
          obtain rfl | hp := List.mem_cons.mp hp
          · apply hk
          · apply ih ht hp

/-- Two values that differ only in the secrets of their objects. -/
inductive SecretsOnly : Json → Json → Prop
  | same (v : Json) : SecretsOnly v v
  | array {items items' : List Json} : items.length = items'.length →
      (∀ p ∈ items.zip items', SecretsOnly p.1 p.2) → SecretsOnly (.array items) (.array items')
  | object {fields fields' : Record} : fields.map Prod.fst = fields'.map Prod.fst →
      (∀ p ∈ fields.zip fields', ¬ (SecretField fields p.1.1 ∧ SecretField fields' p.1.1) →
        SecretsOnly p.1.2 p.2.2) →
      SecretsOnly (.object fields) (.object fields')

/-! ### The check -/

/-- The check refuses a value exactly when one of the names occurs. -/
theorem assertNoPlaintextNoteFields_error_iff (v : Json) :
  (∃ e, assertNoPlaintextNoteFields v = .error e) ↔ Contains (HasName plaintextForbidden) v
  := by
  rw [← isSome_findName, assertNoPlaintextNoteFields]
  cases h : v.findName plaintextForbidden with
  | none => simp
  | some k => simp

/-- A note, or the name of the master key, makes the check refuse a value. -/
theorem contains_forbidden {v : Json}
    (h : Contains NotePreimage v ∨ Contains (HasName [vaultMasterKey]) v) :
  Contains (HasName plaintextForbidden) v
  := by
  obtain h | h := h
  · apply h.mono
    rintro v ⟨fields, rfl, hn⟩
    obtain ⟨s, hs⟩ := hn.secrets "nonce".toList (by decide)
    use fields, rfl, ("nonce".toList, .string s), hs
    have : "nonce".toList ∈ plaintextForbidden := by decide
    apply this
  · apply h.mono
    rintro v ⟨fields, rfl, f, hf, hk⟩
    use fields, rfl, f, hf
    rw [List.mem_singleton.mp hk]
    decide

/-! ### What a log shows -/

mutual

/-- The texts under the name of the secret of a recovery file that a log shows. -/
def shownSecrets : Json → List Text
  | .array items => shownInItems items
  | .object fields => shownInFields fields
  | _ => []

/-- Such texts in the items of an array. -/
def shownInItems : List Json → List Text
  | [] => []
  | v :: vs => shownSecrets v ++ shownInItems vs

/-- Such texts in the members of an object. -/
def shownInFields : List (Text × Json) → List Text
  | [] => []
  | (k, v) :: rest =>
      (if isRedacted k ∨ k = "__proto__".toList then []
        else if k = recoveryFileSecret then v.asString?.toList ++ shownSecrets v
        else shownSecrets v) ++ shownInFields rest

end

/-- The texts that a log shows from one member. -/
def shownMember (k : Text) (v : Json) : List Text :=
  if isRedacted k ∨ k = "__proto__".toList then []
  else if k = recoveryFileSecret then v.asString?.toList ++ shownSecrets v
  else shownSecrets v

/-- What becomes of one member in a log. -/
def redactMember (k : Text) (v : Json) : Record :=
  if isRedacted k then [(k, redactedText)]
  else if k = "__proto__".toList then []
  else [(k, redactVaultForLogs v)]

/-- The members of an object are logged one after another. -/
theorem redactFields_cons (k : Text) (v : Json) (rest : Record) :
  redactFields ((k, v) :: rest) = redactMember k v ++ redactFields rest
  := by
  rw [redactFields, redactMember]
  split
  · rfl
  · split
    · rfl
    · rfl

/-- How much of a member is logged depends on its name only. -/
theorem length_redactMember (k : Text) (v w : Json) :
  (redactMember k v).length = (redactMember k w).length
  := by
  rw [redactMember, redactMember]
  split
  · rfl
  · split
    · rfl
    · rfl

/-- Two lists that start with parts of the same length agree when these and the rests do. -/
theorem append_eq_append_iff_of_length {α : Type} {a b c d : List α} (h : a.length = b.length) :
  a ++ c = b ++ d ↔ a = b ∧ c = d
  := by
  constructor
  · intro he
    apply List.append_inj he h
  · rintro ⟨rfl, rfl⟩
    rfl

/-- Two values are logged alike exactly when the secrets that are shown agree. -/
def LoggedAlike {α β : Type} (log log' : α) (shown shown' : List β) : Prop :=
  shown.length = shown'.length ∧ (log = log' ↔ shown = shown')

/-- Parts that are logged alike may be put together. -/
theorem LoggedAlike.append {α β : Type} {a a' b b' : List α} {s s' t t' : List β}
    (h : LoggedAlike a a' s s') (h' : LoggedAlike b b' t t') (hl : a.length = a'.length) :
  LoggedAlike (a ++ b) (a' ++ b') (s ++ t) (s' ++ t')
  := by
  constructor
  · rw [List.length_append, List.length_append, h.1, h'.1]
  · rw [append_eq_append_iff_of_length hl, append_eq_append_iff_of_length h.1, h.2, h'.2]

/-- Arrays are logged alike when their items are. -/
theorem loggedAlike_items (items items' : List Json) (hl : items.length = items'.length)
    (h : ∀ p ∈ items.zip items', LoggedAlike (redactVaultForLogs p.1) (redactVaultForLogs p.2)
      (shownSecrets p.1) (shownSecrets p.2)) :
  LoggedAlike (redactItems items) (redactItems items') (shownInItems items) (shownInItems items')
  := by
  induction items generalizing items' with
  | nil =>
      obtain rfl := List.length_eq_zero_iff.mp hl.symm
      simp [LoggedAlike]
  | cons v vs ih =>
      cases items' with
      | nil => cases hl
      | cons w ws =>
          rw [List.zip_cons_cons, List.forall_mem_cons] at h
          have ht := ih ws (Nat.succ.inj hl) h.2
          have hh : LoggedAlike [redactVaultForLogs v] [redactVaultForLogs w]
              (shownSecrets v) (shownSecrets w) := by
            use h.1.1
            rw [List.singleton_inj, h.1.2]
          apply hh.append ht rfl

/-- Objects with the same names are logged alike when their members are. -/
theorem loggedAlike_fields (fields fields' : Record)
    (hn : fields.map Prod.fst = fields'.map Prod.fst)
    (h : ∀ p ∈ fields.zip fields', LoggedAlike (redactMember p.1.1 p.1.2)
      (redactMember p.1.1 p.2.2) (shownMember p.1.1 p.1.2) (shownMember p.1.1 p.2.2)) :
  LoggedAlike (redactFields fields) (redactFields fields')
    (shownInFields fields) (shownInFields fields')
  := by
  induction fields generalizing fields' with
  | nil =>
      obtain rfl := List.map_eq_nil_iff.mp hn.symm
      simp [LoggedAlike]
  | cons f rest ih =>
      obtain ⟨k, v⟩ := f
      cases fields' with
      | nil => cases hn
      | cons g rest' =>
          obtain ⟨k', w⟩ := g
          obtain ⟨rfl, ht⟩ := List.cons.inj hn
          rw [List.zip_cons_cons, List.forall_mem_cons] at h
          rw [redactFields_cons, redactFields_cons]
          apply h.1.append (ih rest' ht h.2) (length_redactMember _ _ _)

/-- A member whose value is not shown is logged alike for all values. -/
theorem loggedAlike_hidden (k : Text) (v w : Json)
    (h : isRedacted k = true ∨ k = "__proto__".toList) :
  LoggedAlike (redactMember k v) (redactMember k w) (shownMember k v) (shownMember k w)
  := by
  have hr : redactMember k v = redactMember k w := by
    rw [redactMember, redactMember]
    split
    · rfl
    · rename_i hk
      rw [if_pos (h.resolve_left hk), if_pos (h.resolve_left hk)]
  rw [shownMember, shownMember, if_pos h, if_pos h, hr]
  simp [LoggedAlike]

/-- A name whose members a log shows is not redacted and makes a member. -/
theorem not_hidden_recoveryFileSecret :
  ¬ (isRedacted recoveryFileSecret = true ∨ recoveryFileSecret = "__proto__".toList)
  := by decide

/-- Of the secret of a recovery file a log shows the text. -/
theorem loggedAlike_recoveryFileSecret (k s s' : Text) (hk : k = recoveryFileSecret) :
  LoggedAlike (redactMember k (.string s)) (redactMember k (.string s'))
    (shownMember k (.string s)) (shownMember k (.string s'))
  := by
  have hh : ¬ (isRedacted k = true ∨ k = "__proto__".toList) := by
    rw [hk]
    apply not_hidden_recoveryFileSecret
  obtain ⟨hr, hp⟩ := not_or.mp hh
  rw [redactMember, redactMember, shownMember, shownMember, if_neg hh, if_neg hh, if_neg hr,
    if_neg hr, if_neg hp, if_neg hp, if_pos hk, if_pos hk]
  simp [LoggedAlike, redactVaultForLogs, asString?, shownSecrets]

/-- Members with the same name are logged alike when their values are and are the same texts. -/
theorem loggedAlike_member (k : Text) (v w : Json) (hs : v.asString? = w.asString?)
    (h : LoggedAlike (redactVaultForLogs v) (redactVaultForLogs w)
      (shownSecrets v) (shownSecrets w)) :
  LoggedAlike (redactMember k v) (redactMember k w) (shownMember k v) (shownMember k w)
  := by
  by_cases hk : isRedacted k = true ∨ k = "__proto__".toList
  · apply loggedAlike_hidden k v w hk
  · obtain ⟨hr, hp⟩ := not_or.mp hk
    rw [redactMember, redactMember, shownMember, shownMember, if_neg hk, if_neg hk, if_neg hr,
      if_neg hr, if_neg hp, if_neg hp, hs]
    have hv : [(k, redactVaultForLogs v)] = [(k, redactVaultForLogs w)]
        ↔ shownSecrets v = shownSecrets w := by
      rw [List.singleton_inj, Prod.mk.injEq, ← h.2]
      apply and_iff_right rfl
    split
    · constructor
      · rw [List.length_append, List.length_append, h.1]
      · rw [hv, List.append_right_inj]
    · use h.1

/-- The text of a secret of an object with distinct names. -/
theorem eq_string_of_hasText {fields : Record} (hd : (fields.map Prod.fst).Nodup) {k : Text}
    {v : Json} (h : HasText fields k) (hv : (k, v) ∈ fields) :
  ∃ s, v = .string s
  := by
  obtain ⟨s, hs⟩ := h
  use s
  have := List.inj_on_of_nodup_map hd hv hs rfl
  apply (Prod.mk.inj this).2

/-- The secrets of an object are not shown, or they are texts of recovery files. -/
theorem loggedAlike_secretField {fields fields' : Record} {k : Text} {v w : Json}
    (h : SecretField fields k) (h' : SecretField fields' k) (hv : (k, v) ∈ fields)
    (hw : (k, w) ∈ fields') :
  LoggedAlike (redactMember k v) (redactMember k w) (shownMember k v) (shownMember k w)
  := by
  have hnote : ∀ name ∈ noteSecrets, isRedacted name = true := by decide
  obtain ⟨-, hk⟩ | ⟨hf, rfl⟩ | rfl := h
  · apply loggedAlike_hidden k v w (.inl (hnote k hk))
  · obtain ⟨-, hk⟩ | ⟨hf', -⟩ | hk := h'
    · apply loggedAlike_hidden _ v w (.inl (hnote _ hk))
    · obtain ⟨s, rfl⟩ := eq_string_of_hasText hf.distinct hf.secret hv
      obtain ⟨s', rfl⟩ := eq_string_of_hasText hf'.distinct hf'.secret hw
      apply loggedAlike_recoveryFileSecret _ s s' rfl
    · have : recoveryFileSecret ≠ vaultMasterKey := by decide
      contradiction
  · apply loggedAlike_hidden _ v w
    left
    decide

/-- Values that differ only in secrets are the same texts. -/
theorem SecretsOnly.asString_eq {v w : Json} (h : SecretsOnly v w) :
  v.asString? = w.asString?
  := by
  cases h with
  | same => rfl
  | array => rfl
  | object => rfl

/-- Values that differ only in secrets are logged alike exactly when the shown ones agree. -/
theorem SecretsOnly.loggedAlike {v w : Json} (h : SecretsOnly v w) :
  LoggedAlike (redactVaultForLogs v) (redactVaultForLogs w) (shownSecrets v) (shownSecrets w)
  := by
  induction h with
  | same v => simp [LoggedAlike]
  | array hl _ ih =>
      have hi := loggedAlike_items _ _ hl ih
      use hi.1
      rw [redactVaultForLogs, redactVaultForLogs, Json.array.injEq]
      apply hi.2
  | @object fields fields' hn hs ih =>
      have hm := loggedAlike_fields fields fields' hn (by
        intro p hp
        have hp₁ := (List.of_mem_zip hp).1
        have hp₂ := (List.of_mem_zip hp).2
        have hk : p.1.1 = p.2.1 := names_eq_of_mem_zip hn hp
        by_cases hsec : SecretField fields p.1.1 ∧ SecretField fields' p.1.1
        · apply loggedAlike_secretField hsec.1 hsec.2 hp₁
          rw [hk]
          apply hp₂
        · apply loggedAlike_member _ _ _ (hs p hp hsec).asString_eq (ih p hp hsec))
      use hm.1
      rw [redactVaultForLogs, redactVaultForLogs, Json.object.injEq]
      apply hm.2

/-- The check refuses every value with a note, with a recovery file or with a field for the master
key exactly when a name of a secret occurs wherever a recovery file does. Two values that differ
only in secrets are logged alike exactly when the texts of recovery files that are shown agree. -/
theorem secrets_refused_and_redacted (v w : Json) :
  ((Contains NotePreimage v ∨ Contains RecoveryFile v
        ∨ Contains (HasName [vaultMasterKey]) v → ∃ e, assertNoPlaintextNoteFields v = .error e)
      ↔ (Contains RecoveryFile v → Contains (HasName plaintextForbidden) v))
  ∧ (SecretsOnly v w →
      (redactVaultForLogs v = redactVaultForLogs w ↔ shownSecrets v = shownSecrets w))
  := by
  constructor
  · rw [assertNoPlaintextNoteFields_error_iff]
    constructor
    · intro h hr
      apply h (.inr (.inl hr))
    · rintro h (hn | hr | hk)
      · apply contains_forbidden (.inl hn)
      · apply h hr
      · apply contains_forbidden (.inr hk)
  · intro h
    apply h.loggedAlike.2

/-- Two master keys are logged alike. -/
theorem masterKeys_redacted :
  redactVaultForLogs (.object [(vaultMasterKey, .string "k".toList)])
    = redactVaultForLogs (.object [(vaultMasterKey, .string "m".toList)])
  := by
  apply ((secrets_refused_and_redacted _ _).2 (.object rfl _)).mpr
  · decide
  · intro p hp hs
    obtain rfl := List.mem_singleton.mp hp
    exfalso
    apply hs
    constructor
    · right
      right
      rfl
    · right
      right
      rfl

/-- The members of a recovery file with a secret. -/
def recoveryFile (secret : Text) : Record :=
  [("version".toList, .string "shade-recovery-file-v1".toList), ("vault_id".toList, .string []),
    ("created_at".toList, .string []), ("app".toList, .string "Shade Protocol".toList),
    ("warning".toList, .string []), (recoveryFileSecret, .string secret),
    ("wrapper".toList, VaultWrapper.toJson
      ⟨[], .recoveryFileSecret, .active, .hkdfSha256, [], [], none, []⟩)]

/-- It is a recovery file. -/
theorem isRecoveryFile_recoveryFile (secret : Text) :
  IsRecoveryFile (recoveryFile secret)
  where
  distinct := by
    have : ["version".toList, "vault_id".toList, "created_at".toList, "app".toList,
      "warning".toList, recoveryFileSecret, "wrapper".toList].Nodup := by decide
    apply this
  version := by simp [recoveryFile]
  vaultId := ⟨[], by simp [recoveryFile]⟩
  createdAt := ⟨[], by simp [recoveryFile]⟩
  app := by simp [recoveryFile]
  warning := ⟨[], by simp [recoveryFile]⟩
  secret := ⟨secret, by simp [recoveryFile]⟩
  wrapper := by
    use VaultWrapper.toJson ⟨[], .recoveryFileSecret, .active, .hkdfSha256, [], [], none, []⟩,
      ⟨[], .recoveryFileSecret, .active, .hkdfSha256, [], [], none, []⟩
    constructor
    · simp [recoveryFile]
    · rfl

/-- Recovery files with different secrets differ only in secrets. -/
theorem secretsOnly_recoveryFile (secret secret' : Text) :
  SecretsOnly (.object (recoveryFile secret)) (.object (recoveryFile secret'))
  := by
  have hn : (recoveryFile secret).map Prod.fst = (recoveryFile secret').map Prod.fst := rfl
  apply SecretsOnly.object hn
  intro p hp hs
  simp only [recoveryFile, List.zip_cons_cons, List.zip_nil_left, List.mem_cons,
    List.not_mem_nil, or_false] at hp
  obtain rfl | rfl | rfl | rfl | rfl | rfl | rfl := hp
  · apply SecretsOnly.same
  · apply SecretsOnly.same
  · apply SecretsOnly.same
  · apply SecretsOnly.same
  · apply SecretsOnly.same
  · exfalso
    apply hs
    constructor
    · right
      left
      use isRecoveryFile_recoveryFile secret
    · right
      left
      use isRecoveryFile_recoveryFile secret'
  · apply SecretsOnly.same

/-- A recovery file passes the check, and a log shows its secret. -/
theorem recoveryFile_passes :
  ¬ (∀ v : Json, Contains NotePreimage v ∨ Contains RecoveryFile v
      ∨ Contains (HasName [vaultMasterKey]) v → ∃ e, assertNoPlaintextNoteFields v = .error e)
  ∧ ¬ ∀ v w : Json, SecretsOnly v w → redactVaultForLogs v = redactVaultForLogs w
  := by
  constructor
  · intro h
    obtain ⟨e, he⟩ := h (.object (recoveryFile "a".toList))
      (.inr (.inl (.here ⟨_, rfl, isRecoveryFile_recoveryFile _⟩)))
    have : assertNoPlaintextNoteFields (.object (recoveryFile "a".toList)) = .ok () := by rfl
    rw [this] at he
    cases he
  · intro h
    have hd := secretsOnly_recoveryFile "a".toList "b".toList
    have := hd.loggedAlike.2.mp (h _ _ hd)
    revert this
    decide

end Shade.Api
