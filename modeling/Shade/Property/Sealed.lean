import Shade.Client.Pages
import Shade.Library.TextOrder

/-!
# Sealed vaults

What a client seals, it opens: the master key is unwrapped by the secret with which it was wrapped,
and a vault is decrypted from its envelope, also after the database has put the members of its
additional data in another order. `opened_sealed` says what an envelope tells that comes from
anyone: if its ciphertext is none that was forged, it is the envelope of a vault that the client
has sealed, with the same identifiers of the vault and of the user.
-/

namespace Shade.Client

open Text Api

/-! ### What is known of the browser -/

/-- What was encrypted is decrypted again, nothing else is, a ciphertext has a tag, the safe
integers are among the numbers that are represented, and these are printed so that they can be
read. -/
structure Browser.Lawful (browser : Browser) : Prop where
  length_encrypt : ∀ params key pt, (browser.encrypt params key pt).length = pt.length + 16
  decrypt_iff : ∀ iv aad key pt ct, iv.length = 12 →
    (browser.decrypt ⟨iv, aad⟩ key ct = some pt ↔ ct = browser.encrypt ⟨iv, aad⟩ key pt)
  represents : ∀ n : ℕ, n < 2 ^ 53 → (n : ℚ) ∈ browser.numbers
  numerals : Json.NumeralsOn browser.numbers browser.printNumber
  read_print : ∀ q ∈ browser.numbers, browser.readNumber (browser.printNumber q) = some q

variable {browser : Browser}

/-! ### Master keys -/

theorem fromB64_toB64 (bs : Bytes) :
  fromB64 (toB64 bs) = some bs
  := Base64.atob_btoa bs

theorem aesKey_of_length {raw : Bytes} (h : raw.length = 32) :
  aesKey raw = some ⟨raw, .inr (.inr h)⟩
  := by
  rw [aesKey, dif_pos (.inr (.inr h))]

/-- What was encrypted is decrypted. -/
theorem aesGcmDecrypt_of_encrypt (hb : browser.Lawful) {iv : Sized 12} {key pt iv' ct : Bytes}
    {aad : Option Bytes} (h : aesGcmEncrypt browser iv key pt aad = some (iv', ct)) :
  iv' = iv.val ∧ aesGcmDecrypt browser key iv.val ct aad = some pt
  := by
  rw [aesGcmEncrypt, Option.bind_eq_bind, Option.bind_eq_some_iff] at h
  obtain ⟨k, hk, h⟩ := h
  obtain ⟨rfl, rfl⟩ := Prod.mk.inj (Option.some.inj h)
  use rfl
  rw [aesGcmDecrypt, hk]
  apply (hb.decrypt_iff _ _ _ _ _ iv.property).mpr rfl

/-- The key that was wrapped is unwrapped. -/
theorem unwrapWithKey_of_wrap (hb : browser.Lawful) {iv : Sized 12} {wrappingKey masterKey : Bytes}
    {t : Text} (h : wrapWithKey browser iv wrappingKey masterKey = some t) :
  unwrapWithKey browser wrappingKey t = some masterKey
  := by
  rw [wrapWithKey, Option.bind_eq_bind, Option.bind_eq_some_iff] at h
  obtain ⟨⟨iv', ct⟩, hct, h⟩ := h
  obtain ⟨rfl, hdecrypt⟩ := aesGcmDecrypt_of_encrypt hb hct
  obtain rfl := Option.some.inj h
  rw [unwrapWithKey, fromB64_toB64, Option.bind_eq_bind, Option.bind_some,
    List.take_left' iv.property, List.drop_left' iv.property, hdecrypt]

section

variable {Secret : Type} {m : WrapMethod Secret} {draws : WrapDraws} {masterKey : Bytes}
  {secret : Secret} {metadata : Record} {w : VaultWrapper}

/-- The master key is unwrapped by the secret with which it was wrapped. -/
theorem unwrapVaultKey_of_wrap (hb : browser.Lawful)
    (h : wrapVaultKey browser m draws masterKey secret metadata = some w) :
  unwrapVaultKey browser m w secret = some masterKey
  := by
  rw [wrapVaultKey, Option.bind_eq_bind, Option.bind_eq_some_iff] at h
  obtain ⟨t, ht, h⟩ := h
  obtain rfl := Option.some.inj h
  rw [unwrapVaultKey, fromB64_toB64]
  apply unwrapWithKey_of_wrap hb ht

/-- The same holds of the wrapper as the database has kept it. -/
theorem unwrapVaultKey_stored (hb : browser.Lawful)
    (h : wrapVaultKey browser m draws masterKey secret metadata = some w) :
  unwrapVaultKey browser m w.stored secret = some masterKey
  := by
  change unwrapVaultKey browser m w secret = some masterKey
  apply unwrapVaultKey_of_wrap hb h

/-- A wrapper has the type of its method and the given metadata, and is active. -/
theorem wrapVaultKey_spec (h : wrapVaultKey browser m draws masterKey secret metadata = some w) :
  w.type = m.type ∧ w.metadata = metadata ∧ w.status = .active ∧ w.diagnosticOnly = none
  := by
  rw [wrapVaultKey, Option.bind_eq_bind, Option.bind_eq_some_iff] at h
  obtain ⟨t, -, h⟩ := h
  obtain rfl := Option.some.inj h
  exact ⟨rfl, rfl, rfl, rfl⟩

/-- A method that derives keys of 32 bytes wraps every master key. -/
theorem exists_wrapVaultKey (hm : ∀ secret salt, (m.derive secret salt).length = 32) :
  ∃ w, wrapVaultKey browser m draws masterKey secret metadata = some w
  := by
  rw [wrapVaultKey, wrapWithKey, aesGcmEncrypt, aesKey_of_length (hm secret draws.salt.val)]
  exact ⟨_, rfl⟩

end

/-! ### Vaults -/

/-- A property that neither a text nor an array has, nor an object whose members have different
names. -/
structure Foreign (P : Json → Prop) : Prop where
  string : ∀ s, ¬ P (.string s)
  array : ∀ items, ¬ P (.array items)
  object : ∀ fields : Record, (fields.map Prod.fst).Nodup → ¬ P (.object fields)

section

variable {P : Json → Prop}

theorem Foreign.not_contains_string (hP : Foreign P) (s : Text) :
  ¬ Json.Contains P (.string s)
  := by
  intro h
  cases h with
  | here h => apply hP.string s h

theorem Foreign.not_contains_array (hP : Foreign P) {items : List Json}
    (h : ∀ v ∈ items, ¬ v.Contains P) :
  ¬ Json.Contains P (.array items)
  := by
  rw [Json.contains_array_iff _ (hP.array items)]
  rintro ⟨v, hv, hc⟩
  apply h v hv hc

theorem Foreign.not_contains_object (hP : Foreign P) {fields : Record}
    (hnames : (fields.map Prod.fst).Nodup) (h : ∀ f ∈ fields, ¬ f.2.Contains P) :
  ¬ Json.Contains P (.object fields)
  := by
  rw [Json.contains_object_iff]
  rintro (hobject | ⟨f, hf, hc⟩)
  · apply hP.object fields hnames hobject
  · apply h f hf hc

theorem NotePreimage.not_contains (hP : Foreign P) (p : NotePreimage) :
  ¬ p.toJson.Contains P
  := by
  apply hP.not_contains_object
  · simp only [List.map_cons, List.map_nil]
    decide
  · simp only [List.forall_mem_cons, hP.not_contains_string, not_false_eq_true, true_and]
    intro f hf
    cases hf

theorem VaultNote.not_contains (hP : Foreign P) (n : VaultNote) :
  ¬ n.toJson.Contains P
  := by
  obtain ⟨_, _, _, p, _ | d, _, _⟩ := n
  · apply hP.not_contains_object
    · simp only [Option.map_none, Option.toList_none, List.append_nil, List.cons_append,
        List.nil_append, List.map_cons, List.map_nil]
      decide
    · simp only [Option.map_none, Option.toList_none, List.append_nil, List.cons_append,
        List.nil_append, List.forall_mem_cons, hP.not_contains_string, p.not_contains hP,
        not_false_eq_true, true_and]
      intro f hf
      cases hf
  · apply hP.not_contains_object
    · simp only [Option.map_some, Option.toList_some, List.cons_append, List.nil_append,
        List.map_cons, List.map_nil]
      decide
    · simp only [Option.map_some, Option.toList_some, List.cons_append, List.nil_append,
        List.forall_mem_cons, hP.not_contains_string, p.not_contains hP, not_false_eq_true,
        true_and]
      intro f hf
      cases hf

theorem NoteVault.not_contains (hP : Foreign P) (v : NoteVault) :
  ¬ v.toJson.Contains P
  := by
  apply hP.not_contains_object
  · simp only [List.map_cons, List.map_nil]
    decide
  · have hnotes : ¬ Json.Contains P (.array (v.notes.map VaultNote.toJson)) := by
      apply hP.not_contains_array
      intro j hj
      obtain ⟨n, -, rfl⟩ := List.mem_map.mp hj
      apply n.not_contains hP
    simp only [List.forall_mem_cons, hP.not_contains_string, hnotes, not_false_eq_true, true_and]
    intro f hf
    cases hf

end

/-- The names in every object of a vault are different. -/
theorem NoteVault.namesDistinct (v : NoteVault) :
  v.toJson.NamesDistinct
  := by
  apply v.not_contains
  constructor
  · rintro s ⟨_, heq, -⟩
    cases heq
  · rintro items ⟨_, heq, -⟩
    cases heq
  · rintro fields hnames ⟨_, heq, hnot⟩
    cases heq
    apply hnot hnames

/-- There is no number in a vault. -/
theorem NoteVault.over (numbers : Set ℚ) (v : NoteVault) :
  v.toJson.Over numbers
  := by
  apply v.not_contains
  constructor
  · rintro s ⟨_, heq, -⟩
    cases heq
  · rintro items ⟨_, heq, -⟩
    cases heq
  · rintro fields _ ⟨_, heq, -⟩
    cases heq

/-- The text of a vault is read back from its bytes. -/
theorem parse_decode (hb : browser.Lawful) (vault : NoteVault) :
  Json.parse browser.readNumber (Utf8.decode
    (utf8 (Json.stringify browser.printNumber vault.toJson))) = some vault.toJson
  := by
  have htext : Json.stringify browser.printNumber vault.toJson
      = Char.ofNat 0x7b :: (Json.stringify browser.printNumber vault.toJson).tail := rfl
  rw [htext, Utf8.decode_utf8 (by decide), ← htext,
    Json.parse_stringify hb.numerals hb.read_print (vault.over _) vault.namesDistinct]

/-- The texts of a vault that was encrypted are those of an initialization vector and of a
ciphertext. -/
theorem encryptNoteVault_spec {iv : Sized 12} {vault : NoteVault} {masterKey : Bytes}
    {aad : Record} {ciphertext ivText : Text}
    (h : encryptNoteVault browser iv vault masterKey aad = some (ciphertext, ivText)) :
  ∃ iv' ct, aesGcmEncrypt browser iv masterKey
      (utf8 (Json.stringify browser.printNumber vault.toJson)) (some (aadBytes browser aad))
      = some (iv', ct)
    ∧ ciphertext = toB64 ct ∧ ivText = toB64 iv'
  := by
  rw [encryptNoteVault, Option.bind_eq_bind, Option.bind_eq_some_iff] at h
  obtain ⟨⟨iv', ct⟩, hct, h⟩ := h
  obtain ⟨hciphertext, hivText⟩ := Prod.mk.inj (Option.some.inj h)
  exact ⟨iv', ct, hct, hciphertext.symm, hivText.symm⟩

/-- The vault that was encrypted is decrypted. -/
theorem decryptNoteVault_of_encrypt (hb : browser.Lawful) {iv : Sized 12} {vault : NoteVault}
    {masterKey : Bytes} {aad : Record} {ciphertext ivText : Text}
    (h : encryptNoteVault browser iv vault masterKey aad = some (ciphertext, ivText)) :
  decryptNoteVault browser ciphertext ivText masterKey aad = some vault.toJson
  := by
  obtain ⟨iv', ct, hct, rfl, rfl⟩ := encryptNoteVault_spec h
  obtain ⟨rfl, hdecrypt⟩ := aesGcmDecrypt_of_encrypt hb hct
  rw [decryptNoteVault, fromB64_toB64, fromB64_toB64]
  simp only [Option.bind_eq_bind, Option.bind_some]
  rw [hdecrypt, Option.bind_some, parse_decode hb]

/-! ### Envelopes -/

/-- The members of the additional data of an envelope are in the order of the database. -/
theorem VaultAad.jsonbRecord_toRecord (aad : VaultAad) :
  jsonbRecord aad.toRecord = aad.toRecord
  := by
  have hvalues : Json.normalizeFields jsonbLe aad.toRecord = aad.toRecord := rfl
  rw [jsonbRecord, hvalues, Json.sortFields]
  apply List.mergeSort_of_pairwise
  simp only [VaultAad.toRecord, List.pairwise_cons, List.forall_mem_cons, List.not_mem_nil,
    false_implies, implies_true, List.Pairwise.nil, and_true]
  decide

section

variable {iv : Sized 12} {vault : NoteVault} {masterKey : Bytes} {privyUserId origin : Text}
  {wrappers : List VaultWrapper} {env : EncryptedVaultEnvelope}

/-- What the envelope of a vault contains. -/
theorem createVaultEnvelope_spec
    (h : createVaultEnvelope browser iv vault masterKey privyUserId origin wrappers = some env) :
  env.vaultId = vault.vaultId ∧ env.privyUserId = privyUserId ∧ env.wrappers = wrappers
    ∧ env.aad = (vaultAad vault privyUserId origin).toRecord
    ∧ encryptNoteVault browser iv vault masterKey env.aad = some (env.ciphertext, env.iv)
  := by
  rw [createVaultEnvelope, Option.bind_eq_bind, Option.bind_eq_some_iff] at h
  obtain ⟨⟨ciphertext, ivText⟩, hencrypt, h⟩ := h
  obtain rfl := Option.some.inj h
  exact ⟨rfl, rfl, rfl, rfl, hencrypt⟩

/-- A master key seals every vault. -/
theorem exists_createVaultEnvelope (browser : Browser) (iv : Sized 12) (vault : NoteVault)
    (masterKey : Sized 32) (privyUserId origin : Text) (wrappers : List VaultWrapper) :
  ∃ env, createVaultEnvelope browser iv vault masterKey.val privyUserId origin wrappers = some env
  := by
  rw [createVaultEnvelope, encryptNoteVault, aesGcmEncrypt, aesKey_of_length masterKey.property]
  exact ⟨_, rfl⟩

/-- The database keeps the additional data of an envelope. -/
theorem aad_stored
    (h : createVaultEnvelope browser iv vault masterKey privyUserId origin wrappers = some env) :
  env.stored.aad = env.aad
  := by
  obtain ⟨-, -, -, haad, -⟩ := createVaultEnvelope_spec h
  change jsonbRecord env.aad = env.aad
  rw [haad]
  apply VaultAad.jsonbRecord_toRecord

/-- The vault of an envelope is decrypted, also after the envelope was stored. -/
theorem decryptEnvelope_stored (hb : browser.Lawful)
    (h : createVaultEnvelope browser iv vault masterKey privyUserId origin wrappers = some env) :
  decryptEnvelope browser env.stored masterKey = some vault.toJson
  := by
  obtain ⟨-, -, -, -, hencrypt⟩ := createVaultEnvelope_spec h
  rw [decryptEnvelope, aad_stored h]
  apply decryptNoteVault_of_encrypt hb hencrypt

/-- The vault of an envelope passes the last check of a client that has the master key, also after
the envelope was stored. -/
theorem finish_stored (hb : browser.Lawful)
    (h : createVaultEnvelope browser iv vault masterKey privyUserId origin wrappers = some env) :
  finish browser env.stored masterKey = some vault.toJson
  := by
  have hname : ((vault.toJson.get? "vault_id".toList).bind Json.asString?)
      = some env.stored.vaultId := by
    change some vault.vaultId = some env.vaultId
    rw [(createVaultEnvelope_spec h).1]
  rw [finish, decryptEnvelope_stored hb h, Option.bind_eq_bind, Option.bind_some, guard,
    if_pos hname]
  rfl

end

/-! ### A lawful browser -/

/-- The number with a text. -/
def readFraction (t : Text) : Option ℚ := do
  let num ← toInt? (t.takeWhile fun c => c ≠ 'e')
  match t.dropWhile fun c => c ≠ 'e' with
  | [] => some num
  | _ :: den => (toInt? den).map fun d : ℤ => (num : ℚ) / d

theorem readFraction_printFraction (q : ℚ) :
  readFraction (Json.printFraction q) = some q
  := by
  have hdigits : ∀ c ∈ decimal q.num, decide (c ≠ 'e') = true := by
    intro c hc
    apply decide_eq_true (Json.isNumeral_of_mem_decimal hc).2
  rw [readFraction, Json.printFraction_takeWhile, toInt?_decimal, Option.bind_eq_bind,
    Option.bind_some, Json.printFraction, List.dropWhile_append_of_pos hdigits]
  split_ifs with hden
  · have hq : (q.num : ℚ) = q := Rat.coe_int_num_of_den_eq_one hden
    simp [hq]
  · rw [List.dropWhile_cons_of_neg (by decide)]
    dsimp only
    rw [toInt?_decimal, Option.map_some, Int.cast_natCast, Rat.num_div_den]

/-- As many zeros. -/
def zeros (n : ℕ) : Sized n := ⟨List.replicate n 0, List.length_replicate⟩

/-- A browser whose ciphertexts are the plaintexts with a tag of zeros. -/
def plainBrowser : Browser where
  encrypt _ _ pt := pt ++ List.replicate 16 0
  decrypt _ _ ct :=
    if 16 ≤ ct.length ∧ ct.drop (ct.length - 16) = List.replicate 16 0 then
      some (ct.take (ct.length - 16))
    else none
  hkdfBits _ _ _ := zeros 32
  pbkdf2Bits _ _ _ := zeros 32
  numbers := Set.univ
  printNumber := Json.printFraction
  readNumber := readFraction

theorem plainBrowser_lawful :
  plainBrowser.Lawful
  where
  length_encrypt _ _ pt := by
    change (pt ++ List.replicate 16 0).length = _
    rw [List.length_append, List.length_replicate]
  decrypt_iff iv aad key pt ct _ := by
    change (if 16 ≤ ct.length ∧ ct.drop (ct.length - 16) = List.replicate 16 0 then
      some (ct.take (ct.length - 16)) else none) = some pt ↔ ct = pt ++ List.replicate 16 0
    constructor
    · intro h
      split at h
      · case isTrue htag =>
          rw [← Option.some.inj h, ← htag.2, List.take_append_drop]
      · cases h
    · rintro rfl
      have hlen : (pt ++ List.replicate 16 (0 : UInt8)).length - 16 = pt.length := by
        rw [List.length_append, List.length_replicate, Nat.add_sub_cancel]
      rw [hlen, List.drop_left, List.take_left, if_pos]
      rw [List.length_append, List.length_replicate]
      use by omega
  represents n _ := Set.mem_univ (n : ℚ)
  numerals := Json.numerals_printFraction
  read_print q _ := readFraction_printFraction q

/-- A vault with a note. -/
def oneNote : NoteVault :=
  addNoteToVault (createEmptyNoteVault "vault-1".toList "2026-01-01".toList)
    ⟨"0x01".toList, "USDC".toList, "5000000".toList,
      ⟨"0a".toList, "0b".toList, "0c".toList, "0d".toList, "0e".toList, "0f".toList, "10".toList⟩,
      none, .prepared, "2026-01-02".toList⟩ "2026-01-02".toList

/-! ### Envelopes from anyone -/

/-- A vault that a client has sealed for a user. -/
structure Sealing where
  iv : Sized 12
  vault : NoteVault
  privyUserId : Text
  origin : Text

/-- The additional data of a vault that was sealed. -/
def Sealing.aad (s : Sealing) : Record := (vaultAad s.vault s.privyUserId s.origin).toRecord

/-- The initialization vector and the ciphertext of a vault that was sealed. -/
def Sealing.ciphertext (browser : Browser) (masterKey : Bytes) (s : Sealing) :
    Option (Bytes × Bytes) :=
  aesGcmEncrypt browser s.iv masterKey (utf8 (Json.stringify browser.printNumber s.vault.toJson))
    (some (aadBytes browser s.aad))

/-- The envelope is no forgery: if its ciphertext is authentic under its additional data, it is one
of the ciphertexts that a client has made, under the same additional data. -/
def Unforged (browser : Browser) (masterKey : Bytes) (sealings : List Sealing)
    (env : EncryptedVaultEnvelope) : Prop :=
  ∀ iv ct pt, fromB64 env.iv = some iv → fromB64 env.ciphertext = some ct →
    aesGcmDecrypt browser masterKey iv ct (some (aadBytes browser env.aad)) = some pt →
    ∃ s ∈ sealings, s.ciphertext browser masterKey = some (iv, ct)
      ∧ aadBytes browser s.aad = aadBytes browser env.aad

/-- The only number in the additional data of a sealed vault is the version. -/
theorem Sealing.over (hb : browser.Lawful) (s : Sealing) :
  Json.Over browser.numbers (.object s.aad)
  := by
  have hversion : ((1 : ℕ) : ℚ) ∈ browser.numbers := hb.represents 1 (by norm_num)
  apply Json.over_object
  rw [Sealing.aad, VaultAad.toRecord]
  simp only [List.forall_mem_cons, Json.over_string, true_and]
  use Json.over_number hversion
  intro f hf
  cases hf

/-- Different additional data have different bytes. -/
theorem aadBytes_injective (hb : browser.Lawful) {aad aad' : Record}
    (haad : Json.Over browser.numbers (.object aad))
    (haad' : Json.Over browser.numbers (.object aad'))
    (h : aadBytes browser aad = aadBytes browser aad') :
  aad = aad'
  := by
  have hvalue := Json.stringify_injOn hb.numerals haad haad' (utf8_injective h)
  cases hvalue
  rfl

/-- An envelope of a vault that a client has sealed is no forgery, also after it was stored. -/
theorem unforged_stored {masterKey : Bytes} {sealings : List Sealing} {s : Sealing}
    (hs : s ∈ sealings) {wrappers : List VaultWrapper} {env : EncryptedVaultEnvelope}
    (h : createVaultEnvelope browser s.iv s.vault masterKey s.privyUserId s.origin wrappers
      = some env) :
  Unforged browser masterKey sealings env.stored
  := by
  obtain ⟨-, -, -, haad, hencrypt⟩ := createVaultEnvelope_spec h
  obtain ⟨iv', ct', hsealed, hciphertext, hivText⟩ := encryptNoteVault_spec hencrypt
  intro iv ct pt hiv hct _
  change fromB64 env.iv = some iv at hiv
  change fromB64 env.ciphertext = some ct at hct
  rw [hivText, fromB64_toB64, Option.some.injEq] at hiv
  rw [hciphertext, fromB64_toB64, Option.some.injEq] at hct
  refine ⟨s, hs, ?_, ?_⟩
  · rw [haad, hiv, hct] at hsealed
    apply hsealed
  · rw [aad_stored h, haad]
    rfl

/-- An envelope that is no forgery and that the client restores has a vault that the client has
sealed. The identifier of the vault is the one of the envelope, and the additional data of the
envelope name this vault and the user for whom it was sealed. The numbers in the additional data
are some that the browser represents, as it has read the envelope. -/
theorem opened_sealed (hb : browser.Lawful) {masterKey : Bytes} {sealings : List Sealing}
    {env : EncryptedVaultEnvelope} (hread : Json.Over browser.numbers (.object env.aad))
    (hforged : Unforged browser masterKey sealings env) {j : Json}
    (h : finish browser env masterKey = some j) :
  ∃ s ∈ sealings, j = s.vault.toJson ∧ s.vault.vaultId = env.vaultId ∧ env.aad = s.aad
  := by
  rw [finish, Option.bind_eq_bind, Option.bind_eq_some_iff] at h
  obtain ⟨vault, hopen, h⟩ := h
  rw [decryptEnvelope, decryptNoteVault] at hopen
  simp only [Option.bind_eq_bind, Option.bind_eq_some_iff] at hopen
  obtain ⟨iv, hiv, ct, hct, pt, hpt, hparse⟩ := hopen
  rw [Option.bind_eq_bind, Option.bind_eq_some_iff] at h
  obtain ⟨⟨⟩, hguard, h⟩ := h
  rw [Option.guard_eq_some'] at hguard
  obtain rfl := Option.some.inj h
  obtain ⟨s, hs, hsealed, hbytes⟩ := hforged iv ct pt hiv hct hpt
  obtain ⟨rfl, hdecrypt⟩ := aesGcmDecrypt_of_encrypt hb hsealed
  rw [← hbytes, hdecrypt, Option.some.injEq] at hpt
  rw [← hpt, parse_decode hb, Option.some.injEq] at hparse
  refine ⟨s, hs, hparse.symm, ?_, (aadBytes_injective hb (s.over hb) hread hbytes).symm⟩
  rw [← hparse] at hguard
  exact Option.some.inj hguard

/-- The envelope of a vault with a note is opened after it was stored. -/
theorem opened_sealed_one :
  ∃ env, createVaultEnvelope plainBrowser (zeros 12) oneNote (zeros 32).val
      "did:privy:alice".toList "https://shade".toList [] = some env
    ∧ ∃ s ∈ [(⟨zeros 12, oneNote, "did:privy:alice".toList, "https://shade".toList⟩ : Sealing)],
      oneNote.toJson = s.vault.toJson ∧ s.vault.vaultId = env.stored.vaultId
        ∧ env.stored.aad = s.aad
  := by
  obtain ⟨env, henv⟩ := exists_createVaultEnvelope plainBrowser (zeros 12) oneNote (zeros 32)
    "did:privy:alice".toList "https://shade".toList []
  use env, henv
  apply opened_sealed plainBrowser_lawful (Json.over_univ _)
    (unforged_stored (List.mem_singleton_self _) henv)
  apply finish_stored plainBrowser_lawful henv

end Shade.Client
