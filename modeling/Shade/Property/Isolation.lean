import Shade.Api.Vaults

/-!
# The rows of other users

A request of one user leaves the vaults and the wallets of another user as they are, except for
three routes whose insertions update the row that they conflict with, whoever owns it. `Spares`
says of a request that it does not run into such a row, and `untouched_iff` that exactly then the
rows of the other user are unchanged.
-/

namespace Shade.Api

open Text Table

/-- The vaults and the wallets of a user are the same. -/
def Untouched (b : Uuid) (s s' : Accounts) : Prop :=
  (s'.noteVaults.filter fun v => v.userId = b) = (s.noteVaults.filter fun v => v.userId = b)
    ∧ (s'.userWallets.filter fun w => w.userId = b)
      = (s.userWallets.filter fun w => w.userId = b)

/-- A request does not run into a row of a user. A vault to be created has none of the
identifiers of the vaults of the user, unless the row is one that the update leaves as it is. A
linked wallet is none of the user's wallets. An added wallet is none of the user's wallets, unless
the row has the chain already. -/
def Spares (lib : Wallets) (opts : RecoverySettings) (auth : PrivyAuth) (now : ℕ) (b : Uuid) :
    AccountRequest → Accounts → Prop
  | .createVault body, s =>
      ∀ env policy, checkCreate opts auth body = .ok (env, policy) →
        ∀ v ∈ s.noteVaults, v.vaultId = env.vaultId → v.userId = b →
          v.withEnvelope env policy now = v
  | .syncPrivy body, s =>
      ∀ ls, syncPrivyWalletsSchema body = some ls →
        ∀ l ∈ ls, ∀ w ∈ s.userWallets, w.Is l.walletType l.address → w.userId ≠ b
  | .addWallet body, s =>
      ∀ req address n, checkWallet lib now body s.authNonces = .ok (req, address, some n) →
        Signed lib req address n →
        ∀ w ∈ s.userWallets, w.Is req.walletType address → w.userId = b →
          w.chain = chainFor req.walletType
  | _, _ => True

/-! ### Statements -/

variable {a b : Uuid}

theorem Untouched.refl (s : Accounts) :
  Untouched b s s
  := ⟨rfl, rfl⟩

/-- The creation of a vault changes a row of another user if it has the identifier. -/
theorem filter_createNoteVault_eq_iff (hb : b ≠ a) {id : Uuid} {privyUserId : Text}
    {env : EncryptedVaultEnvelope} {policy : RecoveryPolicyStatus} {now : ℕ}
    {vaults : List NoteVault} :
  ((createNoteVault id a privyUserId env policy now vaults).filter fun v => v.userId = b)
      = (vaults.filter fun v => v.userId = b)
    ↔ ∀ v ∈ vaults, v.vaultId = env.vaultId → v.userId = b → v.withEnvelope env policy now = v
  := by
  apply filter_insertOrUpdate_eq_iff
  · exact fun h => hb h.symm
  · exact fun v _ _ h => h

/-- A statement on the vault of a user leaves the vaults of other users. -/
theorem filter_updateVault (hb : b ≠ a) {vaultId : Text} {f : NoteVault → NoteVault}
    (hf : ∀ v, (f v).userId = v.userId) (vaults : List NoteVault) :
  ((updateWhere (fun v => v.userId = a ∧ v.vaultId = vaultId) f vaults).filter
      fun v => v.userId = b)
    = (vaults.filter fun v => v.userId = b)
  := by
  apply filter_updateWhere_of_outside
  intro v _ hv
  rw [hf, hv.1]
  exact ⟨hb.symm, hb.symm⟩

/-- Of the wallets of another user those remain that are not linked. -/
theorem filter_syncPrivyWallets (hb : b ≠ a) {privyUserId : Text} {now : ℕ}
    (ls : List LinkedWallet) (ids : ℕ → Uuid) (wallets : List UserWallet) :
  ((syncPrivyWallets ids a privyUserId now ls wallets).filter fun w => w.userId = b)
    = (wallets.filter fun w => w.userId = b).filter
      fun w => ∀ l ∈ ls, ¬ w.Is l.walletType l.address
  := by
  induction ls generalizing ids wallets with
  | nil => simp [syncPrivyWallets]
  | cons l ls ih =>
      have hstep : ((syncPrivyWallet (ids 0) a privyUserId now l wallets).filter
            fun w => w.userId = b)
          = (wallets.filter fun w => w.userId = b).filter
            fun w => ¬ w.Is l.walletType l.address := by
        apply filter_insertOrUpdate_of_leaves
        · exact fun h => hb h.symm
        · exact fun w _ _ h => hb h.symm
      rw [syncPrivyWallets, ih, hstep, List.filter_filter]
      apply List.filter_congr
      intro w _
      simp only [List.forall_mem_cons, Bool.decide_and, Bool.and_comm]

/-- The wallets of another user are unchanged if none of them is linked, and only then. -/
theorem filter_syncPrivyWallets_eq_iff (hb : b ≠ a) {ids : ℕ → Uuid} {privyUserId : Text}
    {now : ℕ} {ls : List LinkedWallet} {wallets : List UserWallet} :
  ((syncPrivyWallets ids a privyUserId now ls wallets).filter fun w => w.userId = b)
      = (wallets.filter fun w => w.userId = b)
    ↔ ∀ l ∈ ls, ∀ w ∈ wallets, w.Is l.walletType l.address → w.userId ≠ b
  := by
  rw [filter_syncPrivyWallets hb, List.filter_eq_self]
  simp only [List.mem_filter, decide_eq_true_eq, and_imp]
  constructor
  · intro h l hl w hw his hwb
    apply h w hw hwb l hl his
  · intro h w hw hwb l hl his
    apply h l hl w hw his hwb

/-- The addition of a wallet changes a row of another user if the row has another chain. -/
theorem filter_addWallet_eq_iff (hb : b ≠ a) {id : Uuid} {walletType : WalletType}
    {chain address : Text} {now : ℕ} {wallets : List UserWallet} :
  ((addWallet id a walletType chain address now wallets).filter fun w => w.userId = b)
      = (wallets.filter fun w => w.userId = b)
    ↔ ∀ w ∈ wallets, w.Is walletType address → w.userId = b → w.chain = chain
  := by
  have hiff := filter_insertOrUpdate_eq_iff (q := fun w : UserWallet => w.userId = b)
    (p := fun w => w.Is walletType address) (f := fun w => { w with chain := chain })
    (r := newWallet id a walletType chain address now) (t := wallets)
    (fun h => hb h.symm) (fun w _ _ h => h)
  rw [addWallet, hiff]
  have hchain : ∀ w : UserWallet, ({ w with chain := chain } = w) ↔ w.chain = chain := by
    intro w
    constructor
    · intro h
      rw [← h]
    · rintro rfl
      rfl
  simp only [hchain]

/-! ### Requests -/

/-- The rows of another user are unchanged exactly if the request does not run into one. -/
theorem untouched_iff (lib : Wallets) (opts : RecoverySettings) (c : AccountCall) (s : Accounts)
    {b : Uuid} (hb : b ≠ c.auth.userId) :
  Untouched b s (c.answer lib opts s).2 ↔ Spares lib opts c.auth c.now b c.request s
  := by
  obtain ⟨auth, now, ids, request⟩ := c
  rw [AccountCall.answer]
  cases request with
  | createVault body =>
      simp only [handle, Spares]
      cases hcheck : checkCreate opts auth body with
      | error e => simp [Untouched.refl]
      | ok res =>
          obtain ⟨env, policy⟩ := res
          constructor
          · rintro ⟨hvaults, -⟩ env' policy' heq
            cases heq
            exact (filter_createNoteVault_eq_iff hb).mp hvaults
          · intro h
            exact ⟨(filter_createNoteVault_eq_iff hb).mpr (h env policy rfl), rfl⟩
  | updateVault vaultId body =>
      simp only [handle, Spares, iff_true]
      split
      · apply Untouched.refl
      · split
        · apply Untouched.refl
        · exact ⟨filter_updateVault hb (by exact fun _ => rfl) _, rfl⟩
  | verifyBackup vaultId body =>
      simp only [handle, Spares, iff_true]
      split
      · apply Untouched.refl
      · exact ⟨filter_updateVault hb (by exact fun _ => rfl) _, rfl⟩
  | markRestored vaultId =>
      simp only [handle, Spares, iff_true]
      split
      · apply Untouched.refl
      · exact ⟨filter_updateVault hb (by exact fun _ => rfl) _, rfl⟩
  | addWrapper vaultId body =>
      simp only [handle, Spares, iff_true]
      split
      · apply Untouched.refl
      · split
        · exact ⟨filter_updateVault hb (by exact fun _ => rfl) _, rfl⟩
        · exact ⟨filter_updateVault hb (by exact fun _ => rfl) _, rfl⟩
  | deleteWrapper vaultId wrapperId =>
      simp only [handle, Spares, iff_true]
      split
      · exact ⟨rfl, rfl⟩
      · apply Untouched.refl
  | syncPrivy body =>
      simp only [handle, Spares]
      cases hparse : syncPrivyWalletsSchema body with
      | none => simp [parsed, Untouched.refl]
      | some ls =>
          constructor
          · rintro ⟨-, hwallets⟩ ls' heq
            cases heq
            exact (filter_syncPrivyWallets_eq_iff hb).mp hwallets
          · intro h
            exact ⟨rfl, (filter_syncPrivyWallets_eq_iff hb).mpr (h ls rfl)⟩
  | addWallet body =>
      simp only [handle, Spares]
      cases hcheck : checkWallet lib now body s.authNonces with
      | error e => simp [Untouched.refl]
      | ok res =>
          obtain ⟨req, address, _ | n⟩ := res
          · simp [Untouched.refl]
          · by_cases hsigned : Signed lib req address n
            · simp only [if_pos hsigned]
              constructor
              · rintro ⟨-, hwallets⟩ req' address' n' heq -
                cases heq
                exact (filter_addWallet_eq_iff hb).mp hwallets
              · intro h
                exact ⟨rfl, (filter_addWallet_eq_iff hb).mpr (h req address n rfl hsigned)⟩
            · simp only [if_neg hsigned]
              constructor
              · intro _ req' address' n' heq hsigned'
                cases heq
                contradiction
              · intro _
                exact ⟨rfl, rfl⟩
  | deleteWallet walletId =>
      simp only [handle, Spares, iff_true]
      split
      · refine ⟨rfl, ?_⟩
        apply filter_deleteWhere_of_outside
        intro w _ hw
        rw [hw.2.1]
        exact hb.symm
      · apply Untouched.refl

/-! ### A vault that is taken over -/

/-- Two users. -/
def alice : PrivyAuth := ⟨1, "did:privy:alice".toList⟩

@[inherit_doc alice]
def bob : PrivyAuth := ⟨2, "did:privy:bob".toList⟩

/-- The settings of the test network. -/
def testnet : RecoverySettings := ⟨false, .finite 1, false⟩

/-- Libraries for which every text is a checksummed address, and no signature is valid. -/
def noWallets : Wallets := ⟨some, fun _ _ _ _ => false⟩

/-- An envelope with one wrapper. -/
def envelopeOf (vaultId : Text) (owner : PrivyAuth) (ciphertext : Text) :
    EncryptedVaultEnvelope where
  vaultId := vaultId
  privyUserId := owner.privyUserId
  iv := "aXY=".toList
  aad := []
  ciphertext := ciphertext
  wrappers := [⟨"kit".toList, .recoveryKitPassword, .active, .pbkdf2Sha256, "c2FsdA==".toList,
    "a2V5".toList, none, []⟩]

/-- The body of a request with an envelope. -/
def bodyOf (env : EncryptedVaultEnvelope) : Json := .object [("envelope".toList, env.toJson)]

/-- A vault of Bob. -/
def bobsVault : Accounts where
  noteVaults := [newVault 10 bob.userId bob.privyUserId
    (envelopeOf "vault-1".toList bob "Ym9i".toList) .sufficient 1]
  noteVaultWrappers := []
  userWallets := []
  authNonces := []

/-- Alice creates a vault with the same identifier. -/
def takeover : AccountCall where
  auth := alice
  now := 2
  ids := fun i => 20 + i
  request := .createVault (bodyOf (envelopeOf "vault-1".toList alice "YWxpY2U=".toList))

/-- The vault of Bob now has the envelope of Alice. -/
theorem takeover_touches :
  ¬ Untouched bob.userId bobsVault (takeover.answer noWallets testnet bobsVault).2
  := by
  intro h
  have hciphertexts := congrArg (List.map NoteVault.ciphertext) h.1
  revert hciphertexts
  decide +kernel

/-- Alice says that the vault of Bob has been restored, which changes nothing. -/
theorem markRestored_untouched :
  Untouched bob.userId bobsVault
    ((⟨alice, 2, fun i => 20 + i, .markRestored "vault-1".toList⟩ : AccountCall).answer noWallets
      testnet bobsVault).2
  := (untouched_iff noWallets testnet ⟨alice, 2, fun i => 20 + i, .markRestored "vault-1".toList⟩
    bobsVault (by decide)).mpr trivial

end Shade.Api
