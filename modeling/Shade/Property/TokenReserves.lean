import Shade.Property.Reserves

/-!
# Reserves of a token

The pool compares the supply of one asset with its whole balance of the asset's token. The
supplies of all assets of a token together stay within that balance along a run that
registers every asset to a token of its own, and exits only while USDC is the token of its
own id. Registering a second id for a token is accepted, and then the same balance backs two
supplies.
-/

namespace Shade.Pool

/-! ### The supply of a token -/

/-- The ids of the assets registered to a token, each once. -/
def State.idsOf (s : State) (token : Address) : List Word :=
  ((s.assetToken.writes.map Prod.fst).dedup).filter
    fun assetId => s.assetToken.get assetId = some token

/-- The note supply of all assets registered to a token. -/
def State.tokenSupply (s : State) (token : Address) : ℤ :=
  ((s.idsOf token).map s.supply).sum

/-- The supply of every token is within the balance of the token. -/
def ReservedPerToken (host : Host) (w : World) : Prop :=
  ∀ token, w.pool.tokenSupply token ≤ w.vault host token

theorem State.mem_idsOf {s : State} {token : Address} {assetId : Word} :
  assetId ∈ s.idsOf token ↔ s.assetToken.get assetId = some token
  := by
  rw [idsOf, List.mem_filter, decide_eq_true_iff, List.mem_dedup]
  constructor
  · rintro ⟨-, h⟩
    exact h
  · intro h
    use List.mem_map_of_mem (Store.mem_writes_of_get h)

theorem State.nodup_idsOf (s : State) (token : Address) :
  (s.idsOf token).Nodup
  := (List.nodup_dedup _).filter _

/-- A token has at most one asset if distinct assets have distinct tokens. -/
theorem State.DistinctTokens.idsOf {s : State} (h : s.DistinctTokens) (token : Address) :
  s.idsOf token = [] ∨ ∃ assetId, s.idsOf token = [assetId]
  := by
  have hsame : ∀ assetId ∈ s.idsOf token, ∀ assetId' ∈ s.idsOf token, assetId = assetId' := by
    intro assetId hid assetId' hid'
    apply h assetId assetId' token (mem_idsOf.mp hid) (mem_idsOf.mp hid')
  have hnodup := s.nodup_idsOf token
  match hids : s.idsOf token with
  | [] => exact .inl rfl
  | [assetId] => exact .inr ⟨assetId, rfl⟩
  | assetId :: assetId' :: ids =>
      rw [hids] at hsame hnodup
      obtain rfl := hsame assetId (by simp) assetId' (by simp)
      simp at hnodup

section

variable {host : Host} {tx : Tx} {w w' : World}

/-- Covered supplies of assets with distinct tokens are covered token by token. -/
theorem Backed.reservedPerToken (hw : Backed host w) (hdistinct : w.pool.DistinctTokens) :
  ReservedPerToken host w
  := by
  intro token
  rw [State.tokenSupply]
  rcases hdistinct.idsOf token with hids | ⟨assetId, hids⟩
  · rw [hids]
    apply Int.natCast_nonneg
  · have hmem : assetId ∈ w.pool.idsOf token := by
      rw [hids]
      apply List.mem_singleton_self
    have hle := (hw assetId token (State.mem_idsOf.mp hmem)).2
    rw [hids]
    simpa using hle

/-! ### Registering apart -/

/-- Everything but a settlement of a quote and a transfer out of an allowance of the pool
that takes place outside of a call. -/
def Action.Reserving : Action → Prop
  | call _ (.rfqSettle _) => False
  | call _ (.rfqSettleAtomicSwap _) => False
  | transferFrom _ _ _ _ => False
  | _ => True

/-- An asset is only registered to a token that no other asset has, and an exit only takes
place while the id of USDC has no other token. -/
def RegistersApart (host : Host) (w : World) : Action → Prop
  | .call _ (.registerAsset assetId token) =>
      ∀ assetId' ∈ w.pool.idsOf token, assetId' = assetId
  | .call _ (.withdrawCctp _) =>
      ∀ token ∈ w.pool.assetToken.get (recipientHash host w.pool.usdc), token = w.pool.usdc
  | _ => True

/-- The state an action starts from meets the condition of its call, which is decided. -/
instance (host : Host) (w : World) (a : Action) :
    Decidable (a.Reserving ∧ RegistersApart host w a) :=
  match a with
  | .call _ (.registerAsset _ token) =>
      @instDecidableAnd True _ inferInstance (List.decidableBAll _ (w.pool.idsOf token))
  | .call _ (.withdrawCctp _) =>
      inferInstanceAs (Decidable (True ∧ ∀ token ∈ w.pool.assetToken.get
        (recipientHash host w.pool.usdc), token = w.pool.usdc))
  | .call _ (.rfqSettle _) => isFalse And.left
  | .call _ (.rfqSettleAtomicSwap _) => isFalse And.left
  | .call _ (.receiveCctpDeposit _) => isTrue ⟨trivial, trivial⟩
  | .call _ (.withdraw _) => isTrue ⟨trivial, trivial⟩
  | .call _ (.privateTransferSettle _) => isTrue ⟨trivial, trivial⟩
  | .call _ (.mpcSettle _) => isTrue ⟨trivial, trivial⟩
  | .call _ (.mpcSettlePriced _) => isTrue ⟨trivial, trivial⟩
  | .call _ (.config _) => isTrue ⟨trivial, trivial⟩
  | .registry _ _ => isTrue ⟨trivial, trivial⟩
  | .mint _ _ _ => isTrue ⟨trivial, trivial⟩
  | .transfer _ _ _ _ => isTrue ⟨trivial, trivial⟩
  | .transferFrom _ _ _ _ => isFalse And.left
  | .advance _ => isTrue ⟨trivial, trivial⟩

/-- What leaves the pool through these actions is taken off a supply. -/
theorem RegistersApart.covered {a : Action} (h : RegistersApart host w a) (ha : a.Reserving) :
  Covered host w a
  := by
  cases a with
  | call tx c =>
      cases c with
      | withdrawCctp args => exact h
      | rfqSettle args => cases ha
      | rfqSettleAtomicSwap args => cases ha
      | _ => trivial
  | transferFrom token spender target amount => cases ha
  | _ => trivial

/-- An accepted call leaves the assets alone, or registers a new one. -/
theorem Call.exec_assetToken {c : Call} (h : c.exec host tx w = some w') :
  w'.pool.assetToken = w.pool.assetToken
    ∨ ∃ assetId token, c = .registerAsset assetId token
      ∧ w'.pool.assetToken = w.pool.assetToken.set assetId token
  := by
  cases Call.exec_outcome h with
  | receiveCctpDeposit args x => exact .inl (by simp [Deposit.world])
  | withdraw args x => exact .inl rfl
  | withdrawCctp args x => exact .inl rfl
  | rfqSettle args x => exact .inl rfl
  | rfqSettleAtomicSwap args x => exact .inl rfl
  | privateTransferSettle args x => exact .inl rfl
  | mpcSettle args x => exact .inl (by simp [Settlement.world])
  | mpcSettlePriced args x => exact .inl (by simp [Settlement.world])
  | registerAsset assetId token hadmin hnew => exact .inr ⟨assetId, token, rfl, rfl⟩
  | config c hadmin => exact .inl (by cases c <;> rfl)

/-- Distinct assets keep distinct tokens if a new one gets a token that no other has. -/
theorem State.DistinctTokens.call {c : Call} (hw : w.pool.DistinctTokens)
    (hapart : RegistersApart host w (.call tx c)) (h : c.exec host tx w = some w') :
  w'.pool.DistinctTokens
  := by
  rcases Call.exec_assetToken h with hassets | ⟨assetId, token, rfl, hassets⟩
  · intro assetId assetId' token
    rw [hassets]
    apply hw
  · have hupdates := Store.Updates.set w.pool.assetToken assetId token
    rw [← hassets] at hupdates
    intro assetId₁ assetId₂ token' h₁ h₂
    rcases hupdates.eq_or h₁ with ⟨rfl, rfl⟩ | h₁
    · rcases hupdates.eq_or h₂ with ⟨rfl, -⟩ | h₂
      · rfl
      · apply (hapart assetId₂ (mem_idsOf.mpr h₂)).symm
    · rcases hupdates.eq_or h₂ with ⟨rfl, rfl⟩ | h₂
      · apply hapart assetId₁ (mem_idsOf.mpr h₁)
      · apply hw assetId₁ assetId₂ token' h₁ h₂

/-- Distinct assets keep distinct tokens through an action that registers apart. -/
theorem State.DistinctTokens.step {a : Action} (hw : w.pool.DistinctTokens)
    (hapart : RegistersApart host w a) (h : Pool.step host a w = some w') :
  w'.pool.DistinctTokens
  := by
  rcases step_cases h with ⟨tx, c, rfl, hexec⟩ | ⟨-, hkeep⟩
  · apply hw.call hapart hexec
  · rwa [hkeep]

/-! ### Whole runs -/

/-- From a pool that has just been made, the supply of every token stays within its balance
along a run without settlements of quotes in which assets are registered apart. -/
theorem reservedPerToken_run (host : Host) (admin usdcSac verifier nullifierRegistry : Address)
    (depth : ℕ) (poolId chainId : UInt32) (registry : NullifierRegistry.State)
    (tokens : Token.Ledger) (sequence : ℕ) (actions : List Action)
    (hrun : Machine.Along (Pool.step host) (fun w a => a.Reserving ∧ RegistersApart host w a)
      (World.init (State.constructor admin usdcSac verifier nullifierRegistry depth poolId chainId)
        registry tokens sequence) actions) :
  ReservedPerToken host (run host
    (World.init (State.constructor admin usdcSac verifier nullifierRegistry depth poolId chainId)
      registry tokens sequence) actions)
  := by
  suffices hinvariant : _ ∧ _ from Backed.reservedPerToken hinvariant.2 hinvariant.1
  apply Machine.invariant_run (I := fun w => w.pool.DistinctTokens ∧ Backed host w) _ actions _
    hrun
  · constructor
    · intro assetId assetId' token h
      cases h
    · intro assetId token h
      cases h
  · rintro w a w' ⟨hdistinct, hw⟩ ⟨hreserving, hapart⟩ h
    use hdistinct.step hapart h
    apply hw.step hdistinct (hapart.covered hreserving) h

end

namespace Deployment

/-- A deposit of the note, 1000 more units for the pool, and the exit of the note. -/
def exited : List Action :=
  setup ++ [depositNote, .mint usdc pool 1000, .call exitTx (.withdrawCctp exitArgs)]

/-- The assets of the deployment are registered apart, so the supplies of their tokens are
within the balances when the note has been deposited and has left the pool. -/
theorem exited_reservedPerToken :
  trace exitHost (genesis usdc) exited = exited
    ∧ ReservedPerToken exitHost (run exitHost (genesis usdc) exited)
  := by
  have hrun : (trace exitHost (genesis usdc) exited).length = exited.length
      ∧ Machine.Along (Pool.step exitHost)
        (fun w a => a.Reserving ∧ RegistersApart exitHost w a) (genesis usdc) exited := by
    decide +kernel
  use (Machine.trace_sublist _ _).eq_of_length hrun.1
  apply reservedPerToken_run _ _ _ _ _ _ _ _ _ _ _ _ hrun.2

/-- A note of 1000 units under the id of XLM. -/
def xlmNote : Note :=
  { note with
    assetId := xlmId.toFr
    nullifier := (22 : ℕ)
    secret := (32 : ℕ) }

/-- The commitment of the note under the id of XLM. -/
def xlmCommitment : Word := 0x31a33c873eb7cad4f1e7c5ad44754451d13aca86254cd2ef011f980fe05ea51a

/-- The arguments of the deposit of the note under the id of XLM. -/
def xlmArgs : DepositArgs :=
  { depositArgs xlmNote 0xc00 1000 xlmCommitment
      0x788f02ca709a74f7068ede6df5df12e5600109f3e069814413c66fae3e3c8e0 with
    asset := xlm }

/-- The vectors of the deposits of both notes. -/
def sharedVectors : Vectors where
  withdraws := []
  deposits :=
    [(mint note 0xb00 1000 commitment.toFr).publicSignals,
      (mint xlmNote 0xc00 1000 xlmCommitment.toFr).publicSignals]
  settlements := []

theorem sharedVectors_witnessed :
  sharedVectors.Witnessed
  := by
  constructor
  · intro s hs
    cases hs
  · intro s hs
    rcases List.mem_pair.mp hs with rfl | rfl
    · use mint note 0xb00 1000 commitment.toFr, mint_note_satisfied
    · use mint xlmNote 0xc00 1000 xlmCommitment.toFr
      use mint_satisfied (by decide +kernel) (by decide) (by decide)
  · intro s hs
    cases hs

/-- Both ids are registered to the token of USDC, and a note is deposited under each. -/
def shared : List Action :=
  [adminCall (.config (.setDepositVerifier depositVerifier)),
    adminCall (.registerAsset usdcId usdc), adminCall (.registerAsset xlmId usdc), depositNote,
    adminCall (.receiveCctpDeposit xlmArgs)]

/-- Although the verifiers are sound and nothing has left the pool, the 1000 units of USDC it
holds back two supplies of 1000. -/
theorem shared_not_reservedPerToken :
  Machine.Along (Pool.step (host sharedVectors []))
      (fun w a => w.pool.Sound (host sharedVectors []) ∧ a.Reserving) (genesis usdc) shared
    ∧ (run (host sharedVectors []) (genesis usdc) shared).pool.tokenSupply usdc = 2000
    ∧ ¬ ReservedPerToken (host sharedVectors []) (run (host sharedVectors []) (genesis usdc) shared)
  := by
  have hrun : Machine.Along (Pool.step (host sharedVectors [])) (fun w _ => Configured w.pool)
        (genesis usdc) shared
      ∧ (run (host sharedVectors []) (genesis usdc) shared).pool.tokenSupply usdc = 2000
      ∧ (run (host sharedVectors []) (genesis usdc) shared).vault (host sharedVectors []) usdc
        = 1000 := by
    decide +kernel
  obtain ⟨hconfigured, hsupply, hvault⟩ := hrun
  refine ⟨?_, hsupply, ?_⟩
  · apply Machine.Along.and
    · apply hconfigured.imp
      intro w _ hw
      apply sound sharedVectors_witnessed hw
    · apply Machine.along_of_forall
      intro a ha w
      simp only [shared, adminCall, depositNote, List.mem_cons, List.not_mem_nil, or_false] at ha
      rcases ha with rfl | rfl | rfl | rfl | rfl <;> trivial
  · intro h
    have hle := h usdc
    rw [hsupply, hvault] at hle
    omega

end Deployment

end Shade.Pool
