import Shade.Api.Prepare

/-!
# Acknowledged requests

A request that is answered with the key of a row is stored exactly if, before it, no row had the
key or the idempotency key of its row, or the row with the key held the same data for the same
user. Otherwise the row is dropped without an error. Rows that are stored remain.
-/

namespace Shade.Api

open Text Table

variable {δ : Type} {r : Row δ} {t t' : List (Row δ)}

/-- A row with the key of a row holds its data and belongs to its user. -/
def Holds (r : Row δ) (t : List (Row δ)) : Prop :=
  ∃ s ∈ t, s.id = r.id ∧ s.data = r.data ∧ s.userId = r.userId

/-- No row has the key or the idempotency key of a row. -/
def Free (r : Row δ) (t : List (Row δ)) : Prop := ∀ s ∈ t, ¬ r.Clashes s

/-- The row of a request is stored, under the key with which the request is answered. -/
def Stores (row : Except ApiError (Row δ)) (id : Text) (t : List (Row δ)) : Prop :=
  ∃ r, row = .ok r ∧ r.id = id ∧ Holds r t

/-- The keys of the row of a request are free, or its data are stored already. -/
def Admits (row : Except ApiError (Row δ)) (t : List (Row δ)) : Prop :=
  ∀ r, row = .ok r → Holds r t ∨ Free r t

/-! ### Insertions -/

/-- A row is stored by its insertion exactly if its data are stored already or its keys are
free. -/
theorem holds_insertGeneric_iff :
  Holds r (insertGeneric r t) ↔ Holds r t ∨ Free r t
  := by
  rw [insertGeneric, insertOrNothing]
  split
  · case isTrue hclash =>
      constructor
      · exact Or.inl
      · rintro (h | hfree)
        · exact h
        · obtain ⟨s, hs, hclash⟩ := hclash
          exact absurd hclash (hfree s hs)
  · case isFalse hno =>
      constructor
      · intro _
        right
        intro s hs hclash
        apply hno ⟨s, hs, hclash⟩
      · intro _
        use r
        simp

/-- A deposit that is answered is stored exactly if its data are stored already or its keys are
free. -/
theorem holds_createUserDeposit_iff (h : createUserDeposit r t = some t') :
  Holds r t' ↔ Holds r t ∨ Free r t
  := by
  rw [createUserDeposit] at h
  split at h
  · case isTrue hid =>
      cases h
      constructor
      · exact Or.inl
      · rintro (h | hfree)
        · exact h
        · obtain ⟨s, hs, hid⟩ := hid
          exact absurd (Or.inl hid) (hfree s hs)
  · case isFalse hid =>
      split at h
      · cases h
      · case isFalse hkey =>
          cases h
          constructor
          · intro _
            right
            rintro s hs (hclash | hclash)
            · apply hid ⟨s, hs, hclash⟩
            · apply hkey ⟨s, hs, hclash⟩
          · intro _
            use r
            simp

/-- Rows remain when a deposit is inserted. -/
theorem subset_createUserDeposit (h : createUserDeposit r t = some t') :
  t ⊆ t'
  := by
  rw [createUserDeposit] at h
  split at h
  · cases h
    apply List.Subset.refl
  · split at h
    · cases h
    · cases h
      apply List.subset_append_left

theorem Holds.mono (h : Holds r t) (hsub : t ⊆ t') :
  Holds r t'
  := by
  obtain ⟨s, hs, heq⟩ := h
  use s, hsub hs

/-! ### Requests -/

variable (platform : Platform) (usdcAddress : Text)

/-- The tables after a list of requests. -/
def prepareRun (s : Requests) (calls : List PrepareCall) : Requests :=
  Machine.run (fun c s => (prepare platform usdcAddress c s).toOption.map Prod.snd) s calls

/-- The row of a request to given tables is stored in other ones. -/
def PrepareCall.Stored (c : PrepareCall) (s : Requests) (id : Text) (s' : Requests) : Prop :=
  match c.request with
  | .proof kind body =>
      Stores (proofRow platform c.userId c.idempotencyKey kind body) id s'.proofJobs
  | .withdrawal body => Stores (withdrawalRow c.userId c.idempotencyKey body) id s'.withdrawals
  | .exit body => Stores (exitRow c.userId c.idempotencyKey body) id s'.cctpExits
  | .intent body => Stores (intentRow platform c.userId c.idempotencyKey body) id s'.intents
  | .deposit body =>
      Stores (depositRow usdcAddress c.userId c.idempotencyKey body s) id s'.cctpDeposits

/-- The keys of the row of a request are free, or its data are stored already. -/
def PrepareCall.Admitted (c : PrepareCall) (s : Requests) : Prop :=
  match c.request with
  | .proof kind body =>
      Admits (proofRow platform c.userId c.idempotencyKey kind body) s.proofJobs
  | .withdrawal body => Admits (withdrawalRow c.userId c.idempotencyKey body) s.withdrawals
  | .exit body => Admits (exitRow c.userId c.idempotencyKey body) s.cctpExits
  | .intent body => Admits (intentRow platform c.userId c.idempotencyKey body) s.intents
  | .deposit body =>
      Admits (depositRow usdcAddress c.userId c.idempotencyKey body s) s.cctpDeposits

/-- What the answer to a request says of its row. -/
theorem respond_ok {raises : Bool} {row : Except ApiError (Row δ)}
    {insert : Row δ → Option Requests} {id : Text} {s' : Requests}
    (h : respond raises row insert = .ok (id, s')) :
  ∃ r, row = .ok r ∧ insert r = some s' ∧ r.id = id
  := by
  cases row with
  | error e => cases h
  | ok r =>
      use r, rfl
      simp only [respond, bind, Except.bind] at h
      split at h
      · cases h
      · split at h
        · cases h
        · case h_2 s hinsert =>
            cases h
            exact ⟨hinsert, rfl⟩

/-- A row that is computed after a check is the row itself. -/
theorem row_of_check {check : Except ApiError Unit} {row : Except ApiError (Row δ)}
    (h : (do check; row) = .ok r) :
  row = .ok r
  := by
  cases check with
  | error e => cases h
  | ok _ => exact h

/-- The row of a request is stored exactly if it is admitted, whatever its table is. -/
theorem stores_iff {row : Except ApiError (Row δ)} (hrow : row = .ok r)
    (h : Holds r t' ↔ Holds r t ∨ Free r t) :
  Stores row r.id t' ↔ Admits row t
  := by
  constructor
  · rintro ⟨r', hr', -, hholds⟩ r'' hr''
    rw [hrow] at hr' hr''
    cases hr'
    cases hr''
    apply h.mp hholds
  · intro hadmits
    exact ⟨r, hrow, rfl, h.mpr (hadmits r hrow)⟩

/-- A request that is answered is stored exactly if it was admitted. -/
theorem stored_iff_admitted {c : PrepareCall} {s : Requests} {id : Text} {s' : Requests}
    (h : prepare platform usdcAddress c s = .ok (id, s')) :
  c.Stored platform usdcAddress s id s' ↔ c.Admitted platform usdcAddress s
  := by
  obtain ⟨userId, key, request, raises⟩ := c
  simp only [prepare] at h
  cases request with
  | proof kind body =>
      obtain ⟨r, hrow, hinsert, rfl⟩ := respond_ok h
      cases hinsert
      apply stores_iff hrow holds_insertGeneric_iff
  | withdrawal body =>
      obtain ⟨r, hrow, hinsert, rfl⟩ := respond_ok h
      cases hinsert
      apply stores_iff (row_of_check hrow) holds_insertGeneric_iff
  | exit body =>
      obtain ⟨r, hrow, hinsert, rfl⟩ := respond_ok h
      cases hinsert
      apply stores_iff (row_of_check hrow) holds_insertGeneric_iff
  | intent body =>
      obtain ⟨r, hrow, hinsert, rfl⟩ := respond_ok h
      cases hinsert
      apply stores_iff hrow holds_insertGeneric_iff
  | deposit body =>
      obtain ⟨r, hrow, hinsert, rfl⟩ := respond_ok h
      obtain ⟨t', ht', rfl⟩ := Option.map_eq_some_iff.mp hinsert
      apply stores_iff hrow (holds_createUserDeposit_iff ht')

/-- The rows of all tables remain. -/
structure Requests.Keeps (s s' : Requests) : Prop where
  proofJobs : s.proofJobs ⊆ s'.proofJobs
  withdrawals : s.withdrawals ⊆ s'.withdrawals
  cctpExits : s.cctpExits ⊆ s'.cctpExits
  intents : s.intents ⊆ s'.intents
  cctpDeposits : s.cctpDeposits ⊆ s'.cctpDeposits

theorem Requests.Keeps.refl (s : Requests) :
  s.Keeps s
  where
  proofJobs := List.Subset.refl _
  withdrawals := List.Subset.refl _
  cctpExits := List.Subset.refl _
  intents := List.Subset.refl _
  cctpDeposits := List.Subset.refl _

theorem Requests.Keeps.trans {s s' s'' : Requests} (h : s.Keeps s') (h' : s'.Keeps s'') :
  s.Keeps s''
  where
  proofJobs := List.Subset.trans h.proofJobs h'.proofJobs
  withdrawals := List.Subset.trans h.withdrawals h'.withdrawals
  cctpExits := List.Subset.trans h.cctpExits h'.cctpExits
  intents := List.Subset.trans h.intents h'.intents
  cctpDeposits := List.Subset.trans h.cctpDeposits h'.cctpDeposits

/-- One request keeps the rows of all tables. -/
theorem prepare_keeps {c : PrepareCall} {s : Requests} {id : Text} {s' : Requests}
    (h : prepare platform usdcAddress c s = .ok (id, s')) :
  s.Keeps s'
  := by
  obtain ⟨userId, key, request, raises⟩ := c
  simp only [prepare] at h
  cases request with
  | proof kind body =>
      obtain ⟨r, -, hinsert, -⟩ := respond_ok h
      cases hinsert
      exact { Requests.Keeps.refl s with proofJobs := subset_insertOrNothing }
  | withdrawal body =>
      obtain ⟨r, -, hinsert, -⟩ := respond_ok h
      cases hinsert
      exact { Requests.Keeps.refl s with withdrawals := subset_insertOrNothing }
  | exit body =>
      obtain ⟨r, -, hinsert, -⟩ := respond_ok h
      cases hinsert
      exact { Requests.Keeps.refl s with cctpExits := subset_insertOrNothing }
  | intent body =>
      obtain ⟨r, -, hinsert, -⟩ := respond_ok h
      cases hinsert
      exact { Requests.Keeps.refl s with intents := subset_insertOrNothing }
  | deposit body =>
      obtain ⟨r, -, hinsert, -⟩ := respond_ok h
      obtain ⟨t', ht', rfl⟩ := Option.map_eq_some_iff.mp hinsert
      exact { Requests.Keeps.refl s with cctpDeposits := subset_createUserDeposit ht' }

/-- A list of requests keeps the rows of all tables. -/
theorem prepareRun_keeps (s : Requests) (calls : List PrepareCall) :
  s.Keeps (prepareRun platform usdcAddress s calls)
  := by
  refine Machine.invariant_run_of_step ?_ calls (Requests.Keeps.refl s)
  intro s₁ c s₂ hs heq
  obtain ⟨⟨id, s₂⟩, hok, rfl⟩ := Option.map_eq_some_iff.mp heq
  apply hs.trans
  cases h : prepare platform usdcAddress c s₁ with
  | error e =>
      rw [h] at hok
      cases hok
  | ok res =>
      rw [h] at hok
      cases hok
      apply prepare_keeps platform usdcAddress h

/-- What is stored remains. -/
theorem PrepareCall.Stored.mono {c : PrepareCall} {s : Requests} {id : Text} {s₁ s₂ : Requests}
    (h : c.Stored platform usdcAddress s id s₁) (hkeeps : s₁.Keeps s₂) :
  c.Stored platform usdcAddress s id s₂
  := by
  obtain ⟨userId, key, request, raises⟩ := c
  cases request with
  | proof kind body =>
      obtain ⟨r, hrow, hid, hholds⟩ := h
      exact ⟨r, hrow, hid, hholds.mono hkeeps.proofJobs⟩
  | withdrawal body =>
      obtain ⟨r, hrow, hid, hholds⟩ := h
      exact ⟨r, hrow, hid, hholds.mono hkeeps.withdrawals⟩
  | exit body =>
      obtain ⟨r, hrow, hid, hholds⟩ := h
      exact ⟨r, hrow, hid, hholds.mono hkeeps.cctpExits⟩
  | intent body =>
      obtain ⟨r, hrow, hid, hholds⟩ := h
      exact ⟨r, hrow, hid, hholds.mono hkeeps.intents⟩
  | deposit body =>
      obtain ⟨r, hrow, hid, hholds⟩ := h
      exact ⟨r, hrow, hid, hholds.mono hkeeps.cctpDeposits⟩

/-- A request of a run that is answered is stored exactly if it was admitted, and what is stored
remains so during the rest of the run. -/
theorem acknowledged_stored {s : Requests} {before : List PrepareCall} {c : PrepareCall}
    {id : Text} {s' : Requests}
    (h : prepare platform usdcAddress c (prepareRun platform usdcAddress s before)
      = .ok (id, s')) :
  (c.Stored platform usdcAddress (prepareRun platform usdcAddress s before) id s'
      ↔ c.Admitted platform usdcAddress (prepareRun platform usdcAddress s before))
    ∧ (c.Admitted platform usdcAddress (prepareRun platform usdcAddress s before) →
      ∀ after : List PrepareCall, c.Stored platform usdcAddress
        (prepareRun platform usdcAddress s before) id
        (prepareRun platform usdcAddress s' after))
  := by
  have hiff := stored_iff_admitted platform usdcAddress h
  constructor
  · exact hiff
  · intro hadmitted after
    apply (hiff.mpr hadmitted).mono
    apply prepareRun_keeps

/-! ### An idempotency key that is used twice -/

/-- No rows. -/
def noRequests : Requests where
  proofJobs := []
  withdrawals := []
  cctpExits := []
  intents := []
  cctpDeposits := []
  accounts := ⟨[], [], [], []⟩
  criticalRootMismatchCount := 0

/-- The body of a withdrawal. -/
def withdrawalBody (nullifier amount : Text) : Json :=
  .object [("root".toList, .string "1".toList), ("nullifier".toList, .string nullifier),
    ("asset_id".toList, .string "1".toList), ("amount_public".toList, .string amount),
    ("recipient".toList, .string "GALICE".toList), ("relayer_fee".toList, .string "0".toList),
    ("deadline_ledger".toList, .number 100), ("policy_id".toList, .string "1".toList),
    ("pool_id".toList, .string "1".toList), ("chain_id".toList, .string "148".toList)]

/-- A user withdraws with an idempotency key. -/
def withdrawalCall (userId : Uuid) (nullifier amount : Text) : PrepareCall where
  userId := userId
  idempotencyKey := some "key-0001".toList
  request := .withdrawal (withdrawalBody nullifier amount)
  raises := false

/-- A platform without numbers. -/
def plainPlatform : Platform := ⟨fun _ _ => true, fun _ => []⟩

/-- The first withdrawal with a key is stored. -/
theorem withdrawal_stored :
  ∃ id s', prepare plainPlatform [] (withdrawalCall 1 "11".toList "5".toList) noRequests
      = .ok (id, s')
    ∧ (withdrawalCall 1 "11".toList "5".toList).Stored plainPlatform [] noRequests id s'
  := by
  obtain ⟨id, s', h⟩ : ∃ id s', prepare plainPlatform [] (withdrawalCall 1 "11".toList "5".toList)
      noRequests = .ok (id, s') := ⟨_, _, rfl⟩
  have hrun : prepare plainPlatform [] (withdrawalCall 1 "11".toList "5".toList)
      (prepareRun plainPlatform [] noRequests []) = .ok (id, s') := h
  use id, s', h
  apply (acknowledged_stored plainPlatform [] hrun).1.mpr
  intro r _
  right
  intro s hs
  cases hs

/-- The second withdrawal with the key, of another user with another nullifier, is answered as
well, but it is not stored. -/
theorem reusedKey_dropped :
  ∃ id s', prepare plainPlatform [] (withdrawalCall 2 "22".toList "7".toList)
        (prepareRun plainPlatform [] noRequests [withdrawalCall 1 "11".toList "5".toList])
      = .ok (id, s')
    ∧ ¬ (withdrawalCall 2 "22".toList "7".toList).Stored plainPlatform []
        (prepareRun plainPlatform [] noRequests [withdrawalCall 1 "11".toList "5".toList]) id s'
  := by
  have hrows : (prepareRun plainPlatform [] noRequests
      [withdrawalCall 1 "11".toList "5".toList]).withdrawals.map
        (fun s => (s.idempotencyKey, s.userId)) = [("key-0001".toList, some 1)] := by
    decide +kernel
  obtain ⟨id, s', h⟩ : ∃ id s', prepare plainPlatform [] (withdrawalCall 2 "22".toList "7".toList)
      (prepareRun plainPlatform [] noRequests [withdrawalCall 1 "11".toList "5".toList])
        = .ok (id, s') := ⟨_, _, rfl⟩
  use id, s', h
  rw [stored_iff_admitted plainPlatform [] h]
  intro hadmitted
  obtain ⟨r, hrow, hkey, huser⟩ : ∃ r, withdrawalRow 2 (some "key-0001".toList)
      (withdrawalBody "22".toList "7".toList) = .ok r ∧ r.idempotencyKey = "key-0001".toList
        ∧ r.userId = some 2 := ⟨_, rfl, rfl, rfl⟩
  rcases hadmitted r hrow with ⟨s, hs, -, -, hs'⟩ | hfree
  · have hmem := List.mem_map_of_mem (f := fun s : Row _ => (s.idempotencyKey, s.userId)) hs
    rw [hrows, List.mem_singleton, Prod.mk.injEq, hs', huser] at hmem
    cases hmem.2
  · obtain ⟨s, hs, heq⟩ := List.mem_map.mp (hrows ▸ List.mem_singleton_self _)
    rw [Prod.mk.injEq] at heq
    apply hfree s hs (Or.inr (heq.1.trans hkey.symm))

end Shade.Api
