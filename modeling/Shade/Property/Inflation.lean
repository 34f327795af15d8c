import Shade.Pool.Deployment

/-!
# The value of a deposited note

A deposit adds its amount to the note supply and appends the commitment its proof opens. The
circuit bounds the value of the note by the proof's amount, of which the pool compares the
low 16 bytes with the amount of the call.
-/

namespace Shade.Pool

section

variable {host : Host} {tx : Tx} {w w' : World} {args : DepositArgs}

/-- An accepted deposit has a witness, if the configured verifiers are sound. -/
theorem Deposit.exists_witness (hsound : w.pool.Sound host) (x : Deposit host tx w args) :
  ∃ a, DepositWitness host.poseidon x.signals a
  := by
  apply hsound.deposit x.depVerifier x.depVerifier_eq
  use args.proofBytes, args.pubSignalsBytes, x.parsed, x.verified

/-- The note of a witness opens the commitment of the deposit. -/
theorem Deposit.commitment_eq (x : Deposit host tx w args) {a : DepositNoteMint.Assignment}
    (ha : DepositWitness host.poseidon x.signals a) :
  args.commitment.toFr = a.note.commitment host.poseidon
  := by
  obtain ⟨hs, henc⟩ := ha
  rw [← x.commitment, henc.getD]
  apply hs.commitment

/-- The value of the note of a witness is within the amount of the deposit exactly if the
amount word fits in 16 bytes. -/
theorem Deposit.value_le_iff (x : Deposit host tx w args) {a : DepositNoteMint.Assignment}
    (ha : DepositWitness host.poseidon x.signals a) (hcanonical : (x.signals.getD 7 0).Canonical) :
  (a.note.value.val : ℤ) ≤ args.amount.val ↔ (x.signals.getD 7 0).toNat < 2 ^ 128
  := by
  obtain ⟨hs, henc⟩ := ha
  have hword : a.amount7dp.val = (x.signals.getD 7 0).toNat := by
    rw [← hcanonical.val_toFr, henc.getD]
    rfl
  have hnote : a.note.value.val = a.value.val := rfl
  have hsum := hs.amount7dp_eq
  have hsurplus := hs.surplus.val_lt (by decide)
  have hvalue := hs.value.val_lt (by decide)
  have hpos := x.positive
  rw [← x.amount] at hpos ⊢
  have hlow := fr32ToI128_mod (by omega : 0 ≤ (fr32ToI128 (x.signals.getD 7 0)).val)
  rw [← hword] at hlow ⊢
  constructor
  · intro hle
    by_contra hge
    have hmod : a.amount7dp.val % 2 ^ 128 = a.amount7dp.val - 2 ^ 128 := by
      omega
    omega
  · intro hlt
    rw [Nat.mod_eq_of_lt hlt] at hlow
    omega

/-- An accepted deposit appends its commitment and adds its amount to the note supply of its
asset; there is a witness for its signals, and for each one the note opens the commitment and
is worth at most the amount exactly if the amount word of the proof fits in 16 bytes. -/
theorem deposit_value_le_iff (hsound : w.pool.Sound host)
    (hcanonical : (Call.receiveCctpDeposit args).Canonical)
    (h : (Call.receiveCctpDeposit args).exec host tx w = some w') :
  w'.pool.treeLeaves = w.pool.treeLeaves ++ [args.commitment]
    ∧ w'.pool.supply (recipientHash host args.asset)
        = w.pool.supply (recipientHash host args.asset) + args.amount.val
    ∧ (∃ a, DepositWitness host.poseidon (Call.receiveCctpDeposit args).signals a)
    ∧ ∀ a, DepositWitness host.poseidon (Call.receiveCctpDeposit args).signals a →
        args.commitment.toFr = a.note.commitment host.poseidon
          ∧ ((a.note.value.val : ℤ) ≤ args.amount.val
            ↔ ((Call.receiveCctpDeposit args).signals.getD 7 0).toNat < 2 ^ 128)
  := by
  obtain ⟨_, x⟩ := Call.exec_outcome h
  have hcanonical' := hcanonical.getD 7
  rw [x.signals_call] at hcanonical' ⊢
  refine ⟨rfl, ?_, x.exists_witness hsound, ?_⟩
  · rw [State.supply_set (s := w.pool) rfl, if_pos x.asset, x.next_eq, x.asset]
  · intro a ha
    use x.commitment_eq ha
    apply x.value_le_iff ha hcanonical'

end

namespace Deployment

/-- A note of 2000 units. -/
def largeNote : Note := { note with value := (2000 : ℕ) }

/-- The commitment of the note of 2000 units. -/
def largeCommitment : Word := 0x61152d4fefd53e0d49be8087e7fdbb73a9cdc939a00cc2c3fe844d1a84828e52

/-- The arguments of a deposit of the note of 2000 units for an amount of 1000: the amount of
the proof is `2 ^ 128 + 1000`. -/
def inflateArgs : DepositArgs :=
  depositArgs largeNote 0xb00 (2 ^ 128 + 1000) largeCommitment
    0x5ed29592bd7f6cad6692cd48099385aec7bed4bbbdfc0f020cb667f3d1422897

/-- The witness of the deposit of 2000 units. -/
def largeMint : DepositNoteMint.Assignment :=
  mint largeNote 0xb00 (2 ^ 128 + 1000) largeCommitment.toFr

/-- The vectors of the deposits of 1000 and of 2000 units. -/
def mintVectors : Vectors where
  withdraws := []
  deposits := [(mint note 0xb00 1000 commitment.toFr).publicSignals, largeMint.publicSignals]
  settlements := []

/-- The world after the pool is configured. -/
def configured : World := run (host mintVectors []) (genesis usdc) setup

theorem largeMint_satisfied :
  DepositNoteMint.Satisfied poseidon255 largeMint
  := mint_satisfied (by decide +kernel) (by decide +kernel) (by decide)

theorem mintVectors_witnessed :
  mintVectors.Witnessed
  := by
  constructor
  · intro s hs
    cases hs
  · intro s hs
    rcases List.mem_pair.mp hs with rfl | rfl
    · use mint note 0xb00 1000 commitment.toFr, mint_note_satisfied
    · use largeMint, largeMint_satisfied
  · intro s hs
    cases hs

/-- The verifiers of the deployment are configured, and both deposits are accepted. -/
theorem configured_exec :
  Configured configured.pool
    ∧ ((Call.receiveCctpDeposit inflateArgs).exec (host mintVectors []) ⟨[admin], none⟩
        configured).isSome = true
    ∧ ((Call.receiveCctpDeposit (depositArgs note 0xb00 1000 commitment stateRoot)).exec
        (host mintVectors []) ⟨[admin], none⟩ configured).isSome = true
  := by
  decide +kernel

theorem configured_sound :
  configured.pool.Sound (host mintVectors [])
  := sound mintVectors_witnessed configured_exec.1

/-- A note of 2000 units is deposited for an amount of 1000. -/
theorem inflateArgs_inflates :
  configured.pool.Sound (host mintVectors [])
    ∧ (Call.receiveCctpDeposit inflateArgs).Canonical
    ∧ ((Call.receiveCctpDeposit inflateArgs).exec (host mintVectors []) ⟨[admin], none⟩
        configured).isSome = true
    ∧ ∃ a, DepositWitness poseidon255 (Call.receiveCctpDeposit inflateArgs).signals a
      ∧ ¬ (a.note.value.val : ℤ) ≤ inflateArgs.amount.val
  := by
  refine ⟨configured_sound, ?_, configured_exec.2.1, largeMint, ⟨largeMint_satisfied, ?_⟩, ?_⟩
  · apply Call.canonical_ofFr (depositArgs_signals _ _ _ _ _)
  · rw [inflateArgs, depositArgs_signals]
    apply encodes_ofFr
  · decide

/-- The note of a deposit of 1000 units is worth at most 1000. -/
theorem depositNote_value_le :
  DepositWitness poseidon255
      (Call.receiveCctpDeposit (depositArgs note 0xb00 1000 commitment stateRoot)).signals
      (mint note 0xb00 1000 commitment.toFr)
    ∧ ((mint note 0xb00 1000 commitment.toFr).note.value.val : ℤ) ≤ 1000
  := by
  obtain ⟨w', hw'⟩ := Option.isSome_iff_exists.mp configured_exec.2.2
  have hsignals := depositArgs_signals note 0xb00 1000 commitment stateRoot
  have hwitness : DepositWitness poseidon255
      (Call.receiveCctpDeposit (depositArgs note 0xb00 1000 commitment stateRoot)).signals
      (mint note 0xb00 1000 commitment.toFr) := by
    use mint_note_satisfied
    rw [hsignals]
    apply encodes_ofFr
  obtain ⟨-, -, -, hvalue⟩ :=
    deposit_value_le_iff configured_sound (Call.canonical_ofFr hsignals) hw'
  use hwitness
  apply (hvalue _ hwitness).2.mpr
  rw [hsignals]
  decide

end Deployment

end Shade.Pool
