import Shade.Pool.Deployment

/-!
# Deposits of one message

The pool remembers the nonces of the messages it has taken deposits for, as the 32-byte
words of the calls, and refuses a nonce it remembers. The proof of a deposit carries the
nonce without its last byte. So a proof can be used once for every nonce that begins with
the same 31 bytes, unless the calls never bring two such nonces.
-/

namespace Shade.Pool

/-- The nonce a call makes a deposit for. -/
def Action.cctpNonce : Action → Option Word
  | call _ (.receiveCctpDeposit args) => some args.cctpNonce
  | _ => none

/-- The public signals of a deposit. -/
def Action.depositSignals : Action → Option (List Word)
  | call _ (.receiveCctpDeposit args) => some (Call.receiveCctpDeposit args).signals
  | _ => none

/-- No two deposits of a run carry the same signals, or the same nonce signal. -/
def OneNotePerDeposit (host : Host) (w : World) (actions : List Action) : Prop :=
  (trace host w actions).Pairwise fun a b => ∀ s s', a.depositSignals = some s →
    b.depositSignals = some s' → s ≠ s' ∧ s.getD 4 0 ≠ s'.getD 4 0

/-- A nonce the pool remembers, other than the given one, differs from it in the first 31
bytes. -/
def State.TellsApart (s : State) (cctpNonce : Word) : Prop :=
  ∀ n, s.deposit.get n ≠ none → hashToField n = hashToField cctpNonce → n = cctpNonce

/-- If the action is a deposit, the pool tells its nonce apart from those it remembers. -/
def NonceToldApart (w : World) (a : Action) : Prop :=
  ∀ n ∈ a.cctpNonce, w.pool.TellsApart n

section

variable {host : Host} {tx : Tx} {w w' : World}

/-- What an accepted call does to the nonces the pool remembers. -/
theorem Call.exec_deposit {c : Call} (h : c.exec host tx w = some w') :
  (∃ args, c = .receiveCctpDeposit args ∧ w.pool.deposit.get args.cctpNonce = none
      ∧ w'.pool.deposit = w.pool.deposit.set args.cctpNonce true
      ∧ hashToField args.cctpNonce = c.signals.getD 4 0)
    ∨ (Action.call tx c).depositSignals = none ∧ w'.pool.deposit = w.pool.deposit
  := by
  cases exec_outcome h with
  | receiveCctpDeposit args x =>
      left
      refine ⟨args, rfl, x.fresh, rfl, ?_⟩
      rw [x.signals_call]
      exact x.nonce
  | withdraw args x => exact .inr ⟨rfl, rfl⟩
  | withdrawCctp args x => exact .inr ⟨rfl, rfl⟩
  | rfqSettle args x => exact .inr ⟨rfl, rfl⟩
  | rfqSettleAtomicSwap args x => exact .inr ⟨rfl, rfl⟩
  | privateTransferSettle args x => exact .inr ⟨rfl, rfl⟩
  | mpcSettle args x => exact .inr ⟨rfl, rfl⟩
  | mpcSettlePriced args x => exact .inr ⟨rfl, rfl⟩
  | registerAsset assetId token hadmin hnew => exact .inr ⟨rfl, rfl⟩
  | config c hadmin =>
      right
      cases c <;> exact ⟨rfl, rfl⟩

/-- An action that is not a call makes no deposit. -/
theorem Action.depositSignals_eq_none {a : Action} (ha : ∀ tx c, a ≠ .call tx c) :
  a.depositSignals = none
  := by
  cases a with
  | call tx c => exact absurd rfl (ha tx c)
  | _ => rfl

/-- What an action does to the nonces the pool remembers. -/
theorem step_deposit {a : Action} (h : step host a w = some w') :
  (∃ tx args, a = .call tx (.receiveCctpDeposit args)
      ∧ w.pool.deposit.get args.cctpNonce = none
      ∧ w'.pool.deposit = w.pool.deposit.set args.cctpNonce true
      ∧ hashToField args.cctpNonce = (Call.receiveCctpDeposit args).signals.getD 4 0)
    ∨ a.depositSignals = none ∧ w'.pool.deposit = w.pool.deposit
  := by
  rcases step_cases h with ⟨tx, c, rfl, hexec⟩ | ⟨ha, hkeep⟩
  · rcases Call.exec_deposit hexec with ⟨args, rfl, hfresh, hset, hnonce⟩ | hother
    · exact .inl ⟨tx, args, rfl, hfresh, hset, hnonce⟩
    · exact .inr hother
  · exact .inr ⟨Action.depositSignals_eq_none ha, by rw [hkeep]⟩

/-- The pool remembers a nonce that is carried as the given word. -/
def State.Remembers (s : State) (k : Word) : Prop :=
  ∃ n, s.deposit.get n ≠ none ∧ hashToField n = k

/-- A nonce that is remembered stays so. -/
theorem State.Remembers.set {s s' : State} {k n : Word} (h : s.Remembers k)
    (hset : s'.deposit = s.deposit.set n true) :
  s'.Remembers k
  := by
  obtain ⟨m, hm, rfl⟩ := h
  refine ⟨m, ?_, rfl⟩
  rw [hset, Store.get_set]
  split
  · apply Option.some_ne_none _
  · exact hm

/-- In a run in which the pool tells the nonce of every deposit apart from those it remembers,
no two deposits carry the same signals. -/
theorem oneNotePerDeposit_of_told_apart (host : Host) (w : World) (actions : List Action)
    (happart : Machine.Along (step host) NonceToldApart w actions) :
  OneNotePerDeposit host w actions
  := by
  have hpairwise : (trace host w actions).Pairwise fun a b => ∀ k,
      (∃ s, a.depositSignals = some s ∧ s.getD 4 0 = k) →
      ¬ ∃ s, b.depositSignals = some s ∧ s.getD 4 0 = k := by
    apply Machine.trace_pairwise (fun (w : World) k => w.pool.Remembers k)
      (fun (a : Action) k => ∃ s, a.depositSignals = some s ∧ s.getD 4 0 = k) _ _ _ _ happart
    · intro s a s' k h hk
      rcases step_deposit h with ⟨tx, args, rfl, -, hset, -⟩ | ⟨-, hkeep⟩
      · apply hk.set hset
      · rwa [State.Remembers, hkeep]
    · rintro s a s' k happart h ⟨signals, hsignals, rfl⟩
      rcases step_deposit h with ⟨tx, args, rfl, hfresh, hset, hnonce⟩ | ⟨hnone, -⟩
      · obtain rfl : (Call.receiveCctpDeposit args).signals = signals :=
          Option.some.inj hsignals
        rw [← hnonce]
        constructor
        · rintro ⟨n, hn, heq⟩
          rw [happart args.cctpNonce rfl n hn heq] at hn
          apply hn hfresh
        · refine ⟨args.cctpNonce, ?_, rfl⟩
          rw [hset, Store.get_set_self]
          apply Option.some_ne_none _
      · rw [hnone] at hsignals
        cases hsignals
  apply hpairwise.imp
  intro a b hab s s' hs hs'
  have hne : s.getD 4 0 ≠ s'.getD 4 0 := by
    intro heq
    apply hab (s.getD 4 0) ⟨s, hs, rfl⟩ ⟨s', hs', heq.symm⟩
  refine ⟨?_, hne⟩
  rintro rfl
  apply hne rfl

/-- If the nonces of the deposits are among words that differ in the first 31 bytes, and so
are those the pool remembers, every one of them is told apart. -/
theorem along_nonceToldApart {nonces : Set Word} (hinj : Set.InjOn hashToField nonces)
    {actions : List Action} (hactions : ∀ a ∈ actions, ∀ n ∈ a.cctpNonce, n ∈ nonces)
    (hw : ∀ n, w.pool.deposit.get n ≠ none → n ∈ nonces) :
  Machine.Along (step host) NonceToldApart w actions
  := by
  induction actions generalizing w with
  | nil => trivial
  | cons a actions ih =>
      have hactions' : ∀ b ∈ actions, ∀ n ∈ b.cctpNonce, n ∈ nonces :=
        fun b hb => hactions b (List.mem_cons_of_mem a hb)
      constructor
      · intro n hn m hm heq
        apply hinj (hw m hm) (hactions a List.mem_cons_self n hn) heq
      · cases h : step host a w with
        | none =>
            rw [Machine.next_of_none h]
            apply ih hactions' hw
        | some w' =>
            rw [Machine.next_of_some h]
            apply ih hactions'
            rcases step_deposit h with ⟨tx, args, rfl, -, hset, -⟩ | ⟨-, hkeep⟩
            · intro m hm
              rw [hset, Store.get_set] at hm
              split at hm
              · next heq =>
                  rw [← heq]
                  apply hactions _ List.mem_cons_self _ rfl
              · apply hw m hm
            · rw [hkeep]
              apply hw

end

namespace Deployment

/-- The host that accepts the deposit of the note. -/
def depositHost : Host := host (noteVectors []) []

/-- The deposit of the note, once more, with another last byte of the nonce. -/
def depositAgain : Action :=
  adminCall (.receiveCctpDeposit (depositArgs note 0xb01 1000 commitment
    0x11dcaf5159c6c00e454880d9f16cf5d683cf0c7b18b6e8cd22fb15b7fe348f8d))

/-- A deposit of the note, then 1000 more units for the pool, and the deposit once more. -/
def depositedTwice : List Action :=
  setup ++ [depositNote, .mint usdc pool 1000, depositAgain]

/-- A deposit of the note, attempted twice with the same nonce. -/
def depositedOnce : List Action :=
  setup ++ [depositNote, .mint usdc pool 1000, depositNote]

/-- Both deposits are accepted. -/
theorem trace_depositedTwice :
  trace depositHost (genesis usdc) depositedTwice = depositedTwice
  := by
  apply (Machine.trace_sublist _ _).eq_of_length
  decide +kernel

/-- The deposit is accepted a second time, with the same signals. -/
theorem depositedTwice_same :
  ¬ OneNotePerDeposit depositHost (genesis usdc) depositedTwice
  := by
  intro h
  rw [OneNotePerDeposit, trace_depositedTwice, depositedTwice, List.pairwise_append] at h
  have hpair := (List.pairwise_cons.mp h.2.1).1 depositAgain (by simp)
  apply (hpair _ _ rfl rfl).1
  have hnonce : hashToField 0xb00 = hashToField 0xb01 := by decide
  rw [depositArgs_signals, depositArgs_signals, mint, mint, hnonce]

/-- With the same nonce the deposit is accepted once. -/
theorem depositedOnce_oneNote :
  OneNotePerDeposit depositHost (genesis usdc) depositedOnce
  := by
  apply oneNotePerDeposit_of_told_apart
  apply along_nonceToldApart (Set.injOn_singleton hashToField 0xb00)
  · simp [depositedOnce, setup, adminCall, depositNote, Action.cctpNonce, depositArgs]
  · intro n hn
    exact absurd rfl hn

end Deployment

end Shade.Pool
