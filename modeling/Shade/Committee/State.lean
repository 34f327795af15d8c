import Shade.Committee.Coordinator

/-!
# The sessions and the clock

The object that keeps the sessions, with calls that add intents and with changes of the status and
the batch of a session by its other users. The identifier of a session is the time at which it was
made, in milliseconds.

`receipts` keeps, for reference, which intents the calls have added to which sessions.
-/

namespace Shade.Committee

open Text

/-- The identifier of a session that is made at a time. -/
def sessionIdAt (now : ℕ) : Text := "session-".toList ++ decimal now

/-- An intent was added to a session, whose identifier the call returned. -/
structure Receipt where
  intentId : Text
  sessionId : Text
  ref : ℕ
deriving DecidableEq

/-- The sessions, the time of the last call, and what the calls have done. -/
structure CommitteeState where
  coordinator : Coordinator
  now : ℕ
  receipts : List Receipt

/-- A call adds an intent at a time, or the status and the batch of a session are written. -/
inductive StateAction where
  | addIntent (intent : MpcIntent) (now : ℕ)
  | setStatus (ref : ℕ) (status : SessionStatus) (signedBatch : Option SignedMatchBatch)

namespace CommitteeState

/-- No sessions. -/
def initial : CommitteeState := ⟨.initial, 0, []⟩

variable (w : CommitteeState)

/-- The session to which a call at a time adds its intent. -/
def target (now : ℕ) : ℕ := (w.coordinator.getOrCreateOpenSession (sessionIdAt now)).2

/-- The sessions after a call. -/
def afterIntent (intent : MpcIntent) (now : ℕ) : Coordinator :=
  w.coordinator.addIntent (sessionIdAt now) intent

/-- What a call does. -/
def receipt (intent : MpcIntent) (now : ℕ) : Option Receipt :=
  (w.afterIntent intent now).heap[w.target now]?.map fun s =>
    ⟨intent.intentId, s.sessionId, w.target now⟩

/-- The session with an identifier. -/
def getSession (sessionId : Text) : Option ℕ := OrderedMap.get w.coordinator.sessions sessionId

/-- All sessions. -/
def allSessions : List ℕ := w.coordinator.sessions.map Prod.snd

end CommitteeState

/-- One step. The clock does not go back. -/
def stateStep : StateAction → CommitteeState → Option CommitteeState
  | .addIntent intent now, w =>
      if now < w.now then none
      else some ⟨w.afterIntent intent now, now, w.receipts ++ (w.receipt intent now).toList⟩
  | .setStatus ref status signedBatch, w =>
      match w.coordinator.heap[ref]? with
      | none => none
      | some s =>
          some { w with
            coordinator := w.coordinator.setSession ref
              { s with status := status, signedBatch := signedBatch } }

/-- The state after a list of steps. -/
def runState (actions : List StateAction) : CommitteeState :=
  Machine.run stateStep .initial actions

end Shade.Committee
