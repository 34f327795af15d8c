import Shade.Committee.Session
import Shade.Library.Machine

/-!
# The coordinator

The process that keeps the sessions. Intents are added to the open session, and rounds are started
by requests and by a timer. What happens between two moments at which a task waits is one step:
other requests and ticks of the timer come in between. Sessions are objects: a reference is the
position of an object in the list of all that were made, and the map of sessions leads from the
identifiers to references.

`started` keeps, for reference, the sessions with which rounds have started, and `produced` the
batches that were signed.
-/

namespace Shade.Committee

open Text

/-- The two servers: the combined one computes a round without waiting. -/
inductive Server where
  | combined
  | remote
deriving DecidableEq

/-- What the process is configured with, and how it sorts. -/
structure Config where
  server : Server
  nodes : List Text
  crypto : Crypto
  sort : List Intent → List Intent

/-- Where a task waits: for the nodes to decrypt, for the nodes to sign, or at the end of a round
before the sessions that remain of a tick. -/
inductive CommitteeTask where
  | idle
  | decrypting (ref : ℕ) (rest : List ℕ)
  | signing (ref : ℕ) (batchId : Text) (matchList : List MatchResult) (rest : List ℕ)
  | resumed (rest : List ℕ)

/-- The process. -/
structure Coordinator where
  heap : List Session
  sessions : OrderedMap Text ℕ
  intentToSession : OrderedMap Text Text
  tasks : ℕ → CommitteeTask
  started : List ℕ
  produced : List (ℕ × SignedMatchBatch)

namespace Coordinator

/-- The process has just been started. -/
def initial : Coordinator := ⟨[], [], [], fun _ => .idle, [], []⟩

variable (w : Coordinator)

/-- A task goes on to wait elsewhere. -/
def task (p : ℕ) (t : CommitteeTask) : Coordinator :=
  { w with tasks := Function.update w.tasks p t }

/-- Change a session. -/
def setSession (ref : ℕ) (s : Session) : Coordinator :=
  { w with heap := w.heap.set ref s }

/-- The session is open. -/
def isOpen (ref : ℕ) : Bool := w.heap[ref]?.any fun s => s.status = .opened

/-- The open sessions. -/
def getOpenSessions : List ℕ :=
  (w.sessions.filter fun e => w.isOpen e.2).map Prod.snd

/-- Make a session. -/
def createSession (sessionId : Text) : Coordinator :=
  { w with
    heap := w.heap ++ [newSession sessionId]
    sessions := OrderedMap.set w.sessions sessionId w.heap.length }

/-- The open session, which is made if there is none. The identifier of a session that is made is
that of the time. -/
def getOrCreateOpenSession (sessionId : Text) : Coordinator × ℕ :=
  match w.getOpenSessions with
  | ref :: _ => (w, ref)
  | [] => (w.createSession sessionId, w.heap.length)

/-- Add an intent to a session. -/
def addIntentTo (ref : ℕ) (intent : MpcIntent) : Coordinator :=
  match w.heap[ref]? with
  | none => w
  | some s =>
      { w.setSession ref (s.addIntent intent) with
        intentToSession := OrderedMap.set w.intentToSession intent.intentId s.sessionId }

/-- Add an intent to the open session. -/
def addIntent (sessionId : Text) (intent : MpcIntent) : Coordinator :=
  let (w, ref) := w.getOrCreateOpenSession sessionId
  w.addIntentTo ref intent

/-- A batch that was signed is kept for reference. -/
def produce (ref : ℕ) (batch : Option SignedMatchBatch) : Coordinator :=
  { w with produced := w.produced ++ (batch.map fun b => (ref, b)).toList }

/-- A round is started with a session. -/
def start (ref : ℕ) : Coordinator := { w with started := w.started ++ [ref] }

/-- What is left to do at the end of a round. A task ends if an error was thrown in the round. -/
def afterRound (s : Session) (rest : List ℕ) : CommitteeTask :=
  if s.status = .matching then .idle else .resumed rest

variable (cfg : Config)

/-- Begin a round with a session. The coordinator goes on to wait for the nodes. -/
def beginRound (p ref : ℕ) (rest : List ℕ) (batchId : Text) (s : Session) : Coordinator :=
  if s.intents.length < 2 then
    w.task p (.resumed rest)
  else
    match cfg.server with
    | .combined =>
        let (s', batch) := runMatchingRound cfg.crypto cfg.sort cfg.nodes batchId s
        (((w.start ref).setSession ref s').produce ref batch).task p (afterRound s' rest)
    | .remote =>
        ((w.start ref).setSession ref (s.withStatus .matching)).task p (.decrypting ref rest)

/-- The loop of the timer, up to the next session with at least two intents. -/
def sweep (p : ℕ) (batchId : Text) : List ℕ → Coordinator
  | [] => w.task p .idle
  | ref :: rest =>
      match w.heap[ref]? with
      | none => sweep p batchId rest
      | some s =>
          if s.intents.length < 2 then sweep p batchId rest
          else w.beginRound cfg p ref rest batchId s

end Coordinator

/-- What happens next. A round that computes a batch is given the identifier for it. -/
inductive CommitteeAction where
  | submit (intent : MpcIntent) (sessionId : Text)
  | matchSession (p : ℕ) (sessionId batchId : Text)
  | timer (p : ℕ) (batchId : Text)
  | resume (p : ℕ) (batchId : Text)
  | decrypted (p : ℕ) (answers : List (Option DecryptAnswer)) (batchId : Text)
  | signed (p : ℕ) (answers : List (Option NodeSignature))
  | raise (p : ℕ)

/-- One step. -/
def committeeStep (cfg : Config) : CommitteeAction → Coordinator → Option Coordinator
  | .submit intent sessionId, w =>
      if intent.intentId = [] ∨ intent.encryptedShares.length ≠ cfg.nodes.length then none
      else some (w.addIntent sessionId intent)
  | .matchSession p sessionId batchId, w =>
      match w.tasks p, OrderedMap.get w.sessions sessionId with
      | .idle, some ref =>
          match w.heap[ref]? with
          | some s =>
              if s.status = .opened then some (w.beginRound cfg p ref [] batchId s) else none
          | none => none
      | _, _ => none
  | .timer p batchId, w =>
      match w.tasks p with
      | .idle => some (w.sweep cfg p batchId w.getOpenSessions)
      | _ => none
  | .resume p batchId, w =>
      match w.tasks p with
      | .resumed rest => some (w.sweep cfg p batchId rest)
      | _ => none
  | .decrypted p answers batchId, w =>
      match w.tasks p with
      | .decrypting ref rest =>
          match w.heap[ref]? with
          | some s =>
              match afterDecrypt cfg.sort cfg.nodes answers s with
              | (s', none) =>
                  some ((w.setSession ref s').task p (Coordinator.afterRound s' rest))
              | (s', some matchList) =>
                  some ((w.setSession ref s').task p (.signing ref batchId matchList rest))
          | none => none
      | _ => none
  | .signed p answers, w =>
      match w.tasks p with
      | .signing ref batchId matchList rest =>
          match w.heap[ref]? with
          | some s =>
              let (s', batch) := afterSign cfg.crypto cfg.nodes batchId matchList answers s
              some (((w.setSession ref s').produce ref batch).task p
                (Coordinator.afterRound s' rest))
          | none => none
      | _ => none
  | .raise p, w =>
      match w.tasks p with
      | .resumed _ => some (w.task p .idle)
      | _ => none

end Shade.Committee
