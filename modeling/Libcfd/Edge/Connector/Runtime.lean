import Libcfd.Edge.Connector
import Libcfd.Edge.H2.Serve

/-!
# The attempts of the two transports

`run_quic` and `run_h2`, each with the serve task it spawns, as the attempts of the reconnect loop.
Both wait for the shutdown event themselves, next to the loop's own `select!`. Dropping an attempt
drops its future and the `JoinHandle` in it; the serve task is detached and runs on.
-/

namespace Libcfd.Edge

open Libcfd.Edge.H2 (Serve Unregistration rpcTimeout)

/-- What awaiting a `JoinHandle` yields. -/
inductive Joined where
  | completed (result : Except Error Unit)
  | failed (message : String)
  deriving DecidableEq, Repr

/-! ## QUIC -/

inductive ServeTask where
  | running
  | ended (joined : Joined)
  | aborted
  deriving DecidableEq, Repr

inductive QuicPhase where
  | serving (shutdown : Notified)
  -- `served` is `none` once the shutdown branch of the `select!` was taken
  | unregistering (served : Option Joined) (deadline : Nat)
  -- the sleep of one grace period
  | draining (served : Option Joined) (wakeAt : Nat)
  | finished (result : Except Error Unit) (timedOut : Bool)
  | dropped
  deriving DecidableEq, Repr

/-- A registered QUIC connection and its serve task. -/
structure QuicServing where
  now : Nat
  -- when the shutdown event fired, if it did so while the attempt was registered
  firedAt : Option Nat
  phase : QuicPhase
  serveTask : ServeTask
  -- requests the connection has taken in and no handler has been given yet
  pending : Nat
  unregistration : Option Unregistration
  drained : Bool
  closed : Bool
  deriving DecidableEq, Repr

inductive QuicAttempt where
  | connecting
  | registering (now deadline : Nat)
  | failed (error : Error)
  -- dropped before there was a serve task
  | abandoned
  | registered (serving : QuicServing)
  deriving DecidableEq, Repr

inductive QuicLabel where
  | elapse (nanos : Nat)
  | connected
  | connectFailed (error : Error)
  -- `control::register` returns; requests may have come in before
  | registered (pending : Nat)
  | registerFailed (error : Error)
  | registerElapsed
  | receive
  | dispatch
  | serveEnded (joined : Joined)
  -- the branches of the `select!`
  | shutdown
  | serveJoined
  | unregistered (how : Unregistration) (timedOut : Bool)
  | drained (timedOut : Bool)
  deriving DecidableEq, Repr

/-- The end of `run_quic`. -/
def quicResult : Option Joined → Except Error Unit
  | none => .ok ()
  | some (.completed (.ok ())) => .error (.quic "serve loop ended unexpectedly")
  | some (.completed (.error e)) => .error e
  | some (.failed message) => .error (.quic ("serve task failed: " ++ message))

/-- `Connection::close`, and `serve_handle.abort()` unless the shutdown has fired. -/
def QuicServing.close (fired : Bool) (served : Option Joined) (timedOut : Bool)
    (q : QuicServing) : QuicServing :=
  { q with
    phase := .finished (quicResult served) timedOut
    serveTask := if !fired && decide (q.serveTask = .running) then .aborted else q.serveTask
    drained := fired
    closed := true }

def QuicServing.step (grace : Nat) (fired : Bool) (q : QuicServing) :
    QuicLabel → Option QuicServing
  | .elapse nanos => some { q with now := q.now + nanos }
  | .receive => if q.closed then none else some { q with pending := q.pending + 1 }
  | .dispatch =>
      if q.serveTask = .running ∧ 0 < q.pending then some { q with pending := q.pending - 1 }
      else none
  | .serveEnded joined =>
      if q.serveTask = .running then some { q with serveTask := .ended joined } else none
  | .shutdown =>
      match q.phase with
      | .serving .woken => some { q with phase := .unregistering none (q.now + grace) }
      | _ => none
  | .serveJoined =>
      match q.phase, q.serveTask with
      | .serving _, .ended joined =>
          some { q with phase := .unregistering (some joined) (q.now + grace) }
      | _, _ => none
  | .unregistered how timedOut =>
      match q.phase with
      | .unregistering served deadline =>
          if how = .elapsed ∧ q.now < deadline then none
          else
            let q := { q with unregistration := some how }
            some (if fired then { q with phase := .draining served (q.now + grace) }
              else q.close fired served timedOut)
      | _ => none
  | .drained timedOut =>
      match q.phase with
      | .draining served wakeAt =>
          if wakeAt ≤ q.now then some (q.close true served timedOut) else none
      | _ => none
  | _ => none

def QuicAttempt.step (grace : Nat) (fired : Bool) : QuicAttempt → QuicLabel → Option QuicAttempt
  | .connecting, .connected => some (.registering 0 rpcTimeout)
  | .connecting, .connectFailed error => some (.failed error)
  | .registering now deadline, .elapse nanos => some (.registering (now + nanos) deadline)
  | .registering now _, .registered pending =>
      some (.registered ⟨now, none, .serving .waiting, .running, pending, none, false, false⟩)
  | .registering _ _, .registerFailed error => some (.failed error)
  | .registering now deadline, .registerElapsed =>
      if deadline ≤ now then some (.failed (.quic "registration timed out")) else none
  | .registered serving, label => (serving.step grace fired label).map .registered
  | _, _ => none

def QuicAttempt.wake : QuicAttempt → QuicAttempt
  | .registered serving =>
      .registered { serving with
        firedAt := serving.firedAt.or (some serving.now)
        phase := match serving.phase with
          | .serving shutdown => .serving shutdown.wake
          | phase => phase }
  | attempt => attempt

def QuicAttempt.finished : QuicAttempt → ServeAttempt → Bool
  | .failed error, outcome => decide (outcome = ⟨.error error, none, false⟩)
  | .registered serving, outcome =>
      match serving.phase with
      | .finished result timedOut =>
          decide (outcome.result = result ∧ outcome.registeredFor.isSome = true ∧
            outcome.quicTimedOut = timedOut)
      | _ => false
  | _, _ => false

def QuicAttempt.abandon : QuicAttempt → QuicAttempt
  | .connecting | .registering .. => .abandoned
  | .registered serving =>
      .registered { serving with phase := match serving.phase with
        | .finished result timedOut => .finished result timedOut
        | _ => .dropped }
  | attempt => attempt

/-! ## HTTP/2 -/

inductive H2Phase where
  -- `serve` is spawned, nobody waits for `registered` yet
  | spawned
  | waitingRegistered (registered : Notified) (deadline : Nat)
  | serving (shutdown : Notified)
  -- the `timeout(grace_period, &mut serve_handle)` of the shutdown branch
  | stopping (deadline : Nat)
  | finished (result : Except Error Unit)
  | dropped
  deriving DecidableEq, Repr

inductive H2Attempt where
  | connecting
  | failed (error : Error)
  -- dropped before there was a serve task
  | abandoned
  | running (phase : H2Phase) (registeredAt : Bool) (serve : Serve)
  deriving DecidableEq, Repr

inductive H2Label where
  | connected
  | connectFailed (error : Error)
  -- a step of `serve` or of its tasks; `.fire` is not one of them
  | serve (label : H2.Label)
  | awaitRegistered
  | registered
  | registeredElapsed
  -- the branches of the `select!`, then of its bounded wait
  | shutdown
  | serveJoined
  | stopped
  | stopElapsed
  deriving DecidableEq, Repr

/-- What awaiting the handle of `serve` yields, once it is over. -/
def joinServe (serve : Serve) : Option Joined :=
  match serve.phase with
  | .returned result => some (.completed result)
  | .aborted => some (.failed "task was cancelled")
  | _ => none

/-- What `run_h2` makes of a serve task that ended by itself. -/
def h2Result (fired : Bool) : Joined → Except Error Unit
  | .completed (.ok ()) => if fired then .ok () else .error (.h2 "edge closed the connection")
  | .completed (.error e) => .error e
  | .failed message => .error (.h2 ("serve task failed: " ++ message))

/-- What a step of the serve task means to `run_h2`: `registered.fire()` wakes it. -/
def H2Phase.hear (label : H2.Label) : H2Phase → H2Phase
  | .waitingRegistered registered deadline =>
      .waitingRegistered (if label = .control .registered then registered.wake else registered)
        deadline
  | phase => phase

def H2Attempt.step (grace : Nat) (fired : Bool) : H2Attempt → H2Label → Option H2Attempt
  | .connecting, .connected => some (.running .spawned false .init)
  | .connecting, .connectFailed error => some (.failed error)
  | .running phase registeredAt serve, .serve label =>
      if label = .fire then none
      else
        (serve.step grace label).map fun serve' => .running (phase.hear label) registeredAt serve'
  | .running .spawned registeredAt serve, .awaitRegistered =>
      some (.running (.waitingRegistered .waiting (serve.now + rpcTimeout)) registeredAt serve)
  | .running (.waitingRegistered .woken _) _ serve, .registered =>
      some (.running (.serving .waiting) true serve)
  | .running (.waitingRegistered _ deadline) registeredAt serve, .registeredElapsed =>
      if deadline ≤ serve.now then some (.running (.serving .waiting) registeredAt serve) else none
  | .running (.serving .woken) registeredAt serve, .shutdown =>
      some (.running (.stopping (serve.now + grace)) registeredAt serve)
  | .running (.serving _) registeredAt serve, .serveJoined =>
      (joinServe serve).map fun joined =>
        .running (.finished (h2Result fired joined)) registeredAt serve
  | .running (.stopping _) registeredAt serve, .stopped =>
      (joinServe serve).map fun joined =>
        .running (.finished (h2Result true joined)) registeredAt serve
  | .running (.stopping deadline) registeredAt serve, .stopElapsed =>
      if deadline ≤ serve.now then some (.running (.finished (.ok ())) registeredAt serve.abort)
      else none
  | _, _ => none

def H2Attempt.wake : H2Attempt → H2Attempt
  | .running (.serving shutdown) registeredAt serve =>
      .running (.serving shutdown.wake) registeredAt serve.wake
  | .running phase registeredAt serve => .running phase registeredAt serve.wake
  | attempt => attempt

def H2Attempt.finished : H2Attempt → ServeAttempt → Bool
  | .failed error, outcome => decide (outcome = ⟨.error error, none, false⟩)
  | .running (.finished result) registeredAt _, outcome =>
      decide (outcome.result = result ∧ outcome.registeredFor.isSome = registeredAt ∧
        outcome.quicTimedOut = false)
  | _, _ => false

def H2Attempt.abandon : H2Attempt → H2Attempt
  | .connecting => .abandoned
  | .running (.finished result) registeredAt serve => .running (.finished result) registeredAt serve
  | .running _ registeredAt serve => .running .dropped registeredAt serve
  | attempt => attempt

/-! ## Both -/

inductive Attempt where
  | quic (attempt : QuicAttempt)
  | h2 (attempt : H2Attempt)
  deriving DecidableEq, Repr

inductive AttemptLabel where
  | quic (label : QuicLabel)
  | h2 (label : H2Label)
  deriving DecidableEq, Repr

namespace Attempt

/-- `build_connection` and `EdgeConnection::run`. -/
def start : Transport → Attempt
  | .quic => .quic .connecting
  | .h2 => .h2 .connecting
  -- unreachable: the transport has been selected
  | .auto => .quic .abandoned

def step (grace : Nat) (fired : Bool) : Attempt → AttemptLabel → Option Attempt
  | .quic attempt, .quic label => (attempt.step grace fired label).map .quic
  | .h2 attempt, .h2 label => (attempt.step grace fired label).map .h2
  | _, _ => none

def wake : Attempt → Attempt
  | .quic attempt => .quic attempt.wake
  | .h2 attempt => .h2 attempt.wake

def finished : Attempt → ServeAttempt → Bool
  | .quic attempt, outcome => attempt.finished outcome
  | .h2 attempt, outcome => attempt.finished outcome

def abandon : Attempt → Attempt
  | .quic attempt => .quic attempt.abandon
  | .h2 attempt => .h2 attempt.abandon

end Attempt

/-- The attempts `EdgeConnector::run` makes. -/
abbrev edgeAttempts (opts : EdgeOptions) (Address : Type) : AttemptModel Address where
  Future := Attempt
  Label := AttemptLabel
  start := fun transport _ _ => Attempt.start transport
  wake := Attempt.wake
  step := Attempt.step opts.gracePeriod
  finished := Attempt.finished
  abandon := Attempt.abandon

end Libcfd.Edge
