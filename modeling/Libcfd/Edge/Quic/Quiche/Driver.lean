import Libcfd.Edge.Quic.Quiche
import Libcfd.Foundation.History
import Mathlib.Data.List.AList

/-!
# The quiche backend: the driver task

`drive` owns the socket. Nobody else moves the connection: the tasks that read, write, accept or wait
for the handshake look at the state under the mutex, leave a waker or wait on the sequence watch,
and rely on `drive` to come back. So when `drive` ends it has to leave the connection closed, wake
everybody and bump the watch. It does if quiche says that the connection is closed, and does nothing of
it if `socket.readable()` fails.

Each critical section of the mutex is one step. The quiche crate is a parameter.
-/

namespace Libcfd.Edge.Quic.Quiche.Driver

open Libcfd.Machine

/-! ## quiche -/

/-- The waker of a task; `wake` on equal ones wakes the same task. -/
abbrev Waker := Nat

/-- `quiche::Error`, as far as it is told apart. -/
inductive QuicheError where
  | done
  | invalidStreamState
  | other (message : String)
  deriving DecidableEq, Repr

/-- The quiche crate: `quiche::Connection` and its methods. What depends on the clock is given the
time. -/
structure Crate where
  Connection : Type
  sendAckEliciting : Nat → Connection → Connection
  -- `send`: a datagram, or `Done` or another error
  send : Nat → Connection → Bool × Connection
  recv : Nat → List UInt8 → Connection → Connection
  onTimeout : Nat → Connection → Connection
  close : Nat → Connection → Connection
  isEstablished : Connection → Bool
  isClosed : Connection → Bool
  isTimedOut : Connection → Bool
  peerError : Connection → Option String
  readable : Connection → List StreamId
  writable : Connection → List StreamId
  -- so many bytes and the FIN, with room for so many
  streamRecv : Connection → StreamId → Nat → Except QuicheError (Nat × Bool) × Connection
  streamSend : Connection → StreamId → Nat → Bool → Except QuicheError Nat × Connection
  streamWritable : Connection → StreamId → Nat → Connection
  shutdownRead : Connection → StreamId → Connection
  shutdownWrite : Connection → StreamId → Connection

/-- `HashMap<u64, Waker>`. -/
abbrev Wakers := AList fun _ : StreamId => Waker

/-- The wakers of a map, in no order that matters. -/
def values (wakers : Wakers) : List Waker := wakers.entries.map Sigma.snd

theorem mem_values {wakers : Wakers} {waker : Waker} :
    waker ∈ values wakers ↔ ∃ identifier, wakers.lookup identifier = some waker := by
  constructor
  · intro h
    obtain ⟨⟨identifier, _⟩, hentry, rfl⟩ := List.mem_map.mp h
    exact ⟨identifier, AList.mem_lookup_iff.mpr hentry⟩
  · rintro ⟨identifier, h⟩
    exact List.mem_map.mpr ⟨⟨identifier, waker⟩, AList.mem_lookup_iff.mp h, rfl⟩

variable {Q : Crate}

/-- What the mutex guards. -/
structure Inner (Q : Crate) where
  connection : Q.Connection
  readWakers : Wakers
  writeWakers : Wakers
  accepted : List StreamId
  established : Bool
  closed : Bool
  timedOut : Bool
  closeReason : Option String

/-! ## Reading and writing -/

structure QuicStream where
  streamIdentifier : StreamId
  readEof : Bool
  deriving DecidableEq, Repr

/-- `closed_error`, the error of a write to a stream that is not open, and `stream_error`. -/
inductive StreamError where
  | closed
  | notOpen
  | stream (message : String)
  deriving DecidableEq, Repr

inductive Poll where
  | ready (result : Except StreamError Nat)
  | pending
  deriving DecidableEq

/-- The second `stream_recv` of `poll_read`, with the waker registered. -/
def Inner.recheck (g : Inner Q) (stream : QuicStream) (capacity : Nat) :
    Poll × QuicStream × Inner Q :=
  let identifier := stream.streamIdentifier
  match Q.streamRecv g.connection identifier capacity with
  | (.ok (n, fin), connection) =>
      (.ready (.ok n), { stream with readEof := stream.readEof || fin },
        { g with connection := connection, readWakers := g.readWakers.erase identifier })
  | (.error (.other message), connection) =>
      (.ready (.error (.stream message)), stream,
        { g with connection := connection, readWakers := g.readWakers.erase identifier })
  | (.error _, connection) => (.pending, stream, { g with connection := connection })

/-- `poll_read`: the FIN is remembered whether or not there were bytes before it. -/
def Inner.pollRead (g : Inner Q) (stream : QuicStream) (capacity : Nat) (waker : Waker) :
    Poll × QuicStream × Inner Q :=
  if g.closed then (.ready (.error .closed), stream, g)
  else if stream.readEof then (.ready (.ok 0), stream, g)
  else
    match Q.streamRecv g.connection stream.streamIdentifier capacity with
    | (.ok (n, fin), connection) =>
        (.ready (.ok n), { stream with readEof := fin }, { g with connection := connection })
    | (.error (.other message), connection) =>
        (.ready (.error (.stream message)), stream, { g with connection := connection })
    | (.error _, connection) =>
        Inner.recheck
          { g with
            connection := connection
            readWakers := g.readWakers.insert stream.streamIdentifier waker }
          stream capacity

def Inner.pollWrite (g : Inner Q) (stream : QuicStream) (length : Nat) (waker : Waker) :
    Poll × Inner Q :=
  if g.closed then (.ready (.error .closed), g)
  else
    match Q.streamSend g.connection stream.streamIdentifier length false with
    | (.ok n, connection) => (.ready (.ok n), { g with connection := connection })
    | (.error .invalidStreamState, connection) =>
        (.ready (.error .notOpen), { g with connection := connection })
    | (.error (.other message), connection) =>
        (.ready (.error (.stream message)), { g with connection := connection })
    | (.error .done, connection) =>
        (.pending, { g with
          connection := Q.streamWritable connection stream.streamIdentifier length
          writeWakers := g.writeWakers.insert stream.streamIdentifier waker })

def Inner.finish (g : Inner Q) (stream : QuicStream) : Inner Q :=
  if g.closed then g
  else { g with connection := (Q.streamSend g.connection stream.streamIdentifier 0 true).2 }

/-- `cancel_write`; the waker it finds is woken. -/
def Inner.cancelWrite (g : Inner Q) (stream : QuicStream) : Inner Q :=
  if g.closed then g
  else
    { g with
      connection := Q.shutdownWrite g.connection stream.streamIdentifier
      writeWakers := g.writeWakers.erase stream.streamIdentifier }

def Inner.stopRead (g : Inner Q) (stream : QuicStream) : Inner Q :=
  if g.closed then g
  else { g with connection := Q.shutdownRead g.connection stream.streamIdentifier }

/-! ## Accepting and waiting for the handshake -/

/-- The two calls that wait on the sequence watch. -/
inductive Call where
  | waitEstablished
  | acceptStream
  deriving DecidableEq, Repr

inductive Outcome where
  | established
  | failed (message : String)
  | stream (identifier : StreamId)
  -- `Ok(None)`
  | closed
  deriving DecidableEq, Repr

/-- One turn of the loop of a call; `none` leaves it at `rx.changed().await`. -/
def Inner.check (g : Inner Q) : Call → Option Outcome × Inner Q
  | .waitEstablished =>
      if g.closed then
        (some (.failed ("connection closed during handshake: " ++ g.closeReason.getD "closed")), g)
      else if g.established then (some .established, g)
      else (none, g)
  | .acceptStream =>
      if g.closed then (some .closed, g)
      else
        match (Q.readable g.connection).find? (fun i => !g.accepted.contains i) with
        | some identifier =>
            (some (.stream identifier), { g with accepted := identifier :: g.accepted })
        | none => (none, g)

/-- A call that has subscribed to the watch: the version it has seen, and if it waits for another. -/
structure Waiter where
  call : Call
  seen : Nat
  awaiting : Bool
  deriving DecidableEq, Repr

/-! ## The driver -/

inductive Phase where
  -- at the head of the loop
  | top
  | flushing
  -- in `socket.send_to`
  | sending
  | selecting
  -- in the loop over `try_recv_from`
  | receiving
  -- before the critical section that collects the wakers
  | collecting
  -- behind it, with the wakers that are left to wake
  | waking (wakers : List Waker) (closed : Bool)
  | ended
  deriving DecidableEq, Repr

structure State (Q : Crate) where
  inner : Inner Q
  phase : Phase
  -- of the sequence watch
  version : Nat
  waiters : List Waiter
  streams : List QuicStream

inductive Label where
  -- the driver: the keepalive, if it is due
  | keepalive (due : Bool) (now : Nat)
  | flush (now : Nat)
  | sent (ok : Bool)
  -- the branches of the `select!`; `notified` and `kick` do nothing
  | resumed
  | readable (ok : Bool)
  | timeout (now : Nat)
  -- a packet, or `WouldBlock` or another error
  | tryRecv (packet : Option (List UInt8)) (now : Nat)
  | collect
  | wake
  | settle
  -- the other tasks
  | newStream (identifier : StreamId)
  | clone (index : Nat)
  | pollRead (index capacity : Nat) (waker : Waker)
  | pollWrite (index length : Nat) (waker : Waker)
  | finish (index : Nat)
  | cancelWrite (index : Nat)
  | stopRead (index : Nat)
  | release (identifier : StreamId)
  | subscribe (call : Call)
  | check (index : Nat)
  | changed (index : Nat)
  | close (now : Nat)
  deriving DecidableEq, Repr

/-- `remove` for each of the identifiers, with the wakers that were found. -/
def takeWakers : List StreamId → Wakers → List Waker × Wakers
  | [], wakers => ([], wakers)
  | identifier :: rest, wakers =>
      match wakers.lookup identifier with
      | some waker =>
          let (taken, left) := takeWakers rest (wakers.erase identifier)
          (waker :: taken, left)
      | none => takeWakers rest wakers

/-- `format!("{e:?}")` of the peer's error, or a text of its own. -/
def closeReason (connection : Q.Connection) : String :=
  (Q.peerError connection).getD
    (if Q.isTimedOut connection then "idle timeout" else "connection closed")

/-- The critical section that collects the wakers: those of readable streams, and every writer's. -/
def Inner.collect (g : Inner Q) : List Waker × Bool × Inner Q :=
  let (wakeRead, readLeft) := takeWakers (Q.readable g.connection) g.readWakers
  let (wakeWrite, writeLeft) := takeWakers (Q.writable g.connection) g.writeWakers
  let closed := Q.isClosed g.connection
  let g :=
    { g with
      established := g.established || Q.isEstablished g.connection
      readWakers := readLeft
      writeWakers := ∅ }
  (wakeRead ++ (wakeWrite ++ values writeLeft), closed,
    if closed then
      { g with
        closed := true
        timedOut := Q.isTimedOut g.connection
        closeReason := some (Driver.closeReason g.connection) }
    else g)

/-- Whoever is registered is woken. -/
def Inner.clear (g : Inner Q) : Inner Q := { g with readWakers := ∅, writeWakers := ∅ }

namespace State

/-- `sequence_tx.send`, which fails if nobody has subscribed. -/
def bump (s : State Q) : State Q :=
  { s with version := if s.waiters.isEmpty then s.version else s.version + 1 }

/-- `QuicConnection::close`. -/
def close (now : Nat) (s : State Q) : State Q :=
  bump { s with inner := Inner.clear
                  { s.inner with connection := Q.close now s.inner.connection, closed := true } }

def init (connection : Q.Connection) : State Q where
  inner :=
    { connection := connection
      readWakers := ∅
      writeWakers := ∅
      accepted := [0]
      established := false
      closed := false
      timedOut := false
      closeReason := none }
  phase := .top
  version := 0
  waiters := []
  streams := []

/-- A step of the driver on the connection alone. -/
def move (s : State Q) (phase : Phase) (connection : Q.Connection) : State Q :=
  { s with inner := { s.inner with connection := connection }, phase := phase }

def afterRead (s : State Q) (index : Nat) : Poll × QuicStream × Inner Q → Poll × State Q
  | (poll, stream, inner) =>
      (poll, { s with inner := inner, streams := s.streams.set index stream })

def pollRead (s : State Q) (index capacity : Nat) (waker : Waker) : Option (Poll × State Q) :=
  s.streams[index]?.map fun stream => s.afterRead index (s.inner.pollRead stream capacity waker)

/-- A call returns, or awaits a change. -/
def afterCheck (s : State Q) (index : Nat) (waiter : Waiter) : Option Outcome × Inner Q → State Q
  | (some _, inner) => { s with inner := inner, waiters := s.waiters.eraseIdx index }
  | (none, inner) =>
      { s with inner := inner, waiters := s.waiters.set index { waiter with awaiting := true } }

def check (s : State Q) (index : Nat) : Option (State Q) :=
  s.waiters[index]?.bind fun waiter =>
    if waiter.awaiting then none
    else some (s.afterCheck index waiter (s.inner.check waiter.call))

def changed (s : State Q) (index : Nat) : Option (State Q) :=
  s.waiters[index]?.bind fun waiter =>
    if waiter.awaiting ∧ waiter.seen ≠ s.version then
      some { s with waiters := s.waiters.set index { waiter with seen := s.version, awaiting := false } }
    else none

end State

/-- The steps of `drive`. -/
def driveStep (s : State Q) : Phase → Label → Option (State Q)
  | .top, .keepalive due now =>
      some (s.move .flushing
        (if due && Q.isEstablished s.inner.connection then
          Q.sendAckEliciting now s.inner.connection
        else s.inner.connection))
  | .flushing, .flush now =>
      let (datagram, connection) := Q.send now s.inner.connection
      some (s.move (if datagram then .sending else .selecting) connection)
  | .sending, .sent ok => some { s with phase := if ok then .flushing else .selecting }
  | .selecting, .resumed => some { s with phase := .collecting }
  | .selecting, .readable ok => some { s with phase := if ok then .receiving else .ended }
  | .selecting, .timeout now => some (s.move .collecting (Q.onTimeout now s.inner.connection))
  | .receiving, .tryRecv (some packet) now =>
      some (s.move .receiving (Q.recv now packet s.inner.connection))
  | .receiving, .tryRecv none _ => some { s with phase := .collecting }
  | .collecting, .collect =>
      let (wakers, closed, inner) := s.inner.collect
      some { s with inner := inner, phase := .waking wakers closed }
  | .waking (_ :: wakers) closed, .wake => some { s with phase := .waking wakers closed }
  -- the second critical section, and the bump that is made inside it
  | .waking [] true, .settle =>
      some (State.bump { s with inner := s.inner.clear, phase := .ended })
  | .waking [] false, .settle => some (State.bump { s with phase := .top })
  | _, _ => none

def step (s : State Q) : Label → Option (State Q)
  | .newStream identifier => some { s with streams := s.streams ++ [⟨identifier, false⟩] }
  | .clone index =>
      s.streams[index]?.map fun stream => { s with streams := s.streams ++ [stream] }
  | .pollRead index capacity waker => (s.pollRead index capacity waker).map Prod.snd
  | .pollWrite index length waker =>
      s.streams[index]?.map fun stream =>
        { s with inner := (s.inner.pollWrite stream length waker).2 }
  | .finish index => s.streams[index]?.map fun stream => { s with inner := s.inner.finish stream }
  | .cancelWrite index =>
      s.streams[index]?.map fun stream => { s with inner := s.inner.cancelWrite stream }
  | .stopRead index =>
      s.streams[index]?.map fun stream => { s with inner := s.inner.stopRead stream }
  | .release identifier =>
      some { s with inner := { s.inner with accepted := s.inner.accepted.filter (· != identifier) } }
  | .subscribe call => some { s with waiters := s.waiters ++ [⟨call, s.version, false⟩] }
  | .check index => s.check index
  | .changed index => s.changed index
  | .close now => some (s.close now)
  | label => driveStep s s.phase label

/-! ## What a step can do -/

/-- The driver is in its loop, with no wakers to wake. -/
def Phase.isLooping : Phase → Bool
  | .waking .. | .ended => false
  | _ => true

/-- The step does not collect or wake, and does not end `drive`. -/
def Label.isMove : Label → Bool
  | .keepalive .. | .flush _ | .sent _ | .resumed | .readable true | .timeout _ | .tryRecv .. => true
  | _ => false

/-- What the driver does to the connection. -/
inductive Moves (connection : Q.Connection) : Q.Connection → Prop
  | stays : Moves connection connection
  | sendAckEliciting (now : Nat) : Moves connection (Q.sendAckEliciting now connection)
  | send (now : Nat) : Moves connection (Q.send now connection).2
  | recv (now : Nat) (packet : List UInt8) : Moves connection (Q.recv now packet connection)
  | onTimeout (now : Nat) : Moves connection (Q.onTimeout now connection)

/-- The steps of `drive`. -/
inductive Drives (s : State Q) : Label → State Q → Prop
  | move {l : Label} {phase : Phase} {connection : Q.Connection} (h : s.phase.isLooping = true)
      (hphase : phase.isLooping = true) (hl : l.isMove = true)
      (hmoves : Moves s.inner.connection connection) : Drives s l (s.move phase connection)
  | failed (h : s.phase = .selecting) : Drives s (.readable false) { s with phase := .ended }
  | collect (h : s.phase = .collecting) :
      Drives s .collect { s with
        inner := s.inner.collect.2.2
        phase := .waking s.inner.collect.1 (Q.isClosed s.inner.connection) }
  | wake {waker : Waker} {wakers : List Waker} {closed : Bool}
      (h : s.phase = .waking (waker :: wakers) closed) :
      Drives s .wake { s with phase := .waking wakers closed }
  | again (h : s.phase = .waking [] false) : Drives s .settle (State.bump { s with phase := .top })
  | finish (h : s.phase = .waking [] true) :
      Drives s .settle (State.bump { s with inner := s.inner.clear, phase := .ended })

theorem drives_of_driveStep {s t : State Q} {l : Label} (h : driveStep s s.phase l = some t) :
    Drives s l t := by
  have hmove : ∀ {phase : Phase} {connection : Q.Connection}, s.phase.isLooping = true →
      phase.isLooping = true → l.isMove = true → Moves s.inner.connection connection →
      some (s.move phase connection) = some t → Drives s l t := by
    rintro phase connection hs hphase hl hmoves ⟨⟩
    exact .move hs hphase hl hmoves
  unfold driveStep at h
  split at h
  · next hp =>
      refine hmove (by rw [hp]; rfl) rfl rfl ?_ h
      split
      · exact .sendAckEliciting _
      · exact .stays
  · next hp => exact hmove (by rw [hp]; rfl) (by split <;> rfl) rfl (.send _) h
  · next hp => exact hmove (by rw [hp]; rfl) (by split <;> rfl) rfl .stays h
  · next hp => exact hmove (by rw [hp]; rfl) rfl rfl .stays h
  · next ok hp =>
      cases ok with
      | true => exact hmove (by rw [hp]; rfl) rfl rfl .stays h
      | false =>
          cases h
          exact .failed hp
  · next hp => exact hmove (by rw [hp]; rfl) rfl rfl (.onTimeout _) h
  · next hp => exact hmove (by rw [hp]; rfl) rfl rfl (.recv _ _) h
  · next hp => exact hmove (by rw [hp]; rfl) rfl rfl .stays h
  · next hp =>
      cases h
      exact .collect hp
  · next hp =>
      cases h
      exact .wake hp
  · next hp =>
      cases h
      exact .finish hp
  · next hp =>
      cases h
      exact .again hp
  · cases h

/-! ### The other tasks -/

section Frame

variable (g : Inner Q) (stream : QuicStream)

theorem recheck_frame (capacity : Nat) :
    (g.recheck stream capacity).2.2.closed = g.closed ∧
      (g.recheck stream capacity).2.2.closeReason = g.closeReason := by
  unfold Inner.recheck
  dsimp only
  split <;> exact ⟨rfl, rfl⟩

theorem pollRead_frame (capacity : Nat) (waker : Waker) :
    (g.pollRead stream capacity waker).2.2.closed = g.closed ∧
      (g.pollRead stream capacity waker).2.2.closeReason = g.closeReason := by
  unfold Inner.pollRead
  split
  · exact ⟨rfl, rfl⟩
  · split
    · exact ⟨rfl, rfl⟩
    · split
      · exact ⟨rfl, rfl⟩
      · exact ⟨rfl, rfl⟩
      · exact recheck_frame ..

theorem pollWrite_frame (length : Nat) (waker : Waker) :
    (g.pollWrite stream length waker).2.closed = g.closed ∧
      (g.pollWrite stream length waker).2.closeReason = g.closeReason := by
  unfold Inner.pollWrite
  split
  · exact ⟨rfl, rfl⟩
  · split <;> exact ⟨rfl, rfl⟩

/-- A turn of a call changes nothing but the set of accepted streams. -/
theorem check_frame (call : Call) :
    ∃ accepted, (g.check call).2 = { g with accepted := accepted } := by
  cases call with
  | waitEstablished =>
      unfold Inner.check
      dsimp only
      split
      · exact ⟨_, rfl⟩
      · split <;> exact ⟨_, rfl⟩
  | acceptStream =>
      unfold Inner.check
      dsimp only
      split
      · exact ⟨_, rfl⟩
      · split <;> exact ⟨_, rfl⟩

variable {g}

/-! On a closed connection everything returns and nothing is done. -/

theorem pollRead_of_closed (h : g.closed = true) (capacity : Nat) (waker : Waker) :
    g.pollRead stream capacity waker = (.ready (.error .closed), stream, g) := if_pos h

theorem pollWrite_of_closed (h : g.closed = true) (length : Nat) (waker : Waker) :
    g.pollWrite stream length waker = (.ready (.error .closed), g) := if_pos h

theorem check_of_closed (h : g.closed = true) (call : Call) :
    ∃ outcome, g.check call = (some outcome, g) := by
  cases call with
  | waitEstablished => exact ⟨_, if_pos h⟩
  | acceptStream => exact ⟨_, if_pos h⟩

end Frame

/-- The connection as `drive` has to leave it: closed with a reason, nobody registered any more, and
whoever awaits a change of the watch has one to see. -/
structure Left (s : State Q) : Prop where
  closed : s.inner.closed = true
  reason : s.inner.closeReason.isSome = true
  readWakers : s.inner.readWakers = ∅
  writeWakers : s.inner.writeWakers = ∅
  bumped : ∀ waiter ∈ s.waiters, waiter.awaiting = true → waiter.seen ≠ s.version

/-- Nobody has seen a version that is still to come. -/
def SeenBelow (s : State Q) : Prop := ∀ waiter ∈ s.waiters, waiter.seen ≤ s.version

/-- What the steps of the other tasks keep of what `drive` does. -/
structure Keeps (s t : State Q) : Prop where
  phase : t.phase = s.phase
  reason : t.inner.closeReason = s.inner.closeReason
  closed : s.inner.closed = true → t.inner.closed = true
  seenBelow : SeenBelow s → SeenBelow t
  left : SeenBelow s → Left s → Left t

theorem version_le_bump (s : State Q) : s.version ≤ s.bump.version := by
  unfold State.bump
  dsimp only
  split <;> omega

theorem seenBelow_bump {s : State Q} (h : SeenBelow s) : SeenBelow s.bump :=
  fun waiter hwaiter => Nat.le_trans (h waiter hwaiter) (version_le_bump s)

/-- A bump is news to everybody. -/
theorem bumped_bump {s : State Q} (h : SeenBelow s) :
    ∀ waiter ∈ s.bump.waiters, waiter.seen ≠ s.bump.version := by
  intro waiter hwaiter
  have hle : waiter.seen ≤ s.version := h waiter hwaiter
  have hsome : s.waiters.isEmpty = false := by
    cases hws : s.waiters with
    | nil =>
        have hmem : waiter ∈ s.waiters := hwaiter
        rw [hws] at hmem
        exact absurd hmem List.not_mem_nil
    | cons => rfl
  show waiter.seen ≠ if s.waiters.isEmpty then s.version else s.version + 1
  rw [hsome, if_neg Bool.false_ne_true]
  omega

section Keeps

variable {s t : State Q}

/-- A step on the streams. -/
theorem keeps_inner {inner : Inner Q} (streams : List QuicStream)
    (hclosed : inner.closed = s.inner.closed) (hreason : inner.closeReason = s.inner.closeReason)
    (hsame : s.inner.closed = true → inner.readWakers = s.inner.readWakers ∧
      inner.writeWakers = s.inner.writeWakers) :
    Keeps s { s with inner := inner, streams := streams } where
  phase := rfl
  reason := hreason
  closed h := hclosed.trans h
  seenBelow h := h
  left _ h := by
    obtain ⟨hread, hwrite⟩ := hsame h.closed
    refine ⟨hclosed.trans h.closed, ?_, hread.trans h.readWakers, hwrite.trans h.writeWakers,
      h.bumped⟩
    show inner.closeReason.isSome = true
    rw [hreason]
    exact h.reason

theorem keeps_check {index : Nat} (h : s.check index = some t) : Keeps s t := by
  obtain ⟨waiter, hwaiter, h⟩ := Option.bind_eq_some_iff.mp h
  obtain ⟨_, h⟩ := Option.ite_none_left_eq_some.mp h
  obtain rfl := Option.some.inj h
  obtain ⟨accepted, hframe⟩ := check_frame s.inner waiter.call
  have hclosed := congrArg Inner.closed hframe
  have hreason := congrArg Inner.closeReason hframe
  have hreturned := fun hclosed => check_of_closed (g := s.inner) hclosed waiter.call
  have hmem : ∀ other ∈ s.waiters.eraseIdx index, other ∈ s.waiters :=
    fun other hother => List.mem_of_mem_eraseIdx hother
  clear hframe
  generalize s.inner.check waiter.call = checked at hclosed hreason hreturned ⊢
  obtain ⟨_ | outcome, inner⟩ := checked
  · refine ⟨rfl, hreason, hclosed.trans, fun hseen other hother => ?_, fun _ hleft => ?_⟩
    · rcases List.mem_or_eq_of_mem_set hother with hold | rfl
      · exact hseen other hold
      · exact hseen waiter (List.mem_of_getElem? hwaiter)
    · -- on a closed connection it returns
      obtain ⟨_, hsome⟩ := hreturned hleft.closed
      cases hsome
  · refine ⟨rfl, hreason, hclosed.trans, fun hseen other hother => ?_, fun _ hleft => ?_⟩
    · exact hseen other (hmem other hother)
    · obtain ⟨_, hsome⟩ := hreturned hleft.closed
      cases hsome
      refine ⟨hleft.closed, hleft.reason, hleft.readWakers, hleft.writeWakers, ?_⟩
      intro other hother
      exact hleft.bumped other (hmem other hother)

theorem keeps_changed {index : Nat} (h : s.changed index = some t) : Keeps s t := by
  obtain ⟨waiter, hwaiter, h⟩ := Option.bind_eq_some_iff.mp h
  obtain ⟨_, ⟨⟩⟩ := Option.ite_none_right_eq_some.mp h
  refine ⟨rfl, rfl, id, fun hseen other hother => ?_, fun _ hleft => ?_⟩
  · rcases List.mem_or_eq_of_mem_set hother with hold | rfl
    · exact hseen other hold
    · exact Nat.le_refl _
  · refine ⟨hleft.closed, hleft.reason, hleft.readWakers, hleft.writeWakers, ?_⟩
    intro other hother hawaiting
    rcases List.mem_or_eq_of_mem_set hother with hold | rfl
    · exact hleft.bumped other hold hawaiting
    · cases hawaiting

theorem keeps_close (now : Nat) : Keeps s (s.close now) where
  phase := rfl
  reason := rfl
  closed _ := rfl
  seenBelow := seenBelow_bump
  left hseen hleft := by
    refine ⟨rfl, hleft.reason, rfl, rfl, fun waiter hwaiter _ => ?_⟩
    exact bumped_bump (s := { s with inner := _ }) hseen waiter hwaiter

theorem keeps_subscribe (call : Call) :
    Keeps s { s with waiters := s.waiters ++ [⟨call, s.version, false⟩] } where
  phase := rfl
  reason := rfl
  closed := id
  seenBelow hseen waiter hwaiter := by
    rcases List.mem_append.mp hwaiter with hold | hnew
    · exact hseen waiter hold
    · obtain rfl := List.mem_singleton.mp hnew
      exact Nat.le_refl _
  left _ hleft := by
    refine ⟨hleft.closed, hleft.reason, hleft.readWakers, hleft.writeWakers, ?_⟩
    intro waiter hwaiter hawaiting
    rcases List.mem_append.mp hwaiter with hold | hnew
    · exact hleft.bumped waiter hold hawaiting
    · obtain rfl := List.mem_singleton.mp hnew
      cases hawaiting

/-- A step is one of `drive`, or keeps what `drive` does. -/
theorem drives_or_keeps {l : Label} (h : step s l = some t) :
    Drives s l t ∨ (l ≠ .readable false ∧ Keeps s t) := by
  cases l with
  | keepalive | flush | sent | resumed | readable | timeout | tryRecv | collect | wake | settle =>
      exact .inl (drives_of_driveStep h)
  | newStream identifier =>
      cases h
      exact .inr ⟨nofun, keeps_inner _ rfl rfl fun _ => ⟨rfl, rfl⟩⟩
  | clone index =>
      obtain ⟨stream, _, rfl⟩ := Option.map_eq_some_iff.mp h
      exact .inr ⟨nofun, keeps_inner _ rfl rfl fun _ => ⟨rfl, rfl⟩⟩
  | pollRead index capacity waker =>
      obtain ⟨_, hpoll, rfl⟩ := Option.map_eq_some_iff.mp h
      obtain ⟨stream, _, rfl⟩ := Option.map_eq_some_iff.mp hpoll
      obtain ⟨hclosed, hreason⟩ := pollRead_frame s.inner stream capacity waker
      have hsame := fun hclosed => pollRead_of_closed (g := s.inner) stream hclosed capacity waker
      generalize s.inner.pollRead stream capacity waker = read at hclosed hreason hsame ⊢
      obtain ⟨poll, stream', inner⟩ := read
      refine .inr ⟨nofun, keeps_inner _ hclosed hreason fun hclosed => ?_⟩
      cases hsame hclosed
      exact ⟨rfl, rfl⟩
  | pollWrite index length waker =>
      obtain ⟨stream, _, rfl⟩ := Option.map_eq_some_iff.mp h
      obtain ⟨hclosed, hreason⟩ := pollWrite_frame s.inner stream length waker
      refine .inr ⟨nofun, keeps_inner _ hclosed hreason fun h => ?_⟩
      rw [pollWrite_of_closed stream h]
      exact ⟨rfl, rfl⟩
  | finish index =>
      obtain ⟨stream, _, rfl⟩ := Option.map_eq_some_iff.mp h
      refine .inr ⟨nofun, ?_⟩
      unfold Inner.finish
      split
      · exact keeps_inner _ rfl rfl fun _ => ⟨rfl, rfl⟩
      · exact keeps_inner _ rfl rfl fun _ => ⟨rfl, rfl⟩
  | cancelWrite index =>
      obtain ⟨stream, _, rfl⟩ := Option.map_eq_some_iff.mp h
      refine .inr ⟨nofun, ?_⟩
      unfold Inner.cancelWrite
      split
      · exact keeps_inner _ rfl rfl fun _ => ⟨rfl, rfl⟩
      · next hopen => exact keeps_inner _ rfl rfl fun h => absurd h hopen
  | stopRead index =>
      obtain ⟨stream, _, rfl⟩ := Option.map_eq_some_iff.mp h
      refine .inr ⟨nofun, ?_⟩
      unfold Inner.stopRead
      split
      · exact keeps_inner _ rfl rfl fun _ => ⟨rfl, rfl⟩
      · exact keeps_inner _ rfl rfl fun _ => ⟨rfl, rfl⟩
  | release identifier =>
      cases h
      exact .inr ⟨nofun, keeps_inner _ rfl rfl fun _ => ⟨rfl, rfl⟩⟩
  | subscribe call =>
      cases h
      exact .inr ⟨nofun, keeps_subscribe call⟩
  | check index => exact .inr ⟨nofun, keeps_check h⟩
  | changed index => exact .inr ⟨nofun, keeps_changed h⟩
  | close now =>
      cases h
      exact .inr ⟨nofun, keeps_close now⟩

end Keeps

/-! ## Who is owed a wake-up -/

theorem mem_takeWakers {identifiers : List StreamId} {wakers : Wakers} {identifier : StreamId}
    {waker : Waker} (hmem : identifier ∈ identifiers)
    (hlookup : wakers.lookup identifier = some waker) :
    waker ∈ (takeWakers identifiers wakers).1 := by
  induction identifiers generalizing wakers with
  | nil => exact absurd hmem List.not_mem_nil
  | cons first rest ih =>
      unfold takeWakers
      by_cases hfirst : identifier = first
      · subst hfirst
        rw [hlookup]
        exact List.mem_cons_self
      · have hrest : identifier ∈ rest := (List.mem_cons.mp hmem).resolve_left hfirst
        split
        · exact List.mem_cons_of_mem _ (ih hrest ((AList.lookup_erase_ne hfirst).trans hlookup))
        · exact ih hrest hlookup

theorem lookup_takeWakers {identifiers : List StreamId} {wakers : Wakers} {identifier : StreamId}
    (hmem : identifier ∉ identifiers) :
    (takeWakers identifiers wakers).2.lookup identifier = wakers.lookup identifier := by
  induction identifiers generalizing wakers with
  | nil => rfl
  | cons first rest ih =>
      have hfirst : identifier ≠ first := List.ne_of_not_mem_cons hmem
      have hrest : identifier ∉ rest := List.not_mem_of_not_mem_cons hmem
      unfold takeWakers
      split
      · exact (ih hrest).trans (AList.lookup_erase_ne hfirst)
      · exact ih hrest

theorem collect_frame (g : Inner Q) :
    g.collect.2.2.connection = g.connection ∧
      g.collect.2.2.readWakers = (takeWakers (Q.readable g.connection) g.readWakers).2 := by
  unfold Inner.collect
  dsimp only
  split <;> exact ⟨rfl, rfl⟩

theorem mem_collect {g : Inner Q} {waker : Waker}
    (h : waker ∈ (takeWakers (Q.readable g.connection) g.readWakers).1) : waker ∈ g.collect.1 :=
  List.mem_append_left _ h

theorem mem_collect_writer {g : Inner Q} {identifier : StreamId} {waker : Waker}
    (h : g.writeWakers.lookup identifier = some waker) : waker ∈ g.collect.1 := by
  apply List.mem_append_right
  by_cases hmem : identifier ∈ Q.writable g.connection
  · exact List.mem_append_left _ (mem_takeWakers hmem h)
  · apply List.mem_append_right
    rw [mem_values]
    exact ⟨identifier, (lookup_takeWakers hmem).trans h⟩

/-- The wakers that are no longer registered where they were. -/
def lost (before after : Wakers) : List Waker :=
  (before.entries.filter fun entry => after.lookup entry.1 ≠ some entry.2).map Sigma.snd

theorem mem_lost {before after : Wakers} {waker : Waker} :
    waker ∈ lost before after ↔
      ∃ identifier, before.lookup identifier = some waker ∧
        after.lookup identifier ≠ some waker := by
  constructor
  · intro h
    obtain ⟨⟨identifier, _⟩, hentry, rfl⟩ := List.mem_map.mp h
    obtain ⟨hmem, hafter⟩ := List.mem_filter.mp hentry
    exact ⟨identifier, AList.mem_lookup_iff.mpr hmem, of_decide_eq_true hafter⟩
  · rintro ⟨identifier, hbefore, hafter⟩
    refine List.mem_map.mpr ⟨⟨identifier, waker⟩, List.mem_filter.mpr ⟨?_, ?_⟩, rfl⟩
    · exact AList.mem_lookup_iff.mp hbefore
    · exact decide_eq_true hafter

theorem not_mem_lost_self (wakers : Wakers) (waker : Waker) : waker ∉ lost wakers wakers := by
  intro h
  obtain ⟨_, hbefore, hafter⟩ := mem_lost.mp h
  exact hafter hbefore

theorem not_lost_same (readers writers : Wakers) (waker : Waker) :
    ¬ (waker ∈ lost readers readers ∨ waker ∈ lost writers writers) := by
  rintro (hread | hwrite)
  · exact not_mem_lost_self readers waker hread
  · exact not_mem_lost_self writers waker hwrite

theorem mem_values_of_lost {before after : Wakers} {waker : Waker}
    (h : waker ∈ lost before after) : waker ∈ values before := by
  obtain ⟨identifier, hbefore, _⟩ := mem_lost.mp h
  exact mem_values.mpr ⟨identifier, hbefore⟩

def Label.isPoll : Label → Bool
  | .pollRead .. | .pollWrite .. => true
  | _ => false

/-- Whom a step takes out of the maps. A poll puts a waker in the place of another, or takes its own
back. -/
def State.takes (s : State Q) (l : Label) : List Waker :=
  match step s l with
  | some t =>
      if l.isPoll then []
      else
        lost s.inner.readWakers t.inner.readWakers ++ lost s.inner.writeWakers t.inner.writeWakers
  | none => []

/-- Whom a step wakes. -/
def State.wakes (s : State Q) : Label → List Waker
  | .wake =>
      match s.phase with
      | .waking (waker :: _) _ => [waker]
      | _ => []
  | .settle =>
      match s.phase with
      | .waking [] true => values s.inner.readWakers ++ values s.inner.writeWakers
      | _ => []
  | .cancelWrite index =>
      match s.streams[index]? with
      | some stream =>
          if s.inner.closed then []
          else (s.inner.writeWakers.lookup stream.streamIdentifier).toList
      | none => []
  | .close _ => values s.inner.readWakers ++ values s.inner.writeWakers
  | _ => []

/-- Those that were taken out and have not been woken since, after a step. -/
def recordOwed (s : State Q) (l : Label) (owed : List Waker) : List Waker :=
  (owed ++ s.takes l).filter (· ∉ s.wakes l)

/-- The connection with those it owes a wake-up. -/
def indebted : State Q × List Waker → Label → Option (State Q × List Waker) :=
  withHistory step recordOwed

/-- Whoever is owed a wake-up is among those the pass has yet to wake. -/
def Collected (w : State Q × List Waker) : Prop :=
  ∀ waker ∈ w.2, ∃ wakers closed, w.1.phase = .waking wakers closed ∧ waker ∈ wakers

section Collected

variable {s t : State Q} {l : Label} {owed : List Waker} {waker : Waker}

theorem mem_recordOwed (hstep : step s l = some t) :
    waker ∈ recordOwed s l owed ↔
      (waker ∈ owed ∨ l.isPoll = false ∧
        (waker ∈ lost s.inner.readWakers t.inner.readWakers ∨
          waker ∈ lost s.inner.writeWakers t.inner.writeWakers)) ∧ waker ∉ s.wakes l := by
  unfold recordOwed State.takes
  rw [hstep]
  cases l.isPoll <;> simp [or_and_right]

/-- Outside of a pass nobody is owed anything. -/
theorem Collected.eq_nil (h : Collected (s, owed))
    (hphase : ∀ wakers closed, s.phase = .waking wakers closed → wakers = []) : owed = [] := by
  rw [List.eq_nil_iff_forall_not_mem]
  intro waker hmem
  obtain ⟨wakers, closed, hp, hwaker⟩ := h waker hmem
  rw [hphase wakers closed hp] at hwaker
  exact absurd hwaker List.not_mem_nil

/-- A step that takes nobody out whom it does not wake. -/
theorem Collected.frame (h : Collected (s, owed)) (hstep : step s l = some t)
    (hphase : t.phase = s.phase)
    (htaken : ∀ waker, waker ∈ lost s.inner.readWakers t.inner.readWakers ∨
      waker ∈ lost s.inner.writeWakers t.inner.writeWakers → l.isPoll = true ∨ waker ∈ s.wakes l) :
    Collected (t, recordOwed s l owed) := by
  intro waker hmem
  obtain ⟨howed | ⟨hpoll, hlost⟩, hnot⟩ := (mem_recordOwed hstep).mp hmem
  · rw [hphase]
    exact h waker howed
  · rcases htaken waker hlost with hyes | hwoken
    · cases hpoll.symm.trans hyes
    · exact absurd hwoken hnot

/-- A step that leaves both maps as they are. -/
theorem Collected.same (h : Collected (s, owed)) (hstep : step s l = some t)
    (hphase : t.phase = s.phase) (hread : t.inner.readWakers = s.inner.readWakers)
    (hwrite : t.inner.writeWakers = s.inner.writeWakers) : Collected (t, recordOwed s l owed) := by
  refine h.frame hstep hphase fun waker hlost => ?_
  rw [hread, hwrite] at hlost
  exact absurd hlost (not_lost_same _ _ _)

/-- A step of a driver that owes nothing, and leaves both maps as they are. -/
theorem collected_of_nil (h : owed = []) (hstep : step s l = some t)
    (hread : t.inner.readWakers = s.inner.readWakers)
    (hwrite : t.inner.writeWakers = s.inner.writeWakers) : Collected (t, recordOwed s l owed) := by
  intro waker hmem
  obtain ⟨howed | ⟨_, hlost⟩, _⟩ := (mem_recordOwed hstep).mp hmem
  · rw [h] at howed
    exact absurd howed List.not_mem_nil
  · rw [hread, hwrite] at hlost
    exact absurd hlost (not_lost_same _ _ _)

/-- What a pass takes out of the maps it collects. -/
theorem mem_collect_of_lost {g : Inner Q}
    (h : waker ∈ lost g.readWakers g.collect.2.2.readWakers ∨
      waker ∈ lost g.writeWakers g.collect.2.2.writeWakers) : waker ∈ g.collect.1 := by
  rcases h with hread | hwrite
  · obtain ⟨identifier, hbefore, hafter⟩ := mem_lost.mp hread
    rw [(collect_frame g).2] at hafter
    apply mem_collect
    by_cases hmem : identifier ∈ Q.readable g.connection
    · exact mem_takeWakers hmem hbefore
    · rw [lookup_takeWakers hmem] at hafter
      exact absurd hbefore hafter
  · obtain ⟨identifier, hbefore, _⟩ := mem_lost.mp hwrite
    exact mem_collect_writer hbefore

theorem collected_drives (h : Collected (s, owed)) (hstep : step s l = some t)
    (hdrives : Drives s l t) : Collected (t, recordOwed s l owed) := by
  cases hdrives with
  | move hs _ _ _ =>
      refine collected_of_nil (h.eq_nil fun wakers closed hp => ?_) hstep rfl rfl
      rw [hp] at hs
      cases hs
  | failed hp => exact collected_of_nil (h.eq_nil (by rw [hp]; nofun)) hstep rfl rfl
  | collect hp =>
      have hnil : owed = [] := h.eq_nil (by rw [hp]; nofun)
      intro waker hmem
      obtain ⟨howed | ⟨_, hlost⟩, _⟩ := (mem_recordOwed hstep).mp hmem
      · rw [hnil] at howed
        exact absurd howed List.not_mem_nil
      · exact ⟨_, _, rfl, mem_collect_of_lost hlost⟩
  | @wake first wakers closed hp =>
      intro waker hmem
      obtain ⟨howed | ⟨_, hlost⟩, hnot⟩ := (mem_recordOwed hstep).mp hmem
      · obtain ⟨all, closed', hp', hwaker⟩ := h waker howed
        cases hp.symm.trans hp'
        refine ⟨wakers, closed, rfl, (List.mem_cons.mp hwaker).resolve_left ?_⟩
        rintro rfl
        apply hnot
        rw [State.wakes, hp]
        exact List.mem_singleton_self _
      · exact absurd hlost (not_lost_same _ _ _)
  | again hp =>
      refine collected_of_nil (h.eq_nil fun wakers closed hp' => ?_) hstep rfl rfl
      cases hp.symm.trans hp'
      rfl
  | finish hp =>
      have hnil : owed = [] := by
        refine h.eq_nil fun wakers closed hp' => ?_
        cases hp.symm.trans hp'
        rfl
      intro waker hmem
      obtain ⟨howed | ⟨_, hlost⟩, hnot⟩ := (mem_recordOwed hstep).mp hmem
      · rw [hnil] at howed
        exact absurd howed List.not_mem_nil
      · -- whoever is registered is woken before the maps are cleared
        refine absurd ?_ hnot
        rw [State.wakes, hp]
        exact List.mem_append.mpr (hlost.imp mem_values_of_lost mem_values_of_lost)

/-- A `cancel_write` wakes whom it takes out. -/
theorem collected_cancelWrite {index : Nat} (h : Collected (s, owed))
    (hstep : step s (.cancelWrite index) = some t) :
    Collected (t, recordOwed s (.cancelWrite index) owed) := by
  obtain ⟨stream, hstream, rfl⟩ := Option.map_eq_some_iff.mp hstep
  refine h.frame hstep rfl fun waker hlost => .inr ?_
  simp only [State.wakes, hstream]
  dsimp only at hlost
  unfold Inner.cancelWrite at hlost
  split at hlost
  · exact absurd hlost (not_lost_same _ _ _)
  · next hopen =>
    rw [if_neg hopen]
    rcases hlost with hread | hwrite
    · exact absurd hread (not_mem_lost_self _ _)
    · obtain ⟨identifier, hbefore, hafter⟩ := mem_lost.mp hwrite
      have hsame : identifier = stream.streamIdentifier := by
        by_contra hne
        exact hafter ((AList.lookup_erase_ne hne).trans hbefore)
      rw [← hsame, hbefore]
      exact List.mem_singleton_self _

theorem collected_check {index : Nat} (h : Collected (s, owed)) (hstep : s.check index = some t) :
    Collected (t, recordOwed s (.check index) owed) := by
  obtain ⟨waiter, _, hsame⟩ := Option.bind_eq_some_iff.mp hstep
  obtain ⟨_, hsame⟩ := Option.ite_none_left_eq_some.mp hsame
  obtain rfl := Option.some.inj hsame
  obtain ⟨accepted, hframe⟩ := check_frame s.inner waiter.call
  have hread := congrArg Inner.readWakers hframe
  have hwrite := congrArg Inner.writeWakers hframe
  have hphase := (keeps_check hstep).phase
  refine h.same hstep hphase ?_ ?_
  all_goals
    generalize s.inner.check waiter.call = checked at hread hwrite
    obtain ⟨_ | outcome, inner⟩ := checked
  · exact hread
  · exact hread
  · exact hwrite
  · exact hwrite

theorem collected_step (h : Collected (s, owed)) (hstep : step s l = some t) :
    Collected (t, recordOwed s l owed) := by
  cases l with
  | keepalive | flush | sent | resumed | readable | timeout | tryRecv | collect | wake | settle =>
      exact collected_drives h hstep (drives_of_driveStep hstep)
  | newStream | release | subscribe =>
      cases hstep
      exact h.same rfl rfl rfl rfl
  | clone index =>
      obtain ⟨stream, _, rfl⟩ := Option.map_eq_some_iff.mp hstep
      exact h.same hstep rfl rfl rfl
  | pollRead index capacity waker =>
      obtain ⟨read, hpoll, rfl⟩ := Option.map_eq_some_iff.mp hstep
      obtain ⟨stream, _, rfl⟩ := Option.map_eq_some_iff.mp hpoll
      exact h.frame hstep rfl fun _ _ => .inl rfl
  | pollWrite index length waker =>
      obtain ⟨stream, _, rfl⟩ := Option.map_eq_some_iff.mp hstep
      exact h.frame hstep rfl fun _ _ => .inl rfl
  | finish index =>
      obtain ⟨stream, _, rfl⟩ := Option.map_eq_some_iff.mp hstep
      refine h.same hstep rfl ?_ ?_ <;> (unfold Inner.finish; split <;> rfl)
  | cancelWrite index => exact collected_cancelWrite h hstep
  | stopRead index =>
      obtain ⟨stream, _, rfl⟩ := Option.map_eq_some_iff.mp hstep
      refine h.same hstep rfl ?_ ?_ <;> (unfold Inner.stopRead; split <;> rfl)
  | check index => exact collected_check h hstep
  | changed index =>
      obtain ⟨waiter, _, hwaiter⟩ := Option.bind_eq_some_iff.mp hstep
      obtain ⟨_, ⟨⟩⟩ := Option.ite_none_right_eq_some.mp hwaiter
      exact h.same hstep rfl rfl rfl
  | close now =>
      cases hstep
      refine h.frame rfl rfl fun waker hlost => .inr ?_
      exact List.mem_append.mpr (hlost.imp mem_values_of_lost mem_values_of_lost)

end Collected

/-! ## How `drive` ends -/

/-- A reason is given by a pass that finds the connection closed, and only such a pass ends `drive`
after having done what it has to. -/
structure Held (past : List Label) (s : State Q) : Prop where
  seenBelow : SeenBelow s
  reason : s.inner.closeReason.isSome = true →
    s.phase = .ended ∨ ∃ wakers, s.phase = .waking wakers true
  closing : ∀ wakers, s.phase = .waking wakers true →
    s.inner.closed = true ∧ s.inner.closeReason.isSome = true
  running : s.phase ≠ .ended → .readable false ∉ past
  ended : s.phase = .ended → (.readable false ∉ past → Left s) ∧
    (.readable false ∈ past → s.inner.closeReason = none)

section Held

variable {s t : State Q} {l : Label} {past : List Label}

/-- Before a pass finds the connection closed there is no reason. -/
theorem Held.no_reason (h : Held past s) (hended : s.phase ≠ .ended)
    (hwaking : ∀ wakers, s.phase ≠ .waking wakers true) : s.inner.closeReason = none := by
  cases hreason : s.inner.closeReason with
  | none => rfl
  | some reason =>
      rcases h.reason (by rw [hreason]; rfl) with hp | ⟨wakers, hp⟩
      · exact absurd hp hended
      · exact absurd hp (hwaking wakers)

theorem mem_append_singleton_iff (hl : l ≠ .readable false) :
    Label.readable false ∈ past ++ [l] ↔ .readable false ∈ past := by
  rw [List.mem_append, List.mem_singleton]
  exact or_iff_left hl.symm

theorem held_keeps (h : Held past s) (hl : l ≠ .readable false) (hkeeps : Keeps s t) :
    Held (past ++ [l]) t := by
  constructor
  · exact hkeeps.seenBelow h.seenBelow
  · rw [hkeeps.reason, hkeeps.phase]
    exact h.reason
  · intro wakers hp
    rw [hkeeps.phase] at hp
    obtain ⟨hclosed, hreason⟩ := h.closing wakers hp
    exact ⟨hkeeps.closed hclosed, hkeeps.reason ▸ hreason⟩
  · rw [hkeeps.phase, mem_append_singleton_iff hl]
    exact h.running
  · rw [hkeeps.phase, mem_append_singleton_iff hl, hkeeps.reason]
    intro hp
    exact ⟨fun hnot => hkeeps.left h.seenBelow ((h.ended hp).1 hnot), (h.ended hp).2⟩

theorem reason_collect (g : Inner Q) :
    (g.collect.2.2.closeReason = g.closeReason ∨ Q.isClosed g.connection = true) ∧
      (Q.isClosed g.connection = true →
        g.collect.2.2.closed = true ∧ g.collect.2.2.closeReason.isSome = true) := by
  unfold Inner.collect
  dsimp only
  split
  · next hclosed => exact ⟨.inr hclosed, fun _ => ⟨rfl, rfl⟩⟩
  · next hopen => exact ⟨.inl rfl, fun hclosed => absurd hclosed hopen⟩

theorem held_drives (h : Held past s) (hdrives : Drives s l t) : Held (past ++ [l]) t := by
  cases hdrives with
  | @move _ phase connection hs hphase hl _ =>
      have hl : l ≠ .readable false := by
        rintro rfl
        cases hl
      have hended : s.phase ≠ .ended := by
        rintro hp
        rw [hp] at hs
        cases hs
      have hended' : phase ≠ .ended := by
        rintro rfl
        cases hphase
      have hnone : s.inner.closeReason = none := by
        refine h.no_reason hended fun wakers hp => ?_
        rw [hp] at hs
        cases hs
      refine ⟨h.seenBelow, fun hsome => ?_, fun wakers hp => ?_, fun _ => ?_, fun hp => ?_⟩
      · rw [show (s.move phase connection).inner.closeReason = none from hnone] at hsome
        cases hsome
      · cases (show phase = _ from hp)
        cases hphase
      · rw [mem_append_singleton_iff hl]
        exact h.running hended
      · exact absurd hp hended'
  | failed hp =>
      have hnone : s.inner.closeReason = none :=
        h.no_reason (by rw [hp]; nofun) (by rw [hp]; exact fun _ => nofun)
      refine ⟨h.seenBelow, fun _ => .inl rfl, fun _ => nofun, fun hp => absurd rfl hp, fun _ => ?_⟩
      exact ⟨fun hnot => absurd (by simp) hnot, fun _ => hnone⟩
  | collect hp =>
      have hnone : s.inner.closeReason = none :=
        h.no_reason (by rw [hp]; nofun) (by rw [hp]; exact fun _ => nofun)
      obtain ⟨hsame, hclosing⟩ := reason_collect s.inner
      refine ⟨h.seenBelow, fun hsome => .inr ?_, fun wakers hwaking => ?_, fun _ => ?_, nofun⟩
      · rcases hsame with hreason | hclosed
        · rw [show s.inner.collect.2.2.closeReason = none from hreason.trans hnone] at hsome
          cases hsome
        · exact ⟨_, by rw [hclosed]⟩
      · have hclosed : Q.isClosed s.inner.connection = true := (Phase.waking.inj hwaking).2
        exact hclosing hclosed
      · rw [mem_append_singleton_iff (l := .collect) nofun]
        exact h.running (by rw [hp]; nofun)
  | @wake waker wakers closed hp =>
      refine ⟨h.seenBelow, fun hsome => ?_, fun left hwaking => ?_, fun _ => ?_, nofun⟩
      · rcases h.reason hsome with hend | ⟨all, hall⟩
        · rw [hp] at hend
          cases hend
        · cases hp.symm.trans hall
          exact .inr ⟨wakers, rfl⟩
      · cases (Phase.waking.inj hwaking).2
        exact h.closing _ hp
      · rw [mem_append_singleton_iff (l := .wake) nofun]
        exact h.running (by rw [hp]; nofun)
  | again hp =>
      have hnone : s.inner.closeReason = none := by
        refine h.no_reason (by rw [hp]; nofun) fun wakers hwaking => ?_
        cases hp.symm.trans hwaking
      refine ⟨seenBelow_bump (s := { s with phase := .top }) h.seenBelow, fun hsome => ?_,
        fun _ => nofun, fun _ => ?_, nofun⟩
      · rw [show (State.bump { s with phase := .top }).inner.closeReason = none from hnone] at hsome
        cases hsome
      · rw [mem_append_singleton_iff (l := .settle) nofun]
        exact h.running (by rw [hp]; nofun)
  | finish hp =>
      obtain ⟨hclosed, hreason⟩ := h.closing _ hp
      have hnot : Label.readable false ∉ past := h.running (by rw [hp]; nofun)
      refine ⟨seenBelow_bump (s := { s with inner := s.inner.clear, phase := .ended }) h.seenBelow,
        fun _ => .inl rfl, fun _ => nofun, fun hp => absurd rfl hp, fun _ => ⟨fun _ => ?_, ?_⟩⟩
      · refine ⟨hclosed, hreason, rfl, rfl, fun waiter hwaiter _ => ?_⟩
        exact bumped_bump (s := { s with inner := s.inner.clear, phase := .ended }) h.seenBelow waiter
          hwaiter
      · rw [mem_append_singleton_iff (l := .settle) nofun]
        exact fun hmem => absurd hmem hnot

theorem held_step (h : Held past s) (hstep : step s l = some t) : Held (past ++ [l]) t := by
  rcases drives_or_keeps hstep with hdrives | ⟨hl, hkeeps⟩
  · exact held_drives h hdrives
  · exact held_keeps h hl hkeeps

theorem held_init (connection : Q.Connection) : Held [] (State.init connection) where
  seenBelow := nofun
  reason := nofun
  closing := nofun
  running _ := List.not_mem_nil
  ended := nofun

end Held

/-- `drive` has left the connection as it has to: everybody who was registered has been woken, so
that every call that waited for it goes on, and every call from here on returns. -/
structure LeftClosed (w : State Q × List Waker) : Prop extends Left w.1 where
  woken : w.2 = []
  goes_on : ∀ (waiter : Waiter) (index : Nat), w.1.waiters[index]? = some waiter →
    waiter.awaiting = true → ∃ t, step w.1 (.changed index) = some t
  calls : ∀ call, ∃ outcome, (w.1.inner.check call).1 = some outcome
  reads : ∀ stream capacity waker, (w.1.inner.pollRead stream capacity waker).1 ≠ .pending
  writes : ∀ stream length waker, (w.1.inner.pollWrite stream length waker).1 ≠ .pending

theorem Left.leftClosed {s : State Q} (h : Left s) : LeftClosed (s, []) where
  toLeft := h
  woken := rfl
  goes_on waiter index hwaiter hawaiting := by
    have hseen := h.bumped waiter (List.mem_of_getElem? hwaiter) hawaiting
    exact ⟨_, by simp [step, State.changed, hwaiter, hawaiting, hseen]; rfl⟩
  calls call := by
    obtain ⟨outcome, hcheck⟩ := check_of_closed h.closed call
    exact ⟨outcome, congrArg Prod.fst hcheck⟩
  reads stream capacity waker := by
    rw [pollRead_of_closed stream h.closed]
    exact nofun
  writes stream length waker := by
    rw [pollWrite_of_closed stream h.closed]
    exact nofun

/-- **How `drive` ends.** In every run in which `drive` has ended, the connection is left closed, with
everybody woken, if and only if `socket.readable()` has not failed. -/
theorem leftClosed_iff {connection : Q.Connection} {ls : List Label} {w : State Q × List Waker}
    (hrun : run indebted (State.init connection, []) ls = some w) (hended : w.1.phase = .ended) :
    LeftClosed w ↔ .readable false ∉ ls := by
  obtain ⟨hheld, hcollected⟩ : Held ([] ++ ls) w.1 ∧ Collected w := by
    refine run_induction (fun past w => Held past w.1 ∧ Collected w) ?_
      ⟨held_init connection, fun _ hmem => absurd hmem List.not_mem_nil⟩ hrun
    rintro past w l t ⟨hheld, hcollected⟩ hstep
    obtain ⟨ht, howed⟩ := withHistory_eq_some.mp hstep
    refine ⟨held_step hheld ht, ?_⟩
    have hnext := collected_step hcollected ht
    rw [← howed] at hnext
    exact hnext
  rw [List.nil_append] at hheld
  constructor
  · intro h hmem
    have hnone := (hheld.ended hended).2 hmem
    have hsome := h.reason
    rw [hnone] at hsome
    cases hsome
  · intro hnot
    obtain ⟨s, owed⟩ := w
    have hnil : owed = [] := by
      refine hcollected.eq_nil fun wakers closed hp => ?_
      cases hended.symm.trans hp
    rw [hnil]
    exact ((hheld.ended hended).1 hnot).leftClosed

/-! ## A connection on which nothing happens -/

/-- The peer is silent, and the connection is closed once it has timed out. -/
def silent : Crate where
  Connection := Bool
  sendAckEliciting _ timedOut := timedOut
  send _ timedOut := (false, timedOut)
  recv _ _ timedOut := timedOut
  onTimeout _ _ := true
  close _ timedOut := timedOut
  isEstablished _ := true
  isClosed timedOut := timedOut
  isTimedOut timedOut := timedOut
  peerError _ := none
  readable _ := []
  writable _ := []
  streamRecv timedOut _ _ := (.error .done, timedOut)
  streamSend timedOut _ _ _ := (.error .done, timedOut)
  streamWritable timedOut _ _ := timedOut
  shutdownRead timedOut _ := timedOut
  shutdownWrite timedOut _ := timedOut

/-- `drive` waits in its `select!`; a reader has registered, and `accept_stream` awaits a change. -/
def waitingRun : List Label :=
  [.newStream 0, .pollRead 0 1024 7, .subscribe .acceptStream, .check 0, .keepalive true 0, .flush 0]

theorem leftClosed_timeout :
    ∃ w, run indebted (State.init (Q := silent) false, [])
      (waitingRun ++ [.timeout 5, .collect, .settle]) = some w ∧ w.1.phase = .ended ∧
        LeftClosed w := by
  have hlast : (run indebted (State.init (Q := silent) false, [])
      (waitingRun ++ [.timeout 5, .collect, .settle])).map (fun w => w.1.phase) = some .ended := rfl
  obtain ⟨w, hrun, hended⟩ := Option.map_eq_some_iff.mp hlast
  exact ⟨w, hrun, hended, (leftClosed_iff hrun hended).mpr (by decide)⟩

/-- `socket.readable()` fails: the reader is not woken and `accept_stream` has nothing to see. -/
theorem not_leftClosed_readable_failed :
    ∃ w, run indebted (State.init (Q := silent) false, [])
      (waitingRun ++ [.readable false]) = some w ∧ w.1.phase = .ended ∧
        ¬ LeftClosed w ∧ w.1.inner.readWakers.lookup 0 = some 7 ∧
          step w.1 (.changed 0) = none := by
  have hlast : (run indebted (State.init (Q := silent) false, [])
      (waitingRun ++ [.readable false])).map (fun w => (w.1.phase, w.1.inner.closed,
        w.1.inner.readWakers.lookup 0, (step w.1 (.changed 0)).isNone)) =
      some (.ended, false, some 7, true) := rfl
  obtain ⟨w, hrun, hw⟩ := Option.map_eq_some_iff.mp hlast
  simp only [Prod.mk.injEq] at hw
  obtain ⟨hended, hopen, hreader, hchanged⟩ := hw
  refine ⟨w, hrun, hended, fun h => ?_, hreader, Option.isNone_iff_eq_none.mp hchanged⟩
  cases hopen.symm.trans h.closed

end Libcfd.Edge.Quic.Quiche.Driver
