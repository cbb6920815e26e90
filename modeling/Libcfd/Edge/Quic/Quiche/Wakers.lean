import Libcfd.Edge.Quic.Quiche.Driver
import Mathlib.Logic.Function.Basic

/-!
# The quiche backend: whom a pass of the driver wakes

`poll_read` leaves its waker under the stream, one for each stream, and a pass of the driver wakes the
one it finds. With one handle that reads, that is the handle's own. A clone that goes Pending on the
same stream puts its waker in the place of the other's; and since a clone does not know what another
has read, it may wait for a stream the end of which has been read, and which quiche lets go.
-/

namespace Libcfd.Edge.Quic.Quiche.Driver

open Libcfd.Machine

open Function (update)

variable {Q : Crate}

/-! ## Streams that come and go -/

/-- The receive side of a stream, as far as waiting for it goes. -/
inductive Status where
  | unopened
  | opened
  -- the end was read, or reading was stopped
  | ended
  | gone
  deriving DecidableEq, Repr

/-- Something may still arrive. -/
def Status.isReceiving : Status → Bool
  | .unopened | .opened => true
  | .ended | .gone => false

/-- What may become of the status without the stream being read. -/
def Status.Follows : Status → Status → Prop
  | .unopened, status => status = .unopened ∨ status = .opened
  | .opened, status => status = .opened
  | .ended, status => status = .ended ∨ status = .gone
  | .gone, status => status = .gone

theorem Status.Follows.isReceiving {status status' : Status} (h : status.Follows status')
    (hreceiving : status.isReceiving = true) : status'.isReceiving = true := by
  cases status with
  | unopened => rcases h with rfl | rfl <;> rfl
  | opened =>
      obtain rfl : status' = .opened := h
      rfl
  | ended => cases hreceiving
  | gone => cases hreceiving

theorem Status.follows_refl (status : Status) : status.Follows status := by
  cases status with
  | unopened => exact .inl rfl
  | opened => rfl
  | ended => exact .inl rfl
  | gone => rfl

theorem Status.Follows.trans {status status' status'' : Status} (h : status.Follows status')
    (h' : status'.Follows status'') : status.Follows status'' := by
  cases status with
  | unopened =>
      rcases h with rfl | rfl
      · exact h'
      · exact .inr h'
  | opened =>
      obtain rfl : status' = .opened := h
      exact h'
  | ended =>
      rcases h with rfl | rfl
      · exact h'
      · exact .inr h'
  | gone =>
      obtain rfl : status' = .gone := h
      exact h'

/-- What quiche documents: a stream goes only once its end was read or reading it was stopped, and
`stream_recv` that finds nothing changes nothing. -/
structure Streams (Q : Crate) where
  status : Q.Connection → StreamId → Status
  moves : ∀ {c c' : Q.Connection}, Moves c c' → ∀ i, (status c i).Follows (status c' i)
  close : ∀ now c i, (status c i).Follows (status (Q.close now c) i)
  streamSend : ∀ c j length fin i, (status c i).Follows (status (Q.streamSend c j length fin).2 i)
  streamWritable : ∀ c j length i, (status c i).Follows (status (Q.streamWritable c j length) i)
  shutdownWrite : ∀ c j i, (status c i).Follows (status (Q.shutdownWrite c j) i)
  shutdownRead : ∀ c j i, i ≠ j → (status c i).Follows (status (Q.shutdownRead c j) i)
  streamRecv : ∀ c j n i, i ≠ j → (status c i).Follows (status (Q.streamRecv c j n).2 i)
  -- `Done` and `InvalidStreamState`
  idle : ∀ c i n e, (Q.streamRecv c i n).1 = .error e → e = .done ∨ e = .invalidStreamState →
    (Q.streamRecv c i n).2 = c
  gone : ∀ c i n, status c i = .gone → (Q.streamRecv c i n).1 = .error .invalidStreamState

/-- `stream_recv` finds nothing to read. -/
def isIdle (c : Q.Connection) (identifier : StreamId) (capacity : Nat) : Bool :=
  match (Q.streamRecv c identifier capacity).1 with
  | .error .done | .error .invalidStreamState => true
  | _ => false

/-- Both looks at an idle stream find the same. -/
theorem pollRead_idle (S : Streams Q) {g : Inner Q} {stream : QuicStream} {capacity : Nat} {waker : Waker}
    (hopen : g.closed = false) (heof : stream.readEof = false)
    (hidle : isIdle g.connection stream.streamIdentifier capacity = true) :
    g.pollRead stream capacity waker =
      (.pending, stream,
        { g with readWakers := g.readWakers.insert stream.streamIdentifier waker }) := by
  have hsame := S.idle g.connection stream.streamIdentifier capacity
  unfold isIdle at hidle
  unfold Inner.pollRead Inner.recheck
  rw [hopen, heof]
  dsimp only
  generalize hrecv : Q.streamRecv g.connection stream.streamIdentifier capacity = recv at hidle hsame
  obtain ⟨result, connection⟩ := recv
  cases result with
  | ok => cases hidle
  | error e =>
      cases e with
      | other => cases hidle
      | done =>
          cases hsame .done rfl (.inl rfl)
          simp [hrecv]
      | invalidStreamState =>
          cases hsame .invalidStreamState rfl (.inr rfl)
          simp [hrecv]

/-- A poll that finds something, or need not look: the connection is as the one `stream_recv` left it,
or as it was. -/
theorem pollRead_ready {g : Inner Q} {stream : QuicStream} {capacity : Nat}
    (h : g.closed = true ∨ stream.readEof = true ∨
      isIdle g.connection stream.streamIdentifier capacity = false) :
    ∃ result eof connection, (∀ waker, g.pollRead stream capacity waker =
        (.ready result, { stream with readEof := eof }, { g with connection := connection })) ∧
      (connection = g.connection ∨ g.closed = false ∧ stream.readEof = false ∧
        connection = (Q.streamRecv g.connection stream.streamIdentifier capacity).2) := by
  obtain ⟨connection, readWakers, writeWakers, accepted, established, closed, timedOut, reason⟩ := g
  obtain ⟨identifier, readEof⟩ := stream
  cases closed with
  | true => exact ⟨_, readEof, connection, fun _ => rfl, .inl rfl⟩
  | false =>
  cases readEof with
  | true => exact ⟨_, true, connection, fun _ => rfl, .inl rfl⟩
  | false =>
  have hbusy : isIdle connection identifier capacity = false := by
    rcases h with h | h | h
    · cases h
    · cases h
    · exact h
  unfold isIdle at hbusy
  unfold Inner.pollRead
  dsimp only
  generalize Q.streamRecv connection identifier capacity = recv at hbusy ⊢
  obtain ⟨result, connection'⟩ := recv
  cases result with
  | ok read => exact ⟨_, read.2, connection', fun _ => rfl, .inr ⟨rfl, rfl, rfl⟩⟩
  | error e =>
      cases e with
      | other message => exact ⟨_, false, connection', fun _ => rfl, .inr ⟨rfl, rfl, rfl⟩⟩
      | done => cases hbusy
      | invalidStreamState => cases hbusy

/-! ## Who waits -/

/-- What a handle waits for: the waker of its last `poll_read`, if that returned Pending and has not
been answered, and if a pass has found its stream readable, or the connection closed, since then. -/
structure Reader where
  waiting : Option Waker
  owed : Bool
  deriving DecidableEq, Repr

namespace Reader

def idle : Reader := ⟨none, false⟩

/-- Waits for one of these wakers. -/
def waitsFor (wakers : List Waker) (r : Reader) : Bool := r.waiting.any wakers.contains

end Reader

/-- The stream of a handle. -/
def State.identifier? (s : State Q) (index : Nat) : Option StreamId :=
  s.streams[index]?.map QuicStream.streamIdentifier

/-- The pass that is about to collect finds the stream of the handle readable, or the connection
closed. -/
def State.finds (s : State Q) (index : Nat) : Bool :=
  Q.isClosed s.inner.connection ||
    (s.identifier? index).any (Q.readable s.inner.connection).contains

/-- The readers for which `b` holds no longer wait. -/
def answering (b : Nat → Bool) (readers : Nat → Reader) : Nat → Reader :=
  fun index => if b index then .idle else readers index

/-- The readers after a poll of the handle. -/
def afterPoll (readers : Nat → Reader) (index : Nat) (waker : Waker) : Poll → Nat → Reader
  | .pending => update readers index ⟨some waker, false⟩
  | .ready _ => answering (· == index) readers

/-- The readers after a step. -/
def recordReaders (s : State Q) (l : Label) (readers : Nat → Reader) : Nat → Reader :=
  match l with
  | .pollRead index capacity waker =>
      match s.pollRead index capacity waker with
      | some (poll, _) => afterPoll readers index waker poll
      | none => readers
  | .collect => fun index =>
      if s.finds index && (readers index).waiting.isSome then { readers index with owed := true }
      else readers index
  | .wake =>
      match s.phase with
      | .waking (waker :: _) _ =>
          answering (fun index => (readers index).owed && (readers index).waitsFor [waker]) readers
      | _ => readers
  | .settle =>
      match s.phase with
      | .waking [] true =>
          answering (fun index => (readers index).waitsFor (values s.inner.readWakers)) readers
      | _ => readers
  | .close _ =>
      answering (fun index => (readers index).waitsFor (values s.inner.readWakers)) readers
  | _ => readers

/-- The connection with its readers. -/
def watched : State Q × (Nat → Reader) → Label → Option (State Q × (Nat → Reader)) :=
  withHistory step recordReaders

/-- The handle waits on the stream, and no pass is about to wake it. -/
def Waits (w : State Q × (Nat → Reader)) (index : Nat) (identifier : StreamId) (waker : Waker) :
    Prop :=
  w.1.identifier? index = some identifier ∧ (w.2 index).waiting = some waker ∧
    (w.2 index).owed = false

/-- **What a waiting reader relies on.** A pass that has found its stream readable, or the connection
closed, has woken it by the time it is over; and it does not wait for a stream that is gone. -/
structure Woken (S : Streams Q) (w : State Q × (Nat → Reader)) : Prop where
  woken : (∀ wakers closed, w.1.phase ≠ .waking wakers closed) → ∀ index, (w.2 index).owed = false
  live : ∀ index identifier waker, Waits w index identifier waker →
    S.status w.1.inner.connection identifier ≠ .gone

/-- The condition on the calls, while the connection is open. A handle that has not read the end goes
Pending only while something may still arrive and nobody else waits on the stream under another
waker; it reads the end only when nobody else waits, and reading is stopped only when nobody does. -/
def ReadsAlone (S : Streams Q) (w : State Q × (Nat → Reader)) : Label → Prop
  | .pollRead index capacity waker =>
      ∀ stream, w.1.streams[index]? = some stream → w.1.inner.closed = false →
        stream.readEof = false →
        if isIdle w.1.inner.connection stream.streamIdentifier capacity then
          (S.status w.1.inner.connection stream.streamIdentifier).isReceiving = true ∧
            ∀ other waker', other ≠ index → Waits w other stream.streamIdentifier waker' →
              waker' = waker
        else
          (S.status (Q.streamRecv w.1.inner.connection stream.streamIdentifier capacity).2
              stream.streamIdentifier).isReceiving = true ∨
            ∀ other waker', other ≠ index → ¬ Waits w other stream.streamIdentifier waker'
  | .stopRead index =>
      ∀ stream, w.1.streams[index]? = some stream → w.1.inner.closed = false →
        ∀ other waker', ¬ Waits w other stream.streamIdentifier waker'
  | _ => True

/-! ## Where the waker of a waiting reader is -/

/-- It is registered under the reader's stream until a pass takes it, and then among those the pass
has yet to wake. -/
structure Registered (S : Streams Q) (w : State Q × (Nat → Reader)) : Prop where
  registered : ∀ index identifier waker, Waits w index identifier waker →
    w.1.inner.readWakers.lookup identifier = some waker
  owed : ∀ index, (w.2 index).owed = true →
    ∃ identifier waker wakers closed, w.1.identifier? index = some identifier ∧
      (w.2 index).waiting = some waker ∧ w.1.phase = .waking wakers closed ∧
        (waker ∈ wakers ∨ closed = true ∧ w.1.inner.readWakers.lookup identifier = some waker)
  receiving : ∀ index identifier waker, Waits w index identifier waker →
    (S.status w.1.inner.connection identifier).isReceiving = true
  fresh : ∀ index, w.1.identifier? index = none → w.2 index = .idle
  closing : ∀ wakers, w.1.phase = .waking wakers true → w.1.inner.closed = true

section Registered

variable {S : Streams Q} {s t : State Q} {readers : Nat → Reader} {l : Label}

theorem Registered.woken {w : State Q × (Nat → Reader)} (h : Registered S w) : Woken S w where
  woken hphase index := by
    cases howed : (w.2 index).owed with
    | false => rfl
    | true =>
        obtain ⟨_, _, wakers, closed, _, _, hp, _⟩ := h.owed index howed
        exact absurd hp (hphase wakers closed)
  live index identifier waker hwaits hgone := by
    have hreceiving := h.receiving index identifier waker hwaits
    rw [hgone] at hreceiving
    cases hreceiving

theorem registered_init (connection : Q.Connection) :
    Registered S (State.init connection, fun _ => Reader.idle) where
  registered := nofun
  owed := nofun
  receiving := nofun
  fresh _ _ := rfl
  closing := nofun

theorem Registered.eq_idle (h : Registered S (s, readers)) {index : Nat}
    (hnone : s.identifier? index = none) : readers index = .idle := h.fresh index hnone

/-- Outside of a pass nobody is owed a wake-up. -/
theorem Registered.not_owed (h : Registered S (s, readers))
    (hphase : ∀ wakers closed, s.phase ≠ .waking wakers closed) (index : Nat) :
    (readers index).owed = false := h.woken.woken hphase index

/-- A step that leaves the wakers and the readers where they are. -/
theorem Registered.frame (h : Registered S (s, readers))
    (hphase : ∀ wakers closed, s.phase = .waking wakers closed ↔ t.phase = .waking wakers closed)
    (hwakers : t.inner.readWakers = s.inner.readWakers)
    (hclosed : s.inner.closed = true → t.inner.closed = true)
    (hstreams : ∀ index identifier, s.identifier? index = some identifier →
      t.identifier? index = some identifier)
    (hstatus : ∀ identifier,
      (S.status s.inner.connection identifier).Follows (S.status t.inner.connection identifier)) :
    Registered S (t, readers) := by
  -- a reader that waits has had its stream before the step
  have hback : ∀ index identifier waker, Waits (t, readers) index identifier waker →
      Waits (s, readers) index identifier waker := by
    rintro index identifier waker ⟨hid, hwaiting⟩
    refine ⟨Eq.trans ?_ hid, hwaiting⟩
    show s.identifier? index = t.identifier? index
    cases hbefore : s.identifier? index with
    | none =>
        dsimp only at hwaiting
        rw [h.eq_idle hbefore] at hwaiting
        cases hwaiting.1
    | some before => exact (hstreams index before hbefore).symm
  constructor
  · intro index identifier waker hwaits
    show t.inner.readWakers.lookup identifier = some waker
    rw [hwakers]
    exact h.registered index identifier waker (hback index identifier waker hwaits)
  · intro index howed
    obtain ⟨identifier, waker, wakers, closed, hid, hwaiting, hp, hat⟩ := h.owed index howed
    refine ⟨identifier, waker, wakers, closed, hstreams index identifier hid, hwaiting,
      (hphase wakers closed).mp hp, ?_⟩
    show _ ∨ _ ∧ t.inner.readWakers.lookup identifier = some waker
    rw [hwakers]
    exact hat
  · intro index identifier waker hwaits
    have hreceiving := h.receiving index identifier waker (hback index identifier waker hwaits)
    exact (hstatus identifier).isReceiving hreceiving
  · intro index hnone
    apply h.fresh
    cases hbefore : s.identifier? index with
    | none => rfl
    | some before => cases (hstreams index before hbefore).symm.trans hnone
  · intro wakers hp
    exact hclosed (h.closing wakers ((hphase wakers true).mpr hp))

/-- A step on the inner state alone that registers no reader. -/
theorem Registered.inner {inner : Inner Q} (h : Registered S (s, readers))
    (hwakers : inner.readWakers = s.inner.readWakers) (hclosed : inner.closed = s.inner.closed)
    (hstatus : ∀ identifier,
      (S.status s.inner.connection identifier).Follows (S.status inner.connection identifier)) :
    Registered S ({ s with inner := inner }, readers) :=
  h.frame (fun _ _ => Iff.rfl) hwakers hclosed.trans (fun _ _ => id) hstatus

/-- Whoever still waits, or is owed something, has not been answered. -/
theorem not_answered {b : Nat → Bool} {index : Nat}
    (h : (answering b readers index).waiting.isSome = true ∨
      (answering b readers index).owed = true) :
    b index = false ∧ answering b readers index = readers index := by
  unfold answering at h ⊢
  cases hb : b index with
  | false => exact ⟨rfl, rfl⟩
  | true =>
      rw [hb] at h
      rcases h with h | h <;> cases h

/-- Some readers are answered, and the others are registered or about to be woken still. -/
theorem Registered.answer {b : Nat → Bool} (h : Registered S (s, readers))
    (hstreams : ∀ index, t.identifier? index = s.identifier? index)
    (hclosed : s.inner.closed = true → t.inner.closed = true)
    (hwaking : ∀ wakers, t.phase = .waking wakers true → ∃ wakers', s.phase = .waking wakers' true)
    (hreceiving : ∀ index identifier waker, b index = false →
      Waits (s, readers) index identifier waker →
        (S.status s.inner.connection identifier).isReceiving = true →
          (S.status t.inner.connection identifier).isReceiving = true)
    (hregistered : ∀ index identifier waker, b index = false →
      Waits (s, readers) index identifier waker →
        s.inner.readWakers.lookup identifier = some waker →
          t.inner.readWakers.lookup identifier = some waker)
    (howed : ∀ index identifier waker wakers closed, b index = false →
      (readers index).waiting = some waker → (readers index).owed = true →
        s.phase = .waking wakers closed →
          (waker ∈ wakers ∨ closed = true ∧ s.inner.readWakers.lookup identifier = some waker) →
            ∃ wakers' closed', t.phase = .waking wakers' closed' ∧
              (waker ∈ wakers' ∨
                closed' = true ∧ t.inner.readWakers.lookup identifier = some waker)) :
    Registered S (t, answering b readers) := by
  have hback : ∀ index identifier waker, Waits (t, answering b readers) index identifier waker →
      b index = false ∧ Waits (s, readers) index identifier waker := by
    rintro index identifier waker ⟨hid, hwaiting, hnot⟩
    obtain ⟨hb, heq⟩ := not_answered (.inl (Option.isSome_of_eq_some hwaiting))
    dsimp only at hwaiting hnot
    rw [heq] at hwaiting hnot
    exact ⟨hb, (hstreams index).symm.trans hid, hwaiting, hnot⟩
  constructor
  · intro index identifier waker hwaits
    obtain ⟨hb, hwaits⟩ := hback index identifier waker hwaits
    have hlookup := h.registered index identifier waker hwaits
    exact hregistered index identifier waker hb hwaits hlookup
  · intro index hsome
    obtain ⟨hb, heq⟩ := not_answered (.inr hsome)
    dsimp only at hsome ⊢
    rw [heq] at hsome ⊢
    obtain ⟨identifier, waker, wakers, closed, hid, hwaiting, hp, hat⟩ := h.owed index hsome
    obtain ⟨wakers', closed', hp', hat'⟩ :=
      howed index identifier waker wakers closed hb hwaiting hsome hp hat
    exact ⟨identifier, waker, wakers', closed', (hstreams index).trans hid, hwaiting, hp', hat'⟩
  · intro index identifier waker hwaits
    obtain ⟨hb, hwaits⟩ := hback index identifier waker hwaits
    have hbefore := h.receiving index identifier waker hwaits
    exact hreceiving index identifier waker hb hwaits hbefore
  · intro index hnone
    have hidle : readers index = .idle := h.eq_idle ((hstreams index).symm.trans hnone)
    show answering b readers index = .idle
    unfold answering
    rw [hidle]
    exact ite_self _
  · intro wakers hp
    obtain ⟨wakers', hp'⟩ := hwaking wakers hp
    exact hclosed (h.closing wakers' hp')

theorem answering_none (readers : Nat → Reader) : answering (fun _ => false) readers = readers := rfl

/-! ### The driver -/

theorem registered_move {phase : Phase} {connection : Q.Connection}
    (h : Registered S (s, readers)) (hs : s.phase.isLooping = true)
    (hphase : phase.isLooping = true) (hmoves : Moves s.inner.connection connection) :
    Registered S (s.move phase connection, readers) := by
  refine h.frame (fun wakers closed => iff_of_false (fun hp => ?_) (fun hp => ?_)) rfl id
    (fun _ _ => id) (S.moves hmoves)
  · rw [hp] at hs
    cases hs
  · obtain rfl : phase = _ := hp
    cases hphase

theorem registered_failed (h : Registered S (s, readers)) (hp : s.phase = .selecting) :
    Registered S ({ s with phase := .ended }, readers) := by
  refine h.frame (fun wakers closed => ?_) rfl id (fun _ _ => id) fun _ => Status.follows_refl _
  rw [hp]
  exact iff_of_false nofun nofun

theorem registered_collect (h : Registered S (s, readers)) (hp : s.phase = .collecting) :
    Registered S ({ s with
      inner := s.inner.collect.2.2
      phase := .waking s.inner.collect.1 (Q.isClosed s.inner.connection) },
      recordReaders s .collect readers) := by
  obtain ⟨hconnection, hwakers⟩ := collect_frame s.inner
  have hnot := h.not_owed (by rw [hp]; exact fun _ _ => nofun)
  have hclosing := (reason_collect s.inner).2
  -- who waits after the pass has collected has waited before, and was not found
  have hback : ∀ index identifier waker,
      Waits ({ s with
        inner := s.inner.collect.2.2
        phase := .waking s.inner.collect.1 (Q.isClosed s.inner.connection) },
        recordReaders s .collect readers) index identifier waker →
      s.finds index = false ∧ Waits (s, readers) index identifier waker := by
    rintro index identifier waker ⟨hid, hwaiting, howed⟩
    simp only [recordReaders] at hwaiting howed
    split at howed
    · cases howed
    · next hfinds =>
      rw [if_neg hfinds] at hwaiting
      exact ⟨by simpa [hwaiting] using hfinds, hid, hwaiting, howed⟩
  constructor
  · intro index identifier waker hwaits
    obtain ⟨hidle, hwaits⟩ := hback index identifier waker hwaits
    obtain ⟨_, hunread⟩ := Bool.or_eq_false_iff.mp hidle
    have hid : s.identifier? index = some identifier := hwaits.1
    rw [hid] at hunread
    show s.inner.collect.2.2.readWakers.lookup identifier = some waker
    rw [hwakers, lookup_takeWakers (by simpa using hunread)]
    exact h.registered index identifier waker hwaits
  · intro index howed
    simp only [recordReaders] at howed ⊢
    split at howed
    · next hfinds =>
      rw [if_pos hfinds]
      obtain ⟨hfinds, hsome⟩ := Bool.and_eq_true_iff.mp hfinds
      obtain ⟨waker, hwaiting⟩ := Option.isSome_iff_exists.mp hsome
      cases hid : s.identifier? index with
      | none =>
          rw [h.eq_idle hid] at hwaiting
          cases hwaiting
      | some identifier =>
          have hlookup := h.registered index identifier waker ⟨hid, hwaiting, hnot index⟩
          refine ⟨identifier, waker, _, _, hid, hwaiting, rfl, ?_⟩
          by_cases hread : identifier ∈ Q.readable s.inner.connection
          · exact .inl (mem_collect (mem_takeWakers hread hlookup))
          · right
            rw [hwakers, lookup_takeWakers hread]
            refine ⟨?_, hlookup⟩
            rcases Bool.or_eq_true_iff.mp hfinds with hclosed | hreadable
            · exact hclosed
            · rw [hid] at hreadable
              exact absurd (by simpa using hreadable) hread
    · cases (hnot index).symm.trans howed
  · intro index identifier waker hwaits
    show (S.status s.inner.collect.2.2.connection identifier).isReceiving = true
    rw [hconnection]
    exact h.receiving index identifier waker (hback index identifier waker hwaits).2
  · intro index hnone
    have hidle : readers index = .idle := h.eq_idle hnone
    show (if s.finds index && (readers index).waiting.isSome then _ else readers index) = Reader.idle
    rw [hidle]
    simp [Reader.idle]
  · intro wakers hwaking
    exact (hclosing (Phase.waking.inj hwaking).2).1

theorem waitsFor_of_mem {r : Reader} {waker : Waker} {wakers : List Waker}
    (hwaiting : r.waiting = some waker) (hmem : waker ∈ wakers) : r.waitsFor wakers = true := by
  unfold Reader.waitsFor
  rw [hwaiting]
  simpa using hmem

theorem registered_wake {waker : Waker} {wakers : List Waker} {closed : Bool}
    (h : Registered S (s, readers)) (hp : s.phase = .waking (waker :: wakers) closed) :
    Registered S ({ s with phase := .waking wakers closed }, recordReaders s .wake readers) := by
  have hrecord : recordReaders s .wake readers =
      answering (fun index => (readers index).owed && (readers index).waitsFor [waker])
        readers := by
    simp only [recordReaders, hp]
  rw [hrecord]
  refine h.answer (fun _ => rfl) id (fun left hleft => ?_) (fun _ _ _ _ _ => id)
    (fun _ _ _ _ _ => id) ?_
  · obtain ⟨rfl, rfl⟩ := Phase.waking.inj hleft
    exact ⟨_, hp⟩
  · intro index identifier waker' wakers' closed' hb hwaiting howed hp' hat
    obtain ⟨rfl, rfl⟩ := Phase.waking.inj (hp.symm.trans hp')
    refine ⟨wakers, closed, rfl, ?_⟩
    rcases hat with hmem | hclosed
    · rcases List.mem_cons.mp hmem with rfl | hrest
      · have hfor := waitsFor_of_mem hwaiting (List.mem_singleton_self waker')
        simp [howed, hfor] at hb
      · exact .inl hrest
    · exact .inr hclosed

theorem registered_again (h : Registered S (s, readers)) (hp : s.phase = .waking [] false) :
    Registered S (State.bump { s with phase := .top }, recordReaders s .settle readers) := by
  have hrecord : recordReaders s .settle readers = answering (fun _ => false) readers := by
    simp only [recordReaders, hp]
    rfl
  rw [hrecord]
  refine h.answer (fun _ => rfl) id (fun _ => nofun) (fun _ _ _ _ _ => id) (fun _ _ _ _ _ => id) ?_
  intro index identifier waker wakers closed _ _ _ hp' hat
  obtain ⟨rfl, rfl⟩ := Phase.waking.inj (hp.symm.trans hp')
  rcases hat with hmem | ⟨hclosed, _⟩
  · exact absurd hmem List.not_mem_nil
  · cases hclosed

/-- Nobody is registered whom waking everybody has not answered. -/
theorem not_registered {wakers : Wakers} {index : Nat} {identifier : StreamId} {waker : Waker}
    (hb : (readers index).waitsFor (values wakers) = false)
    (hwaiting : (readers index).waiting = some waker) : wakers.lookup identifier ≠ some waker := by
  intro hlookup
  have hmem : waker ∈ values wakers := mem_values.mpr ⟨identifier, hlookup⟩
  cases (waitsFor_of_mem hwaiting hmem).symm.trans hb

theorem registered_finish (h : Registered S (s, readers)) (hp : s.phase = .waking [] true) :
    Registered S (State.bump { s with inner := s.inner.clear, phase := .ended },
      recordReaders s .settle readers) := by
  have hrecord : recordReaders s .settle readers =
      answering (fun index => (readers index).waitsFor (values s.inner.readWakers)) readers := by
    simp only [recordReaders, hp]
  rw [hrecord]
  refine h.answer (fun _ => rfl) id (fun _ => nofun) (fun _ _ _ _ _ => id) ?_ ?_
  · intro index identifier waker hb hwaits hlookup
    exact absurd hlookup (not_registered hb hwaits.2.1)
  · intro index identifier waker wakers closed hb hwaiting _ hp' hat
    obtain ⟨rfl, rfl⟩ := Phase.waking.inj (hp.symm.trans hp')
    rcases hat with hmem | ⟨_, hlookup⟩
    · exact absurd hmem List.not_mem_nil
    · exact absurd hlookup (not_registered hb hwaiting)

theorem registered_drives (h : Registered S (s, readers)) (hdrives : Drives s l t) :
    Registered S (t, recordReaders s l readers) := by
  cases hdrives with
  | @move _ phase connection hs hphase hl hmoves =>
      have hsame : recordReaders s l readers = readers := by
        cases l with
        | collect | wake | settle | pollRead | close => cases hl
        | _ => rfl
      rw [hsame]
      exact registered_move h hs hphase hmoves
  | failed hp => exact registered_failed h hp
  | collect hp => exact registered_collect h hp
  | wake hp => exact registered_wake h hp
  | again hp => exact registered_again h hp
  | finish hp => exact registered_finish h hp

theorem registered_close (now : Nat) (h : Registered S (s, readers)) :
    Registered S (s.close now, recordReaders s (.close now) readers) := by
  refine h.answer (fun _ => rfl) (fun _ => rfl) (fun wakers hp => ⟨wakers, hp⟩)
    (fun _ identifier _ _ _ => (S.close now s.inner.connection identifier).isReceiving) ?_ ?_
  · intro index identifier waker hb hwaits hlookup
    exact absurd hlookup (not_registered hb hwaits.2.1)
  · intro index identifier waker wakers closed hb hwaiting _ hp hat
    rcases hat with hmem | ⟨_, hlookup⟩
    · exact ⟨wakers, closed, hp, .inl hmem⟩
    · exact absurd hlookup (not_registered hb hwaiting)

/-! ### Reading -/

theorem identifier?_set {index : Nat} {stream stream' : QuicStream} {s : State Q}
    (hstream : s.streams[index]? = some stream)
    (hsame : stream'.streamIdentifier = stream.streamIdentifier) (inner : Inner Q) (other : Nat) :
    State.identifier? { s with inner := inner, streams := s.streams.set index stream' } other =
      s.identifier? other := by
  show (s.streams.set index stream')[other]?.map _ = s.streams[other]?.map _
  by_cases hindex : index = other
  · subst hindex
    rw [List.getElem?_set_self (List.getElem?_eq_some_iff.mp hstream).1, hstream]
    exact congrArg some hsame
  · rw [List.getElem?_set_ne hindex]

/-- A poll that finds nothing: its waker is registered, and nobody else's is lost. -/
theorem registered_pending {index : Nat} {stream : QuicStream} {waker : Waker}
    (h : Registered S (s, readers)) (hstream : s.streams[index]? = some stream)
    (hopen : s.inner.closed = false)
    (hreceiving :
      (S.status s.inner.connection stream.streamIdentifier).isReceiving = true)
    (hothers : ∀ other waker', other ≠ index →
      Waits (s, readers) other stream.streamIdentifier waker' → waker' = waker) :
    Registered S
      ({ s with
          inner := { s.inner with
            readWakers := s.inner.readWakers.insert stream.streamIdentifier waker }
          streams := s.streams.set index stream },
        update readers index ⟨some waker, false⟩) := by
  have hid : s.identifier? index = some stream.streamIdentifier := by
    unfold State.identifier?
    rw [hstream]
    rfl
  have hsame := identifier?_set hstream rfl { s.inner with
    readWakers := s.inner.readWakers.insert stream.streamIdentifier waker }
  -- who waits is the handle itself, or has waited before
  have hback : ∀ other identifier waker',
      Waits ({ s with
          inner := { s.inner with
            readWakers := s.inner.readWakers.insert stream.streamIdentifier waker }
          streams := s.streams.set index stream },
        update readers index ⟨some waker, false⟩) other identifier waker' →
      (identifier = stream.streamIdentifier ∧ waker' = waker) ∨
        (other ≠ index ∧ Waits (s, readers) other identifier waker') := by
    rintro other identifier waker' ⟨hother, hwaiting, howed⟩
    rw [hsame] at hother
    dsimp only at hwaiting howed
    by_cases hindex : other = index
    · subst hindex
      rw [Function.update_self] at hwaiting
      cases hwaiting
      cases hid.symm.trans hother
      exact .inl ⟨rfl, rfl⟩
    · rw [Function.update_of_ne hindex] at hwaiting howed
      exact .inr ⟨hindex, hother, hwaiting, howed⟩
  constructor
  · intro other identifier waker' hwaits
    rcases hback other identifier waker' hwaits with ⟨rfl, rfl⟩ | ⟨hindex, hwaits⟩
    · exact AList.lookup_insert _
    · by_cases heq : identifier = stream.streamIdentifier
      · subst heq
        rw [hothers other waker' hindex hwaits]
        exact AList.lookup_insert _
      · show (s.inner.readWakers.insert _ waker).lookup identifier = some waker'
        rw [AList.lookup_insert_ne heq]
        exact h.registered other identifier waker' hwaits
  · intro other howed
    dsimp only at howed ⊢
    by_cases hindex : other = index
    · subst hindex
      rw [Function.update_self] at howed
      cases howed
    · rw [Function.update_of_ne hindex] at howed ⊢
      obtain ⟨identifier, waker', wakers, closed, hother, hwaiting, hp, hat⟩ := h.owed other howed
      refine ⟨identifier, waker', wakers, closed, (hsame other).trans hother, hwaiting, hp, ?_⟩
      rcases hat with hmem | ⟨rfl, _⟩
      · exact .inl hmem
      · -- a pass that has found the connection closed lets nobody register
        cases hopen.symm.trans (h.closing wakers hp)
  · intro other identifier waker' hwaits
    rcases hback other identifier waker' hwaits with ⟨rfl, rfl⟩ | ⟨_, hwaits⟩
    · exact hreceiving
    · exact h.receiving other identifier waker' hwaits
  · intro other hnone
    rw [hsame] at hnone
    have hindex : other ≠ index := by
      rintro rfl
      cases hid.symm.trans hnone
    show update readers index _ other = .idle
    rw [Function.update_of_ne hindex]
    exact h.eq_idle hnone
  · exact h.closing

/-- A poll that returns: the handle no longer waits; it may have read the end of its stream. -/
theorem registered_ready {index : Nat} {stream stream' : QuicStream} {connection : Q.Connection}
    (h : Registered S (s, readers)) (hstream : s.streams[index]? = some stream)
    (hsame : stream'.streamIdentifier = stream.streamIdentifier)
    (hstatus : ∀ identifier, identifier ≠ stream.streamIdentifier →
      (S.status s.inner.connection identifier).Follows (S.status connection identifier))
    (hothers : (S.status connection stream.streamIdentifier).isReceiving = true ∨
      ∀ other waker, other ≠ index → ¬ Waits (s, readers) other stream.streamIdentifier waker) :
    Registered S
      ({ s with
          inner := { s.inner with connection := connection }
          streams := s.streams.set index stream' },
        answering (· == index) readers) := by
  refine h.answer (identifier?_set hstream hsame _) id (fun wakers hp => ⟨wakers, hp⟩) ?_
    (fun _ _ _ _ _ => id) (fun _ _ _ wakers closed _ _ _ hp hat => ⟨wakers, closed, hp, hat⟩)
  intro other identifier waker hother hwaits hreceiving
  by_cases heq : identifier = stream.streamIdentifier
  · subst heq
    rcases hothers with hstill | hnobody
    · exact hstill
    · exact absurd hwaits (hnobody other waker (by simpa using hother))
  · exact (hstatus identifier heq).isReceiving hreceiving

theorem registered_pollRead {index capacity : Nat} {waker : Waker}
    (h : Registered S (s, readers))
    (hC : ReadsAlone S (s, readers) (.pollRead index capacity waker))
    (hstep : step s (.pollRead index capacity waker) = some t) :
    Registered S (t, recordReaders s (.pollRead index capacity waker) readers) := by
  obtain ⟨after, hpoll, rfl⟩ := Option.map_eq_some_iff.mp hstep
  have hrecord : recordReaders s (.pollRead index capacity waker) readers =
      afterPoll readers index waker after.1 := by
    simp only [recordReaders, hpoll]
  rw [hrecord]
  obtain ⟨stream, hstream, rfl⟩ := Option.map_eq_some_iff.mp hpoll
  have halone := hC stream hstream
  by_cases hidle : s.inner.closed = false ∧ stream.readEof = false ∧
      isIdle s.inner.connection stream.streamIdentifier capacity = true
  · obtain ⟨hopen, heof, hidle⟩ := hidle
    have hpending := halone hopen heof
    dsimp only at hpending
    rw [if_pos hidle] at hpending
    rw [pollRead_idle S hopen heof hidle]
    exact registered_pending h hstream hopen hpending.1 hpending.2
  · have hbusy : s.inner.closed = true ∨ stream.readEof = true ∨
        isIdle s.inner.connection stream.streamIdentifier capacity = false := by
      cases hclosed : s.inner.closed with
      | true => exact .inl rfl
      | false =>
      cases heof : stream.readEof with
      | true => exact .inr (.inl rfl)
      | false =>
          right
          right
          simpa [hclosed, heof] using hidle
    obtain ⟨result, eof, connection, heq, hconnection⟩ := pollRead_ready hbusy
    rw [heq waker]
    rcases hconnection with rfl | ⟨hopen, heof, rfl⟩
    · refine registered_ready h hstream rfl (fun _ _ => Status.follows_refl _) ?_
      -- whoever waits on it still receives
      by_cases hwaits : ∃ other waker, Waits (s, readers) other stream.streamIdentifier waker
      · obtain ⟨other, waker, hwaits⟩ := hwaits
        exact .inl (h.receiving other _ waker hwaits)
      · exact .inr fun other waker _ hother => hwaits ⟨other, waker, hother⟩
    · have hreads := halone hopen heof
      dsimp only at hreads
      rw [if_neg (fun hidle' => hidle ⟨hopen, heof, hidle'⟩)] at hreads
      exact registered_ready h hstream rfl (fun identifier hne => S.streamRecv _ _ _ _ hne) hreads

theorem registered_stopRead {index : Nat} (h : Registered S (s, readers))
    (hC : ReadsAlone S (s, readers) (.stopRead index))
    (hstep : step s (.stopRead index) = some t) : Registered S (t, readers) := by
  obtain ⟨stream, hstream, rfl⟩ := Option.map_eq_some_iff.mp hstep
  unfold Inner.stopRead
  split
  · exact h
  · next hopen =>
    have hnobody := hC stream hstream (Bool.eq_false_iff.mpr hopen)
    rw [← answering_none readers]
    refine h.answer (fun _ => rfl) id (fun wakers hp => ⟨wakers, hp⟩) ?_ (fun _ _ _ _ _ => id)
      (fun _ _ _ wakers closed _ _ _ hp hat => ⟨wakers, closed, hp, hat⟩)
    intro other identifier waker _ hwaits hreceiving
    have hne : identifier ≠ stream.streamIdentifier := by
      rintro rfl
      exact hnobody other waker hwaits
    exact (S.shutdownRead s.inner.connection _ identifier hne).isReceiving hreceiving

/-! ### The other tasks -/

theorem identifier?_append {index : Nat} {identifier : StreamId} {s : State Q}
    (h : s.identifier? index = some identifier) (streams : List QuicStream) :
    State.identifier? { s with streams := s.streams ++ streams } index = some identifier := by
  obtain ⟨stream, hstream, rfl⟩ := Option.map_eq_some_iff.mp h
  have hlt : index < s.streams.length := (List.getElem?_eq_some_iff.mp hstream).1
  show (s.streams ++ streams)[index]?.map _ = _
  rw [List.getElem?_append_left hlt, hstream]
  rfl

theorem registered_pollWrite (h : Registered S (s, readers)) (stream : QuicStream) (length : Nat)
    (waker : Waker) :
    Registered S ({ s with inner := (s.inner.pollWrite stream length waker).2 }, readers) := by
  have hsend := S.streamSend s.inner.connection stream.streamIdentifier length false
  unfold Inner.pollWrite
  generalize hresult : Q.streamSend s.inner.connection stream.streamIdentifier length false = result
    at hsend
  obtain ⟨result, connection⟩ := result
  split
  · exact h.inner rfl rfl fun _ => Status.follows_refl _
  · split
    · next heq =>
      cases heq
      exact h.inner rfl rfl hsend
    · next heq =>
      cases heq
      exact h.inner rfl rfl hsend
    · next heq =>
      cases heq
      exact h.inner rfl rfl hsend
    · next heq =>
      cases heq
      exact h.inner rfl rfl fun identifier =>
        (hsend identifier).trans (S.streamWritable _ _ _ identifier)

theorem registered_check {index : Nat} (h : Registered S (s, readers))
    (hstep : s.check index = some t) : Registered S (t, readers) := by
  obtain ⟨waiter, hwaiter, hstep⟩ := Option.bind_eq_some_iff.mp hstep
  obtain ⟨_, hstep⟩ := Option.ite_none_left_eq_some.mp hstep
  obtain rfl := Option.some.inj hstep
  obtain ⟨accepted, hframe⟩ := check_frame s.inner waiter.call
  have hconnection := congrArg Inner.connection hframe
  have hwakers := congrArg Inner.readWakers hframe
  have hclosed := congrArg Inner.closed hframe
  generalize s.inner.check waiter.call = checked at hclosed hconnection hwakers
  obtain ⟨_ | outcome, inner⟩ := checked
  all_goals
    refine h.frame (fun _ _ => Iff.rfl) hwakers hclosed.trans (fun _ _ => id) fun identifier => ?_
    show Status.Follows _ (S.status inner.connection identifier)
    rw [show inner.connection = _ from hconnection]
    exact Status.follows_refl _

theorem registered_step (h : Registered S (s, readers)) (hC : ReadsAlone S (s, readers) l)
    (hstep : step s l = some t) : Registered S (t, recordReaders s l readers) := by
  cases l with
  | keepalive | flush | sent | resumed | readable | timeout | tryRecv | collect | wake | settle =>
      exact registered_drives h (drives_of_driveStep hstep)
  | newStream identifier =>
      cases hstep
      exact h.frame (fun _ _ => Iff.rfl) rfl id (fun _ _ hid => identifier?_append hid _)
        fun _ => Status.follows_refl _
  | clone index =>
      obtain ⟨stream, _, rfl⟩ := Option.map_eq_some_iff.mp hstep
      exact h.frame (fun _ _ => Iff.rfl) rfl id (fun _ _ hid => identifier?_append hid _)
        fun _ => Status.follows_refl _
  | pollRead index capacity waker => exact registered_pollRead h hC hstep
  | pollWrite index length waker =>
      obtain ⟨stream, _, rfl⟩ := Option.map_eq_some_iff.mp hstep
      exact registered_pollWrite h stream length waker
  | finish index =>
      obtain ⟨stream, _, rfl⟩ := Option.map_eq_some_iff.mp hstep
      unfold Inner.finish
      split
      · exact h
      · exact h.inner rfl rfl (S.streamSend _ _ _ _)
  | cancelWrite index =>
      obtain ⟨stream, _, rfl⟩ := Option.map_eq_some_iff.mp hstep
      unfold Inner.cancelWrite
      split
      · exact h
      · exact h.inner rfl rfl (S.shutdownWrite _ _)
  | stopRead index => exact registered_stopRead h hC hstep
  | release identifier =>
      cases hstep
      exact h.inner rfl rfl fun _ => Status.follows_refl _
  | subscribe call =>
      cases hstep
      exact h.frame (fun _ _ => Iff.rfl) rfl id (fun _ _ => id) fun _ => Status.follows_refl _
  | check index => exact registered_check h hstep
  | changed index =>
      obtain ⟨waiter, _, hstep⟩ := Option.bind_eq_some_iff.mp hstep
      obtain ⟨_, ⟨⟩⟩ := Option.ite_none_right_eq_some.mp hstep
      exact h.frame (fun _ _ => Iff.rfl) rfl id (fun _ _ => id) fun _ => Status.follows_refl _
  | close now =>
      cases hstep
      exact registered_close now h

end Registered

/-- **Who reads alone is woken.** In every run in which the readers of a stream do not get in each
other's way, a pass that finds the stream of a waiting reader readable, or the connection closed,
wakes it, and nobody waits for a stream that is gone. -/
theorem throughout_woken (S : Streams Q) (connection : Q.Connection) (ls : List Label)
    (halone : Always watched (ReadsAlone S) (State.init connection, fun _ => Reader.idle) ls) :
    Throughout watched (Woken S) (State.init connection, fun _ => Reader.idle) ls := by
  refine throughout_of_always (Registered S) (fun w hw => hw.woken) ?_ (registered_init connection)
    halone
  intro w l w' hw hC hstep
  obtain ⟨ht, hrecord⟩ := withHistory_eq_some.mp hstep
  obtain ⟨t, readers'⟩ := w'
  obtain rfl : readers' = _ := hrecord
  exact registered_step hw hC ht

/-- A handle that has not read the end goes Pending on a stream that is gone. -/
theorem pollRead_gone (S : Streams Q) {g : Inner Q} {stream : QuicStream} (capacity : Nat)
    (waker : Waker) (hopen : g.closed = false) (heof : stream.readEof = false)
    (hgone : S.status g.connection stream.streamIdentifier = .gone) :
    (g.pollRead stream capacity waker).1 = .pending := by
  have hrecv := S.gone g.connection stream.streamIdentifier capacity hgone
  have hidle : isIdle g.connection stream.streamIdentifier capacity = true := by
    unfold isIdle
    rw [hrecv]
  rw [pollRead_idle S hopen heof hidle]

/-! ## A connection with one stream -/

structure OneStream where
  status : Status
  unread : Nat
  fin : Bool
  deriving DecidableEq, Repr

namespace OneStream

/-- A packet is bytes of the stream, and the empty one its FIN. -/
def recv (packet : List UInt8) (c : OneStream) : OneStream :=
  if c.status.isReceiving then
    { status := .opened, unread := c.unread + packet.length, fin := c.fin || packet.isEmpty }
  else c

/-- With its end read the stream is gone. -/
def streamRecv (c : OneStream) (capacity : Nat) : Except QuicheError (Nat × Bool) × OneStream :=
  match c.status with
  | .unopened | .gone => (.error .invalidStreamState, c)
  | .ended => (.error .done, c)
  | .opened =>
      if c.unread = 0 ∧ c.fin = false then (.error .done, c)
      else
        let n := min capacity c.unread
        let fin := c.fin && n == c.unread
        (.ok (n, fin),
          { c with status := if fin then .gone else .opened, unread := c.unread - n })

def readable (c : OneStream) : Bool := c.status == .opened && (c.unread != 0 || c.fin)

def shutdownRead (c : OneStream) : OneStream :=
  if c.status = .opened then { c with status := .ended } else c

end OneStream

/-- The stream is 4, and nothing is sent. -/
def oneStream : Crate where
  Connection := OneStream
  sendAckEliciting _ c := c
  send _ c := (false, c)
  recv _ packet c := c.recv packet
  onTimeout _ c := c
  close _ c := c
  isEstablished _ := true
  isClosed _ := false
  isTimedOut _ := false
  peerError _ := none
  readable c := if c.readable then [4] else []
  writable _ := []
  streamRecv c identifier capacity :=
    if identifier = 4 then c.streamRecv capacity else (.error .invalidStreamState, c)
  streamSend c _ _ _ := (.error .done, c)
  streamWritable c _ _ := c
  shutdownRead c identifier := if identifier = 4 then c.shutdownRead else c
  shutdownWrite c _ := c

theorem follows_recv (packet : List UInt8) (c : OneStream) :
    c.status.Follows (c.recv packet).status := by
  unfold OneStream.recv
  split
  · next hreceiving =>
    cases hstatus : c.status with
    | unopened => exact .inr rfl
    | opened => rfl
    | ended | gone =>
        rw [hstatus] at hreceiving
        cases hreceiving
  · exact Status.follows_refl _

theorem streamRecv_idle {c : OneStream} {capacity : Nat} {e : QuicheError}
    (h : (c.streamRecv capacity).1 = .error e) : (c.streamRecv capacity).2 = c := by
  unfold OneStream.streamRecv at h ⊢
  split at h
  · rfl
  · rfl
  · rfl
  · split at h
    · next hdone => rw [if_pos hdone]
    · cases h

def oneStreams : Streams oneStream where
  status (c : OneStream) identifier := if identifier = 4 then c.status else .unopened
  moves := by
    intro c c' hmoves identifier
    split
    · cases hmoves with
      | recv now packet => exact follows_recv packet c
      | stays | sendAckEliciting | send | onTimeout => exact Status.follows_refl _
    · exact .inl rfl
  close _ _ _ := Status.follows_refl _
  streamSend _ _ _ _ _ := Status.follows_refl _
  streamWritable _ _ _ _ := Status.follows_refl _
  shutdownWrite _ _ _ := Status.follows_refl _
  shutdownRead c j i hne := by
    split
    · next hi =>
      have hj : j ≠ 4 := fun hj => hne (hi.trans hj.symm)
      have hsame : oneStream.shutdownRead c j = c := if_neg hj
      rw [hsame]
      exact Status.follows_refl _
    · exact .inl rfl
  streamRecv c j n i hne := by
    split
    · next hi =>
      have hj : j ≠ 4 := fun hj => hne (hi.trans hj.symm)
      have hsame : (oneStream.streamRecv c j n).2 = c := congrArg Prod.snd (if_neg hj)
      rw [hsame]
      exact Status.follows_refl _
    · exact .inl rfl
  idle c i n e he _ := by
    by_cases hi : i = 4
    · have hrecv : oneStream.streamRecv c i n = OneStream.streamRecv c n := if_pos hi
      rw [hrecv] at he ⊢
      exact streamRecv_idle he
    · exact congrArg Prod.snd (if_neg hi)
  gone c i n hgone := by
    by_cases hi : i = 4
    · subst hi
      have hstatus : OneStream.status c = .gone := hgone
      show (OneStream.streamRecv c n).1 = _
      unfold OneStream.streamRecv
      rw [hstatus]
    · cases (if_neg hi).symm.trans hgone

def unopened : OneStream := ⟨.unopened, 0, false⟩

/-- A turn of the driver that receives the packets, and wakes so many. -/
def turn (packets : List (List UInt8)) (woken : Nat) : List Label :=
  [Label.keepalive false 0, .flush 0, .readable true] ++
    packets.map (fun packet => Label.tryRecv (some packet) 0) ++
    [Label.tryRecv none 0, .collect] ++ List.replicate woken Label.wake ++ [Label.settle]

/-- One handle reads to the end. -/
def readToEnd : List Label :=
  [Label.newStream 4, .pollRead 0 1024 7] ++ turn [[1, 2, 3]] 1 ++
    [Label.pollRead 0 1024 7, .pollRead 0 1024 7] ++ turn [[]] 1 ++
    [Label.pollRead 0 1024 7, .pollRead 0 1024 7]

/-- There is one handle, and a poll that finds nothing may still find something later. -/
def isSingle (S : Streams Q) (w : State Q × (Nat → Reader)) : Label → Bool
  | .pollRead index capacity _ =>
      index == 0 && w.1.streams.length ≤ 1 && w.1.streams.all fun stream =>
        stream.readEof || !isIdle w.1.inner.connection stream.streamIdentifier capacity ||
          (S.status w.1.inner.connection stream.streamIdentifier).isReceiving
  | .stopRead _ => false
  | _ => true

theorem readsAlone_of_isSingle {S : Streams Q} {w : State Q × (Nat → Reader)} {l : Label}
    (h : isSingle S w l = true) : ReadsAlone S w l := by
  cases l with
  | pollRead index capacity waker =>
      intro stream hstream _ heof
      simp only [isSingle, Bool.and_eq_true, decide_eq_true_eq, beq_iff_eq, List.all_eq_true] at h
      obtain ⟨⟨rfl, hlength⟩, hall⟩ := h
      have hnobody : ∀ other waker', other ≠ 0 →
          ¬ Waits w other stream.streamIdentifier waker' := by
        rintro other waker' hother ⟨hid, _⟩
        obtain ⟨_, hsome, _⟩ := Option.map_eq_some_iff.mp hid
        have hlt := (List.getElem?_eq_some_iff.mp hsome).1
        omega
      have hstatus := hall stream (List.mem_of_getElem? hstream)
      split
      · next hidle =>
        rw [heof, hidle] at hstatus
        exact ⟨hstatus, fun other waker' hother hwaits => absurd hwaits (hnobody other waker' hother)⟩
      · exact .inr hnobody
  | stopRead => cases h
  | _ => exact trivial

theorem throughout_woken_single :
    Throughout watched (Woken oneStreams) (State.init (Q := oneStream) unopened, fun _ => Reader.idle)
      readToEnd := by
  apply throughout_woken
  exact always_mono (C := fun w l => isSingle oneStreams w l = true) (fun _ _ => readsAlone_of_isSingle)
    (by decide +kernel)

/-- The handle and its clone go Pending under wakers of their own; the pass that finds the stream
readable wakes one of them. -/
def twoReaders : List Label :=
  [Label.newStream 4, .clone 0, .pollRead 0 1024 7, .pollRead 1 1024 8] ++ turn [[1, 2, 3]] 1

/-- The handle reads the end, and its clone goes Pending after that. -/
def clonePolls : List Label :=
  [Label.newStream 4, .clone 0] ++ turn [[]] 0 ++ [Label.pollRead 0 1024 7, .pollRead 1 1024 8]

theorem not_woken_clone :
    (∃ w, run watched (State.init (Q := oneStream) unopened, fun _ => Reader.idle) twoReaders =
        some w ∧ ¬ Woken oneStreams w) ∧
      ∃ w, run watched (State.init (Q := oneStream) unopened, fun _ => Reader.idle) clonePolls =
        some w ∧ ¬ Woken oneStreams w := by
  have htwo : (run watched (State.init (Q := oneStream) unopened, fun _ => Reader.idle)
      twoReaders).map (fun w => (w.1.phase, w.2 0)) = some (.top, ⟨some 7, true⟩) := rfl
  have hclone : (run watched (State.init (Q := oneStream) unopened, fun _ => Reader.idle)
      clonePolls).map (fun w => (w.1.identifier? 1, w.2 1, OneStream.status w.1.inner.connection)) =
      some (some 4, ⟨some 8, false⟩, .gone) := rfl
  constructor
  · obtain ⟨w, hrun, hw⟩ := Option.map_eq_some_iff.mp htwo
    obtain ⟨hphase, howed⟩ := Prod.mk.inj hw
    refine ⟨w, hrun, fun hwoken => ?_⟩
    have hnot := hwoken.woken (by rw [hphase]; exact fun _ _ => nofun) 0
    rw [howed] at hnot
    cases hnot
  · obtain ⟨w, hrun, hw⟩ := Option.map_eq_some_iff.mp hclone
    simp only [Prod.mk.injEq] at hw
    obtain ⟨hid, hwaiting, hgone⟩ := hw
    refine ⟨w, hrun, fun hwoken => ?_⟩
    refine hwoken.live 1 4 8 ⟨hid, ?_⟩ hgone
    rw [hwaiting]
    exact ⟨rfl, rfl⟩

end Libcfd.Edge.Quic.Quiche.Driver
