import Libcfd.Foundation.Machine

/-!
# The quiche backend: which streams `accept_stream` hands out

`accept_stream` has no queue of new streams to take from. It scans quiche's `readable()` list for
an identifier that is not in the `accepted` set, and `serve_requests` takes an identifier out of
that set again (`release`) as soon as the stream's task has ended. What keeps a served stream from
coming back is therefore only that nothing readable is left on it.

The file models one connection: the receive sides quiche keeps, the `accepted` set, and the tasks
`serve_requests` and `drain_unread` spawn. `acceptStream_nodup_iff_released_ended` says which runs
hand every stream out at most once: those in which a stream is released only after its receive
side has ended. `handle_quic_http` does not wait for that, see `acceptStream_yields_twice`.
-/

namespace Libcfd.Edge.Quic.Quiche

open Libcfd.Machine

/-- A QUIC stream identifier (`u64`). -/
abbrev StreamId := Nat

/-! ## The receive side of a stream

quiche reports a stream as readable exactly when it holds unread data or an unread FIN. Stopping
the read side (`stream_shutdown(Read)`) discards what is buffered and everything that follows. -/

structure RecvSide where
  /-- Bytes that have arrived in order and have not been read. -/
  unread : List UInt8
  /-- The peer's FIN has arrived behind `unread`. -/
  fin : Bool
  /-- `stream_recv` has reported the FIN. -/
  finRead : Bool
  /-- `stream_shutdown(Read)` was called. -/
  stopped : Bool
  fin_of_finRead : finRead = true → fin = true
  unread_of_finRead : finRead = true → unread = []
  unread_of_stopped : stopped = true → unread = []

namespace RecvSide

/-- A stream on which nothing has arrived. -/
def idle : RecvSide := ⟨[], false, false, false, by simp, by simp, by simp⟩

def readable (r : RecvSide) : Bool := !r.stopped && (!r.unread.isEmpty || (r.fin && !r.finRead))

/-- Nothing is left to read and nothing can arrive: the FIN was read, or the side was stopped. -/
def ended (r : RecvSide) : Bool := r.finRead || r.stopped

/-- Stream data arrives, with or without the FIN; nothing follows a FIN. -/
def receive (r : RecvSide) (bytes : List UInt8) (fin : Bool) : Option RecvSide :=
  if h : r.fin = true then none
  else some
    { unread := if r.stopped then [] else r.unread ++ bytes
      fin := fin
      finRead := false
      stopped := r.stopped
      fin_of_finRead := by simp
      unread_of_finRead := by simp
      unread_of_stopped := by simp +contextual }

/-- `stream_recv` into a buffer of `n` bytes; the FIN is reported with the last of the data. -/
def recv (r : RecvSide) (n : Nat) : RecvSide where
  unread := r.unread.drop n
  fin := r.fin
  finRead := r.finRead || (r.fin && decide (r.unread.length ≤ n))
  stopped := r.stopped
  fin_of_finRead := by
    intro h
    rcases Bool.or_eq_true_iff.mp h with h | h
    · exact r.fin_of_finRead h
    · exact (Bool.and_eq_true_iff.mp h).1
  unread_of_finRead := by
    intro h
    rcases Bool.or_eq_true_iff.mp h with h | h
    · simp [r.unread_of_finRead h]
    · exact List.drop_eq_nil_of_le (of_decide_eq_true (Bool.and_eq_true_iff.mp h).2)
  unread_of_stopped := by
    intro h
    simp [r.unread_of_stopped h]

/-- `stream_shutdown(Shutdown::Read)`. -/
def stop (r : RecvSide) : RecvSide where
  unread := []
  fin := r.fin
  finRead := r.finRead
  stopped := true
  fin_of_finRead := r.fin_of_finRead
  unread_of_finRead := by simp
  unread_of_stopped := by simp

theorem not_readable_of_ended {r : RecvSide} (h : r.ended = true) : r.readable = false := by
  rcases Bool.or_eq_true_iff.mp h with hfin | hstop
  · simp [readable, r.unread_of_finRead hfin, hfin]
  · simp [readable, hstop]

theorem ended_of_receive {r r' : RecvSide} {bytes : List UInt8} {fin : Bool}
    (h : r.receive bytes fin = some r') (he : r.ended = true) : r'.ended = true := by
  unfold receive at h
  split at h
  · cases h
  · next hfin =>
    cases h
    rcases Bool.or_eq_true_iff.mp he with hread | hstop
    · exact absurd (r.fin_of_finRead hread) hfin
    · simp [ended, hstop]

theorem ended_of_recv {r : RecvSide} {n : Nat} (he : r.ended = true) : (r.recv n).ended = true := by
  rcases Bool.or_eq_true_iff.mp he with h | h <;> simp [ended, recv, h]

theorem ended_stop (r : RecvSide) : r.stop.ended = true := by simp [ended, stop]

/-- A side that has not ended is readable, or becomes so once the FIN arrives. -/
theorem readable_or_receive {r : RecvSide} (he : r.ended = false) :
    r.readable = true ∨ ∃ r', r.receive [] true = some r' ∧ r'.readable = true := by
  obtain ⟨hread, hstop⟩ : r.finRead = false ∧ r.stopped = false := by simpa [ended] using he
  cases hfin : r.fin with
  | true => left; simp [readable, hstop, hfin, hread]
  | false =>
      right
      refine ⟨_, by simp [receive, hfin]; rfl, ?_⟩
      simp [readable, hstop]

end RecvSide

/-! ## The connection and its tasks -/

/-- What the driver knows of quiche's streams. -/
structure Connection where
  streams : StreamId → RecvSide
  /-- The streams on which something has arrived. -/
  opened : List StreamId
  opened_of_readable : ∀ i, (streams i).readable = true → i ∈ opened

/-- The streams `quiche::Connection::readable` iterates over (in an order of its own). -/
def Connection.readable (c : Connection) : List StreamId :=
  c.opened.filter (fun identifier => (c.streams identifier).readable)

def Connection.set (c : Connection) (identifier : StreamId) (r : RecvSide) : Connection where
  streams := fun i => if i = identifier then r else c.streams i
  opened := if identifier ∈ c.opened then c.opened else c.opened ++ [identifier]
  opened_of_readable := by
    intro i hi
    by_cases hid : i = identifier
    · subst hid
      split <;> simp [*]
    · have := c.opened_of_readable i (by simpa [hid] using hi)
      split <;> simp [this]

/-- The part of `Inner` that accepting uses. -/
structure Inner where
  connection : Connection
  accepted : List StreamId
  closed : Bool

/-- What one pass through the loop of `accept_stream` comes to. -/
inductive Accepted where
  /-- `Ok(Some(stream))` -/
  | stream (identifier : StreamId)
  /-- `Ok(None)` -/
  | closed
  /-- Nothing new: wait for the driver to bump the sequence. -/
  | pending
  deriving DecidableEq, Repr

/-- `accept_stream` between two awaits, on the identifiers `readable()` lists.
`accepted.insert` is true for the first identifier that is not in the set. -/
def Inner.acceptStream (g : Inner) (readable : List StreamId) : Accepted × Inner :=
  if g.closed then (.closed, g)
  else match readable.find? (fun identifier => !g.accepted.contains identifier) with
    | some identifier => (.stream identifier, { g with accepted := identifier :: g.accepted })
    | none => (.pending, g)

def Inner.release (g : Inner) (identifier : StreamId) : Inner :=
  { g with accepted := g.accepted.filter (· != identifier) }

/-- A connection being served: `tasks` are the `serve_stream` tasks that still run (one entry
each, by stream), `drains` the tasks of `drain_unread`. -/
structure Serving where
  inner : Inner
  tasks : List StreamId
  drains : List StreamId
  /-- `serve_requests` has not returned. -/
  serving : Bool

/-- Nothing has arrived; stream 0 is the control stream. -/
def Serving.init : Serving where
  inner := { connection := { streams := fun _ => .idle, opened := []
                             opened_of_readable := by simp [RecvSide.idle, RecvSide.readable] }
             accepted := [0]
             closed := false }
  tasks := []
  drains := []
  serving := true

/-- One event on the connection. -/
inductive Event where
  /-- The driver hands quiche a packet with data or a FIN for the stream. -/
  | receive (identifier : StreamId) (bytes : List UInt8) (fin : Bool)
  /-- `serve_requests` polls `accept_stream`, which finds a stream; `serve_requests` spawns its
  task. -/
  | accept (readable : List StreamId) (identifier : StreamId)
  /-- The stream's task reads into a buffer of `n` bytes. -/
  | read (identifier : StreamId) (n : Nat)
  /-- The stream's task calls `drain_unread`. -/
  | drainUnread (identifier : StreamId)
  /-- A drain task reads into a buffer of `n` bytes. -/
  | drainRead (identifier : StreamId) (n : Nat)
  /-- A drain task gives up and stops the read side. -/
  | drainStop (identifier : StreamId)
  /-- A drain task ends. -/
  | drainEnd (identifier : StreamId)
  /-- `serve_stream` has returned and its task calls `release`. -/
  | finish (identifier : StreamId)
  /-- `QuicConnection::close`, or the driver finding the connection closed. -/
  | close
  /-- `serve_requests` returns (or is aborted), which drops its tasks. -/
  | serveEnd
  deriving DecidableEq, Repr

/-- Replace the receive side of one stream. -/
def Serving.setStream (s : Serving) (identifier : StreamId) (r : RecvSide) : Serving :=
  { s with inner := { s.inner with connection := s.inner.connection.set identifier r } }

/-- The receive side of one stream. -/
def Serving.stream (s : Serving) (identifier : StreamId) : RecvSide :=
  s.inner.connection.streams identifier

def step (s : Serving) : Event → Option Serving
  | .receive identifier bytes fin =>
      ((s.stream identifier).receive bytes fin).map (s.setStream identifier)
  | .accept readable identifier =>
      if s.serving = true ∧ readable.Perm s.inner.connection.readable
          ∧ (s.inner.acceptStream readable).1 = .stream identifier then
        some { s with inner := (s.inner.acceptStream readable).2
                      tasks := identifier :: s.tasks }
      else none
  | .read identifier n =>
      if identifier ∈ s.tasks then
        some (s.setStream identifier ((s.stream identifier).recv n))
      else none
  | .drainUnread identifier =>
      if identifier ∈ s.tasks then some { s with drains := identifier :: s.drains } else none
  | .drainRead identifier n =>
      if identifier ∈ s.drains then
        some (s.setStream identifier ((s.stream identifier).recv n))
      else none
  | .drainStop identifier =>
      if identifier ∈ s.drains then
        some (s.setStream identifier (s.stream identifier).stop)
      else none
  | .drainEnd identifier =>
      if identifier ∈ s.drains then some { s with drains := s.drains.erase identifier } else none
  | .finish identifier =>
      if identifier ∈ s.tasks then
        some { s with inner := s.inner.release identifier, tasks := s.tasks.erase identifier }
      else none
  | .close => some { s with inner := { s.inner with closed := true } }
  | .serveEnd => some { s with tasks := [], serving := false }

/-- The streams `accept_stream` has yielded, in order. -/
def yielded (es : List Event) : List StreamId :=
  es.filterMap fun
    | .accept _ identifier => some identifier
    | _ => none

/-! ## What a step does to a stream, to the accepted set and to the history -/

@[simp] theorem yielded_append (xs ys : List Event) : yielded (xs ++ ys) = yielded xs ++ yielded ys :=
  List.filterMap_append

theorem stream_setStream (s : Serving) (identifier i : StreamId) (r : RecvSide) :
    (s.setStream identifier r).stream i = if i = identifier then r else s.stream i := rfl

@[simp] theorem setStream_accepted (s : Serving) (identifier : StreamId) (r : RecvSide) :
    (s.setStream identifier r).inner.accepted = s.inner.accepted := rfl

@[simp] theorem setStream_tasks (s : Serving) (identifier : StreamId) (r : RecvSide) :
    (s.setStream identifier r).tasks = s.tasks := rfl

theorem mem_readable_iff {c : Connection} {identifier : StreamId} :
    identifier ∈ c.readable ↔ (c.streams identifier).readable = true := by
  rw [Connection.readable, List.mem_filter]
  exact and_iff_right_of_imp (c.opened_of_readable identifier)

/-- Replacing a stream by one that has ended if the old one had keeps every ended stream ended. -/
theorem ended_setStream {s : Serving} {identifier i : StreamId} {r : RecvSide}
    (hr : (s.stream identifier).ended = true → r.ended = true)
    (hi : (s.stream i).ended = true) : ((s.setStream identifier r).stream i).ended = true := by
  rw [stream_setStream]
  split
  · next h => exact hr (h ▸ hi)
  · exact hi

/-- **What `accept_stream` yields**: a readable stream outside the accepted set, which it joins. -/
theorem acceptStream_eq_stream {g : Inner} {readable : List StreamId} {identifier : StreamId}
    (h : (g.acceptStream readable).1 = .stream identifier) :
    g.closed = false ∧ identifier ∈ readable ∧ identifier ∉ g.accepted ∧
      (g.acceptStream readable).2 = { g with accepted := identifier :: g.accepted } := by
  unfold Inner.acceptStream at h ⊢
  split at h
  · cases h
  · next hclosed =>
    split at h
    · next i hfind =>
      cases h
      have hnot := List.find?_some hfind
      exact ⟨by simpa using hclosed, List.mem_of_find?_eq_some hfind, by simpa using hnot,
        by simp [hclosed]⟩
    · cases h

/-- Once ended, a stream's receive side stays ended. -/
theorem ended_of_step {s t : Serving} {e : Event} (h : step s e = some t) {i : StreamId}
    (hi : (s.stream i).ended = true) : (t.stream i).ended = true := by
  cases e with
  | receive identifier bytes fin =>
      obtain ⟨r, hr, rfl⟩ := Option.map_eq_some_iff.mp h
      exact ended_setStream (RecvSide.ended_of_receive hr) hi
  | read identifier n =>
      obtain ⟨_, ⟨⟩⟩ := Option.ite_none_right_eq_some.mp h
      exact ended_setStream RecvSide.ended_of_recv hi
  | drainRead identifier n =>
      obtain ⟨_, ⟨⟩⟩ := Option.ite_none_right_eq_some.mp h
      exact ended_setStream RecvSide.ended_of_recv hi
  | drainStop identifier =>
      obtain ⟨_, ⟨⟩⟩ := Option.ite_none_right_eq_some.mp h
      exact ended_setStream (fun _ => RecvSide.ended_stop _) hi
  | accept readable identifier =>
      obtain ⟨⟨_, _, hacc⟩, ⟨⟩⟩ := Option.ite_none_right_eq_some.mp h
      have := (acceptStream_eq_stream hacc).2.2.2
      simpa [Serving.stream, this] using hi
  | drainUnread identifier =>
      obtain ⟨_, ⟨⟩⟩ := Option.ite_none_right_eq_some.mp h
      exact hi
  | drainEnd identifier =>
      obtain ⟨_, ⟨⟩⟩ := Option.ite_none_right_eq_some.mp h
      exact hi
  | finish identifier =>
      obtain ⟨_, ⟨⟩⟩ := Option.ite_none_right_eq_some.mp h
      exact hi
  | close => cases h; exact hi
  | serveEnd => cases h; exact hi

/-! ## Every stream at most once -/

/-- The condition on a step: a task that ends has seen its stream's receive side end. -/
def ReleasesEnded (s : Serving) : Event → Prop
  | .finish identifier => (s.stream identifier).ended = true
  | _ => True

/-- What holds of the history and the state as long as only ended streams are released. -/
structure Inv (past : List Event) (s : Serving) : Prop where
  nodup : (yielded past).Nodup
  kept : ∀ i ∈ yielded past, i ∈ s.inner.accepted ∨ (s.stream i).ended = true
  tasks : ∀ i ∈ s.tasks, i ∈ yielded past

theorem inv_init : Inv [] Serving.init where
  nodup := List.nodup_nil
  kept := by simp [yielded]
  tasks := by simp [Serving.init]

/-- A step that neither yields nor releases keeps the invariant. -/
theorem inv_of_quiet {past : List Event} {s t : Serving} {e : Event} (hinv : Inv past s)
    (h : step s e = some t) (hyield : yielded [e] = [])
    (haccepted : t.inner.accepted = s.inner.accepted) (htasks : ∀ i ∈ t.tasks, i ∈ s.tasks) :
    Inv (past ++ [e]) t where
  nodup := by simpa [hyield] using hinv.nodup
  kept := by
    intro i hi
    rw [yielded_append, hyield, List.append_nil] at hi
    rw [haccepted]
    exact (hinv.kept i hi).imp_right (ended_of_step h)
  tasks := by
    intro i hi
    simpa [hyield] using hinv.tasks i (htasks i hi)

theorem inv_accept {past : List Event} {s t : Serving} {readable : List StreamId}
    {identifier : StreamId} (hinv : Inv past s)
    (h : step s (.accept readable identifier) = some t) :
    Inv (past ++ [.accept readable identifier]) t := by
  have hended := fun i => ended_of_step h (i := i)
  obtain ⟨⟨_, hperm, hacc⟩, ⟨⟩⟩ := Option.ite_none_right_eq_some.mp h
  obtain ⟨_, hmem, hnot, hg⟩ := acceptStream_eq_stream hacc
  have hreadable : (s.stream identifier).readable = true :=
    mem_readable_iff.mp (hperm.mem_iff.mp hmem)
  -- A stream yielded before is either still in the set or has ended, so it is not this one.
  have hfresh : identifier ∉ yielded past := by
    intro hold
    rcases hinv.kept identifier hold with h' | h'
    · exact hnot h'
    · simp [RecvSide.not_readable_of_ended h'] at hreadable
  have hy : yielded (past ++ [.accept readable identifier]) = yielded past ++ [identifier] := by
    simp [yielded]
  refine ⟨?_, ?_, ?_⟩
  · rw [hy]
    exact List.nodup_append.mpr ⟨hinv.nodup, by simp, by
      rintro a ha b hb rfl
      exact hfresh (List.mem_singleton.mp hb ▸ ha)⟩
  · intro i hi
    rw [hy, List.mem_append, List.mem_singleton] at hi
    rcases hi with hi | rfl
    · refine (hinv.kept i hi).imp (fun hin => ?_) (hended i)
      rw [hg]
      exact List.mem_cons_of_mem _ hin
    · left
      rw [hg]
      exact List.mem_cons_self
  · intro i hi
    rw [hy, List.mem_append, List.mem_singleton]
    rcases List.mem_cons.mp hi with rfl | hi
    · exact Or.inr rfl
    · exact Or.inl (hinv.tasks i hi)

theorem inv_finish {past : List Event} {s t : Serving} {identifier : StreamId} (hinv : Inv past s)
    (hC : ReleasesEnded s (.finish identifier)) (h : step s (.finish identifier) = some t) :
    Inv (past ++ [.finish identifier]) t := by
  obtain ⟨_, ⟨⟩⟩ := Option.ite_none_right_eq_some.mp h
  refine ⟨by simpa [yielded] using hinv.nodup, ?_, ?_⟩
  · intro i hi
    have hi' : i ∈ yielded past := by simpa [yielded] using hi
    by_cases hid : i = identifier
    · exact Or.inr (hid ▸ hC)
    · exact (hinv.kept i hi').imp_left (fun hin => by simp [Inner.release, hin, hid])
  · intro i hi
    have hi' : i ∈ yielded past := hinv.tasks i (List.mem_of_mem_erase hi)
    simpa [yielded] using hi'

theorem inv_step {past : List Event} {s t : Serving} {e : Event} (hinv : Inv past s)
    (hC : ReleasesEnded s e) (h : step s e = some t) : Inv (past ++ [e]) t := by
  cases e with
  | accept readable identifier => exact inv_accept hinv h
  | finish identifier => exact inv_finish hinv hC h
  | receive identifier bytes fin =>
      obtain ⟨r, _, rfl⟩ := Option.map_eq_some_iff.mp h
      exact inv_of_quiet hinv h rfl rfl (fun _ hi => hi)
  | close =>
      cases h
      exact inv_of_quiet (e := .close) hinv rfl rfl rfl (fun _ hi => hi)
  | serveEnd =>
      cases h
      exact inv_of_quiet (e := .serveEnd) hinv rfl rfl rfl (by simp)
  | _ =>
      obtain ⟨_, ⟨⟩⟩ := Option.ite_none_right_eq_some.mp h
      exact inv_of_quiet hinv h rfl rfl (fun _ hi => hi)

theorem inv_of_run {es : List Event} {s : Serving} (hrun : run step Serving.init es = some s)
    (hC : Always step ReleasesEnded Serving.init es) : Inv es s := by
  simpa using run_induction_of_always Inv (fun _ _ _ _ => inv_step) inv_init hrun hC

/-! ## The condition is exact -/

/-- A readable stream outside the accepted set can be the next one yielded: `readable()` may list
it first. -/
theorem exists_accept (s : Serving) {identifier : StreamId} (hserving : s.serving = true)
    (hopen : s.inner.closed = false) (hnot : identifier ∉ s.inner.accepted)
    (hreadable : (s.stream identifier).readable = true) :
    ∃ readable t, step s (.accept readable identifier) = some t := by
  have hmem : identifier ∈ s.inner.connection.readable := mem_readable_iff.mpr hreadable
  refine ⟨identifier :: s.inner.connection.readable.erase identifier, _,
    Option.ite_none_right_eq_some.mpr ⟨⟨hserving, (List.perm_cons_erase hmem).symm, ?_⟩, rfl⟩⟩
  simp [Inner.acceptStream, hopen, hnot]

/-- The state after the task of a stream has ended and released it. -/
def Serving.released (s : Serving) (identifier : StreamId) : Serving :=
  { s with inner := s.inner.release identifier, tasks := s.tasks.erase identifier }

theorem step_finish {s : Serving} {identifier : StreamId} (htask : identifier ∈ s.tasks) :
    step s (.finish identifier) = some (s.released identifier) :=
  Option.ite_none_right_eq_some.mpr ⟨htask, rfl⟩

/-- A stream that is released before its receive side has ended can be yielded a second time. -/
theorem exists_yield_again {s : Serving} {identifier : StreamId} (hserving : s.serving = true)
    (hopen : s.inner.closed = false) (htask : identifier ∈ s.tasks)
    (hended : (s.stream identifier).ended = false) :
    ∃ more t, run step s (.finish identifier :: more) = some t ∧ identifier ∈ yielded more := by
  have hnot : identifier ∉ (s.released identifier).inner.accepted := by
    simp [Serving.released, Inner.release]
  rcases RecvSide.readable_or_receive hended with hr | ⟨r, hr, hr'⟩
  · obtain ⟨readable, t, ht⟩ := exists_accept (s.released identifier) hserving hopen hnot hr
    refine ⟨[.accept readable identifier], t, ?_, by simp [yielded]⟩
    rw [run_cons, step_finish htask]
    simpa using ht
  · -- The FIN has not arrived yet; it may arrive once the stream has been released.
    have hreceive : step (s.released identifier) (.receive identifier [] true)
        = some ((s.released identifier).setStream identifier r) :=
      Option.map_eq_some_iff.mpr ⟨r, hr, rfl⟩
    have hstream : (((s.released identifier).setStream identifier r).stream identifier).readable
        = true := by rw [stream_setStream, if_pos rfl, hr']
    obtain ⟨readable, t, ht⟩ :=
      exists_accept ((s.released identifier).setStream identifier r) hserving hopen hnot hstream
    refine ⟨[.receive identifier [] true, .accept readable identifier], t, ?_, by simp [yielded]⟩
    rw [run_cons, step_finish htask]
    simpa [hreceive] using ht

/-- A stream whose receive side has ended is never yielded any more. -/
theorem not_yielded_of_ended {s t : Serving} {es : List Event} {identifier : StreamId}
    (hended : (s.stream identifier).ended = true) (hrun : run step s es = some t) :
    identifier ∉ yielded es := by
  have h0 : identifier ∉ yielded [] := List.not_mem_nil
  suffices h : (t.stream identifier).ended = true ∧ identifier ∉ yielded ([] ++ es) from h.2
  refine run_induction
    (fun past s => (s.stream identifier).ended = true ∧ identifier ∉ yielded past)
    (fun past s e t hinv he => ⟨ended_of_step he hinv.1, ?_⟩) ⟨hended, h0⟩ hrun
  rw [yielded_append, List.mem_append]
  rintro (hold | hnew)
  · exact hinv.2 hold
  · cases e with
    | accept readable i =>
        obtain rfl : identifier = i := by simpa [yielded] using hnew
        obtain ⟨⟨_, hperm, hacc⟩, _⟩ := Option.ite_none_right_eq_some.mp he
        have hmem := mem_readable_iff.mp (hperm.mem_iff.mp (acceptStream_eq_stream hacc).2.1)
        have hnot := RecvSide.not_readable_of_ended hinv.1
        rw [Serving.stream, hmem] at hnot
        cases hnot
    | _ => simp [yielded] at hnew

/-- **Which runs hand a stream out at most once.** In every run that releases a stream only after
its receive side has ended, `accept_stream` yields no stream twice. The condition is exact: at the
end of such a run, a task can go on to release its stream without `accept_stream` ever yielding
that stream again just in case the stream's receive side has ended. -/
theorem acceptStream_nodup_iff_released_ended {es : List Event} {s : Serving}
    (hrun : run step Serving.init es = some s) (hC : Always step ReleasesEnded Serving.init es) :
    (yielded es).Nodup ∧
    ∀ identifier ∈ s.tasks, s.serving = true → s.inner.closed = false →
      ((s.stream identifier).ended = true ↔
        ∀ more t, run step s (.finish identifier :: more) = some t →
          identifier ∉ yielded more) := by
  refine ⟨(inv_of_run hrun hC).nodup, fun identifier htask hserving hopen => ⟨?_, ?_⟩⟩
  · intro hended more t hmore
    obtain ⟨v, hv, hrest⟩ := run_cons_eq_some.mp hmore
    exact not_yielded_of_ended (ended_of_step hv hended) hrest
  · intro hnever
    cases hended : (s.stream identifier).ended with
    | true => rfl
    | false =>
        obtain ⟨more, t, hmore, hyield⟩ := exists_yield_again hserving hopen htask hended
        exact absurd hyield (hnever more t hmore)

/-- A request whose `serve_stream` reads everything up to the FIN before it ends. -/
def servedOnce : List Event :=
  [.receive 1 [0x0a, 0x36] false, .accept [1] 1, .read 1 8, .receive 1 [] true, .read 1 8]

theorem acceptStream_nodup_servedOnce :
    (∃ s, run step Serving.init servedOnce = some s ∧ 1 ∈ s.tasks ∧ s.serving = true
      ∧ s.inner.closed = false) ∧ (yielded servedOnce).Nodup :=
  ⟨⟨_, rfl, by decide, rfl, rfl⟩,
    (acceptStream_nodup_iff_released_ended rfl
      (by simp [servedOnce, always_cons, ReleasesEnded])).1⟩

/-! ### A request body that is parsed as a request -/

/-- `DATA_STREAM_PROTOCOL_SIGNATURE`, the version `01`, and the frame of a `ConnectRequest` for
the destination `/`. -/
def preamble : List UInt8 :=
  [0x0a, 0x36, 0xcd, 0x12, 0xa1, 0x3e, 0x30, 0x31] ++
  [0, 0, 0, 0, 5, 0, 0, 0] ++ [0, 0, 0, 0, 1, 0, 2, 0] ++ [0, 0, 0, 0, 0, 0, 0, 0] ++
  [5, 0, 0, 0, 0x12, 0, 0, 0] ++ [0, 0, 0, 0, 0, 0, 0, 0] ++ [0x2f, 0, 0, 0, 0, 0, 0, 0]

/-- A request whose body is itself a preamble. The handler answers without reading the body, so
`handle_quic_http` starts a drain task and returns; `release` comes before the drain's first
read. -/
def servedTwice : List Event :=
  [.receive 1 (preamble ++ preamble) true, .accept [1] 1, .read 1 6, .read 1 2, .read 1 8,
   .read 1 40, .drainUnread 1, .finish 1, .accept [1] 1]

/-- The stream comes back, and the new `serve_stream` starts with the body. -/
theorem acceptStream_yields_twice :
    (∃ s, run step Serving.init servedTwice = some s ∧ (s.stream 1).unread = preamble) ∧
    ¬ (yielded servedTwice).Nodup :=
  ⟨⟨_, rfl, by decide⟩, by decide⟩

end Libcfd.Edge.Quic.Quiche
