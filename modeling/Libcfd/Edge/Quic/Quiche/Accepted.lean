import Libcfd.Edge.Quic.Quiche
import Libcfd.Foundation.History

/-!
# The quiche backend: what is in the accepted set

A stream enters the `accepted` set when it is handed out, and its own task takes it out once
`serve_stream` has returned. So the set is as large as there are streams being served, unless a task
ends in another way: one that panics, or that `serve_requests` drops, does not come to `release`.
Its stream stays in the set, and `accept_stream` does not look at it again.
-/

namespace Libcfd.Edge.Quic.Quiche

open Libcfd.Machine

/-- An event on the connection, or a panic in the task of a stream. -/
inductive Turn where
  | event (e : Event)
  | panic (identifier : StreamId)
  deriving DecidableEq, Repr

/-- Unwinding drops the task's stream, and a `QuicStream` has no `Drop`. -/
def turn (s : Serving) : Turn → Option Serving
  | .event e => step s e
  | .panic identifier =>
      if identifier ∈ s.tasks then some { s with tasks := s.tasks.erase identifier } else none

/-- The streams whose tasks have ended without `release`. -/
def recordLeft (s : Serving) (l : Turn) (left : List StreamId) : List StreamId :=
  match l with
  | .event .serveEnd => s.tasks ++ left
  | .panic identifier => identifier :: left
  | _ => left

/-- The connection with the streams that were left. -/
def accounted : Serving × List StreamId → Turn → Option (Serving × List StreamId) :=
  withHistory turn recordLeft

/-- The control stream, those being served, and those that were left. -/
def held (w : Serving × List StreamId) : List StreamId := 0 :: (w.1.tasks ++ w.2)

/-- Every stream of the accepted set is in one place, and in no second one. -/
structure Accounted (w : Serving × List StreamId) : Prop where
  perm : w.1.inner.accepted.Perm (held w)
  nodup : (held w).Nodup

section Accounted

variable {s t : Serving} {left : List StreamId}

theorem accounted_init : Accounted (Serving.init, []) where
  perm := .refl _
  nodup := List.nodup_cons.mpr ⟨List.not_mem_nil, List.nodup_nil⟩

theorem Accounted.mem_iff (h : Accounted (s, left)) {identifier : StreamId} :
    identifier ∈ s.inner.accepted ↔ identifier ∈ held (s, left) := h.perm.mem_iff

/-- Nothing is handed out and nobody ends. -/
theorem Accounted.frame (h : Accounted (s, left)) (haccepted : t.inner.accepted = s.inner.accepted)
    (htasks : t.tasks = s.tasks) : Accounted (t, left) := by
  have hheld : held (t, left) = held (s, left) := by
    show 0 :: (t.tasks ++ left) = 0 :: (s.tasks ++ left)
    rw [htasks]
  constructor
  · rw [hheld]
    show t.inner.accepted.Perm _
    rw [haccepted]
    exact h.perm
  · rw [hheld]
    exact h.nodup

theorem accounted_accept {readable : List StreamId} {identifier : StreamId}
    (h : Accounted (s, left)) (hstep : step s (.accept readable identifier) = some t) :
    Accounted (t, left) := by
  obtain ⟨⟨_, _, hacc⟩, ⟨⟩⟩ := Option.ite_none_right_eq_some.mp hstep
  obtain ⟨_, _, hnot, hg⟩ := acceptStream_eq_stream hacc
  rw [h.mem_iff] at hnot
  -- it goes behind the control stream
  have hperm : (identifier :: held (s, left)).Perm
      (0 :: (identifier :: s.tasks ++ left)) := List.Perm.swap 0 identifier (s.tasks ++ left)
  constructor
  · show (s.inner.acceptStream readable).2.accepted.Perm _
    rw [hg]
    exact (h.perm.cons identifier).trans hperm
  · exact hperm.nodup_iff.mp (List.nodup_cons.mpr ⟨hnot, h.nodup⟩)

/-- The stream of a task among those that are held. -/
theorem held_perm {identifier : StreamId} (htask : identifier ∈ s.tasks) :
    (held (s, left)).Perm (identifier :: 0 :: (s.tasks.erase identifier ++ left)) := by
  have hcons : (s.tasks ++ left).Perm (identifier :: (s.tasks.erase identifier ++ left)) :=
    (List.perm_cons_erase htask).append_right left
  exact (hcons.cons 0).trans (List.Perm.swap identifier 0 _)

theorem accounted_finish {identifier : StreamId} (h : Accounted (s, left))
    (hstep : step s (.finish identifier) = some t) : Accounted (t, left) := by
  obtain ⟨htask, ⟨⟩⟩ := Option.ite_none_right_eq_some.mp hstep
  have hperm : (held (s, left)).Perm (identifier :: 0 :: (s.tasks.erase identifier ++ left)) :=
    held_perm htask
  obtain ⟨hnot, hnodup⟩ := List.nodup_cons.mp (hperm.nodup_iff.mp h.nodup)
  refine ⟨?_, hnodup⟩
  -- nobody else holds the stream, so that exactly it is taken out
  have hfilter : (identifier :: 0 :: (s.tasks.erase identifier ++ left)).filter (· != identifier) =
      0 :: (s.tasks.erase identifier ++ left) := by
    rw [List.filter_cons_of_neg (by simp)]
    apply List.filter_eq_self.mpr
    intro other hother
    simp only [bne_iff_ne]
    rintro rfl
    exact hnot hother
  show (s.inner.accepted.filter (· != identifier)).Perm (0 :: (s.tasks.erase identifier ++ left))
  rw [← hfilter]
  exact (h.perm.trans hperm).filter _

theorem accounted_panic {identifier : StreamId} (h : Accounted (s, left))
    (hstep : turn s (.panic identifier) = some t) : Accounted (t, identifier :: left) := by
  obtain ⟨htask, ⟨⟩⟩ := Option.ite_none_right_eq_some.mp hstep
  have hperm : (held (s, left)).Perm (0 :: (s.tasks.erase identifier ++ identifier :: left)) := by
    refine (held_perm htask).trans ((List.Perm.swap 0 identifier _).trans ?_)
    exact List.perm_middle.symm.cons 0
  exact ⟨h.perm.trans hperm, hperm.nodup_iff.mp h.nodup⟩

theorem accounted_event {e : Event} (h : Accounted (s, left)) (hstep : step s e = some t) :
    Accounted (t, recordLeft s (.event e) left) := by
  cases e with
  | accept readable identifier => exact accounted_accept h hstep
  | finish identifier => exact accounted_finish h hstep
  | receive identifier bytes fin =>
      obtain ⟨_, _, rfl⟩ := Option.map_eq_some_iff.mp hstep
      exact h.frame rfl rfl
  | close =>
      cases hstep
      exact h.frame rfl rfl
  | serveEnd =>
      cases hstep
      exact ⟨h.perm, h.nodup⟩
  | read | drainUnread | drainRead | drainStop | drainEnd =>
      obtain ⟨_, ⟨⟩⟩ := Option.ite_none_right_eq_some.mp hstep
      exact h.frame rfl rfl

end Accounted

/-- What the accepted set says of an open connection. -/
structure Holds (w : Serving × List StreamId) : Prop extends Accounted w where
  -- without the control stream, it counts the tasks that are being served and those that were left
  size : w.1.inner.accepted.length = 1 + (w.1.tasks.length + w.2.length)
  -- what is handed out, whatever the order of `readable()`, is a readable stream that nobody has
  yields : ∀ readable identifier, w.1.inner.closed = false →
    readable.Perm w.1.inner.connection.readable →
      (w.1.inner.acceptStream readable).1 = .stream identifier →
        (w.1.stream identifier).readable = true ∧ identifier ≠ 0 ∧ identifier ∉ w.1.tasks ∧
          identifier ∉ w.2
  -- it waits only if there is none
  waits : ∀ readable, w.1.inner.closed = false → readable.Perm w.1.inner.connection.readable →
    ((w.1.inner.acceptStream readable).1 = .pending ↔
      ∀ identifier, (w.1.stream identifier).readable = true →
        identifier = 0 ∨ identifier ∈ w.1.tasks ∨ identifier ∈ w.2)

theorem mem_held {w : Serving × List StreamId} {identifier : StreamId} :
    identifier ∈ held w ↔ identifier = 0 ∨ identifier ∈ w.1.tasks ∨ identifier ∈ w.2 := by
  unfold held
  rw [List.mem_cons, List.mem_append]

theorem acceptStream_eq_pending {g : Inner} {readable : List StreamId} (hopen : g.closed = false) :
    (g.acceptStream readable).1 = .pending ↔ ∀ identifier ∈ readable, identifier ∈ g.accepted := by
  unfold Inner.acceptStream
  rw [hopen, if_neg Bool.false_ne_true]
  cases hfind : readable.find? (fun identifier => !g.accepted.contains identifier) with
  | none =>
      refine iff_of_true rfl fun identifier hmem => ?_
      simpa using List.find?_eq_none.mp hfind identifier hmem
  | some found =>
      refine iff_of_false (fun h => by cases h) fun hall => ?_
      have hmem := hall found (List.mem_of_find?_eq_some hfind)
      simpa [hmem] using List.find?_some hfind

theorem Accounted.holds {w : Serving × List StreamId} (h : Accounted w) : Holds w where
  toAccounted := h
  size := by
    rw [h.perm.length_eq, held, List.length_cons, List.length_append]
    omega
  yields readable identifier _ hperm hacc := by
    obtain ⟨_, hmem, hnot, _⟩ := acceptStream_eq_stream hacc
    rw [h.perm.mem_iff, mem_held, not_or, not_or] at hnot
    exact ⟨mem_readable_iff.mp (hperm.mem_iff.mp hmem), hnot⟩
  waits readable hopen hperm := by
    rw [acceptStream_eq_pending hopen]
    constructor
    · intro hall identifier hreadable
      rw [← mem_held, ← h.perm.mem_iff]
      exact hall identifier (hperm.mem_iff.mpr (mem_readable_iff.mpr hreadable))
    · intro hall identifier hmem
      rw [h.perm.mem_iff, mem_held]
      exact hall identifier (mem_readable_iff.mp (hperm.mem_iff.mp hmem))

/-- **What the accepted set holds.** In every run, panics of tasks included, it consists of the
control stream, the streams being served and those whose task has ended without releasing them, each
once. So it is as large as there are tasks unless one is left; no stream is served twice at a time;
and `accept_stream` waits if and only if it would find only these. -/
theorem throughout_holds (ls : List Turn) :
    Throughout accounted Holds (Serving.init, []) ls := by
  refine throughout_of_always (C := fun _ _ => True) Accounted (fun w hw => hw.holds) ?_
    accounted_init (always_of_forall (fun _ _ => trivial) _ ls)
  intro w l w' hw _ hstep
  obtain ⟨ht, hrecord⟩ := withHistory_eq_some.mp hstep
  obtain ⟨t, left'⟩ := w'
  obtain rfl : left' = _ := hrecord
  cases l with
  | event e => exact accounted_event hw ht
  | panic identifier => exact accounted_panic hw ht

end Libcfd.Edge.Quic.Quiche
