import Libcfd.Edge.Quic.Quiche.Wakers
import Mathlib.Data.List.Forall2

/-!
# The quiche backend: what a pass does for those who do not read

A writer that is left Pending leaves its waker under its stream, and every pass of the driver wakes
every writer it finds, whether there is room or not. `accept_stream` and `wait_established` leave no
waker: they wait for the sequence watch to change, which every pass does last. So neither can miss a
pass that is over: the writer has been woken, and the call can go on and look again.
-/

namespace Libcfd.Edge.Quic.Quiche.Driver

open Libcfd.Machine

open Function (update)

variable {Q : Crate}

/-! ## Writers -/

/-- The writers after a step: for whose waker each of them waits, and if a pass has collected since
then. Whoever wakes a waker wakes all that wait for it. -/
def recordWriters (s : State Q) (l : Label) (writers : Nat → Reader) : Nat → Reader :=
  match l with
  | .pollWrite index length waker =>
      match s.streams[index]? with
      | some stream => afterPoll writers index waker (s.inner.pollWrite stream length waker).1
      | none => writers
  | .cancelWrite index =>
      match s.streams[index]? with
      | some stream =>
          if s.inner.closed then writers
          else answering (fun other => (writers other).waitsFor
            (s.inner.writeWakers.lookup stream.streamIdentifier).toList) writers
      | none => writers
  | .collect => fun index => { writers index with owed := (writers index).waiting.isSome }
  | .wake =>
      match s.phase with
      | .waking (waker :: _) _ =>
          answering (fun index => (writers index).waitsFor [waker]) writers
      | _ => writers
  | .settle =>
      match s.phase with
      | .waking [] true =>
          answering (fun index => (writers index).waitsFor (values s.inner.writeWakers)) writers
      | _ => writers
  | .close _ =>
      answering (fun index => (writers index).waitsFor (values s.inner.writeWakers)) writers
  | _ => writers

/-- The connection with its writers. -/
def written : State Q × (Nat → Reader) → Label → Option (State Q × (Nat → Reader)) :=
  withHistory step recordWriters

/-- The writers of a stream are one task: none is left Pending while another waits on the stream
under another waker. -/
def WritesInTurn (w : State Q × (Nat → Reader)) : Label → Prop
  | .pollWrite index length waker =>
      ∀ stream, w.1.streams[index]? = some stream →
        (w.1.inner.pollWrite stream length waker).1 = .pending →
          ∀ other waker', other ≠ index → Waits w other stream.streamIdentifier waker' →
            waker' = waker
  | _ => True

/-- The waker of a writer is under its stream until a pass collects it, and is then among those that
the pass has yet to wake. -/
structure Enlisted (w : State Q × (Nat → Reader)) : Prop where
  enlisted : ∀ index identifier waker, Waits w index identifier waker →
    w.1.inner.writeWakers.lookup identifier = some waker
  owed : ∀ index, (w.2 index).owed = true →
    ∃ waker wakers closed, (w.2 index).waiting = some waker ∧
      w.1.phase = .waking wakers closed ∧ waker ∈ wakers
  fresh : ∀ index, w.1.identifier? index = none → w.2 index = .idle
  closed : w.1.inner.closed = true → w.1.inner.writeWakers = ∅

section Enlisted

variable {s t : State Q} {writers : Nat → Reader} {l : Label}

theorem enlisted_init (connection : Q.Connection) :
    Enlisted (State.init connection, fun _ => Reader.idle) where
  enlisted := by
    rintro index identifier waker ⟨_, hwaiting, _⟩
    cases hwaiting
  owed index howed := by cases howed
  fresh _ _ := rfl
  closed hclosed := by cases hclosed

theorem Enlisted.eq_idle (h : Enlisted (s, writers)) {index : Nat}
    (hnone : s.identifier? index = none) : writers index = .idle := h.fresh index hnone

/-- Outside of a pass nobody is owed a wake-up. -/
theorem Enlisted.not_owed (h : Enlisted (s, writers))
    (hphase : ∀ wakers closed, s.phase = .waking wakers closed → wakers = []) (index : Nat) :
    (writers index).owed = false := by
  cases howed : (writers index).owed with
  | false => rfl
  | true =>
      obtain ⟨waker, wakers, closed, _, hp, hmem⟩ := h.owed index howed
      rw [hphase wakers closed hp] at hmem
      exact absurd hmem List.not_mem_nil

/-- A step that leaves the wakers and the writers where they are. -/
theorem Enlisted.frame (h : Enlisted (s, writers))
    (hphase : ∀ wakers closed, s.phase = .waking wakers closed → t.phase = .waking wakers closed)
    (hwakers : t.inner.writeWakers = s.inner.writeWakers)
    (hclosed : t.inner.closed = s.inner.closed)
    (hstreams : ∀ index identifier, s.identifier? index = some identifier →
      t.identifier? index = some identifier) : Enlisted (t, writers) := by
  constructor
  · rintro index identifier waker ⟨hid, hwaiting, hnot⟩
    show t.inner.writeWakers.lookup identifier = some waker
    rw [hwakers]
    cases hbefore : s.identifier? index with
    | none =>
        dsimp only at hwaiting
        rw [h.eq_idle hbefore] at hwaiting
        cases hwaiting
    | some before =>
        cases (hstreams index before hbefore).symm.trans hid
        exact h.enlisted index identifier waker ⟨hbefore, hwaiting, hnot⟩
  · intro index howed
    obtain ⟨waker, wakers, closed, hwaiting, hp, hmem⟩ := h.owed index howed
    exact ⟨waker, wakers, closed, hwaiting, hphase wakers closed hp, hmem⟩
  · intro index hnone
    apply h.fresh
    cases hbefore : s.identifier? index with
    | none => rfl
    | some before => cases (hstreams index before hbefore).symm.trans hnone
  · intro hsome
    show t.inner.writeWakers = ∅
    rw [hwakers]
    exact h.closed (hclosed.symm.trans hsome)

/-- Some writers are woken, and the others are where they were. -/
theorem Enlisted.answer {b : Nat → Bool} (h : Enlisted (s, writers))
    (hstreams : ∀ index, t.identifier? index = s.identifier? index)
    (henlisted : ∀ identifier waker index, b index = false →
      (writers index).waiting = some waker →
        s.inner.writeWakers.lookup identifier = some waker →
          t.inner.writeWakers.lookup identifier = some waker)
    (howed : ∀ waker wakers closed index, b index = false → (writers index).waiting = some waker →
      s.phase = .waking wakers closed → waker ∈ wakers →
        ∃ wakers' closed', t.phase = .waking wakers' closed' ∧ waker ∈ wakers')
    (hclosed : t.inner.closed = true → t.inner.writeWakers = ∅) :
    Enlisted (t, answering b writers) := by
  constructor
  · rintro index identifier waker ⟨hid, hwaiting, hnot⟩
    obtain ⟨hb, heq⟩ := not_answered (.inl (Option.isSome_of_eq_some hwaiting))
    dsimp only at hwaiting hnot
    rw [heq] at hwaiting hnot
    have hlookup := h.enlisted index identifier waker
      ⟨(hstreams index).symm.trans hid, hwaiting, hnot⟩
    exact henlisted identifier waker index hb hwaiting hlookup
  · intro index hsome
    obtain ⟨hb, heq⟩ := not_answered (.inr hsome)
    dsimp only at hsome ⊢
    rw [heq] at hsome ⊢
    obtain ⟨waker, wakers, closed, hwaiting, hp, hmem⟩ := h.owed index hsome
    obtain ⟨wakers', closed', hp', hmem'⟩ := howed waker wakers closed index hb hwaiting hp hmem
    exact ⟨waker, wakers', closed', hwaiting, hp', hmem'⟩
  · intro index hnone
    have hidle : writers index = .idle := h.eq_idle ((hstreams index).symm.trans hnone)
    show answering b writers index = .idle
    unfold answering
    rw [hidle]
    exact ite_self _
  · exact hclosed

/-! ### The driver -/

theorem writeWakers_collect (g : Inner Q) : g.collect.2.2.writeWakers = ∅ := by
  unfold Inner.collect
  dsimp only
  split <;> rfl

theorem enlisted_collect (h : Enlisted (s, writers)) (hp : s.phase = .collecting) :
    Enlisted ({ s with
      inner := s.inner.collect.2.2
      phase := .waking s.inner.collect.1 (Q.isClosed s.inner.connection) },
      recordWriters s .collect writers) := by
  have hnot := h.not_owed (by rw [hp]; intro _ _ hp'; cases hp')
  constructor
  · -- whoever waits has been collected
    rintro index identifier waker ⟨_, hwaiting, howed⟩
    simp only [recordWriters] at hwaiting howed
    rw [hwaiting] at howed
    cases howed
  · intro index howed
    obtain ⟨waker, hwaiting⟩ := Option.isSome_iff_exists.mp howed
    cases hid : s.identifier? index with
    | none =>
        rw [h.eq_idle hid] at hwaiting
        cases hwaiting
    | some identifier =>
        have hlookup := h.enlisted index identifier waker ⟨hid, hwaiting, hnot index⟩
        exact ⟨waker, _, _, hwaiting, rfl, mem_collect_writer hlookup⟩
  · intro index hnone
    have hidle : writers index = .idle := h.eq_idle hnone
    show ({ writers index with owed := (writers index).waiting.isSome } : Reader) = .idle
    rw [hidle]
    rfl
  · intro _
    exact writeWakers_collect s.inner

theorem enlisted_wake {waker : Waker} {wakers : List Waker} {closed : Bool}
    (h : Enlisted (s, writers)) (hp : s.phase = .waking (waker :: wakers) closed) :
    Enlisted ({ s with phase := .waking wakers closed }, recordWriters s .wake writers) := by
  have hrecord : recordWriters s .wake writers =
      answering (fun index => (writers index).waitsFor [waker]) writers := by
    simp only [recordWriters, hp]
  rw [hrecord]
  refine h.answer (fun _ => rfl) (fun _ _ _ _ _ => id) ?_ h.closed
  intro waker' wakers' closed' index hb hwaiting hp' hmem
  obtain ⟨rfl, rfl⟩ := Phase.waking.inj (hp.symm.trans hp')
  rcases List.mem_cons.mp hmem with rfl | hrest
  · cases (waitsFor_of_mem hwaiting (List.mem_singleton_self waker')).symm.trans hb
  · exact ⟨wakers, closed, rfl, hrest⟩

/-- Waking everybody leaves nobody under a stream. -/
theorem enlisted_clear (h : Enlisted (s, writers))
    (hstreams : ∀ index, t.identifier? index = s.identifier? index)
    (hphase : ∀ wakers closed, s.phase = .waking wakers closed → wakers ≠ [] →
      t.phase = .waking wakers closed)
    (hcleared : t.inner.writeWakers = ∅) :
    Enlisted (t, answering (fun index => (writers index).waitsFor (values s.inner.writeWakers))
      writers) := by
  refine h.answer hstreams ?_ ?_ fun _ => hcleared
  · intro identifier waker index hb hwaiting hlookup
    exact absurd hlookup (not_registered hb hwaiting)
  · intro waker wakers closed index _ _ hp hmem
    exact ⟨wakers, closed, hphase wakers closed hp (List.ne_nil_of_mem hmem), hmem⟩

theorem enlisted_drives (h : Enlisted (s, writers)) (hdrives : Drives s l t) :
    Enlisted (t, recordWriters s l writers) := by
  cases hdrives with
  | @move _ phase connection hs hphase hl hmoves =>
      have hsame : recordWriters s l writers = writers := by
        cases l with
        | collect | wake | settle | pollWrite | cancelWrite | close => cases hl
        | _ => rfl
      rw [hsame]
      refine h.frame (fun wakers closed hp => ?_) rfl rfl fun _ _ => id
      rw [hp] at hs
      cases hs
  | failed hp =>
      refine h.frame (fun wakers closed hp' => ?_) rfl rfl fun _ _ => id
      cases hp.symm.trans hp'
  | collect hp => exact enlisted_collect h hp
  | wake hp => exact enlisted_wake h hp
  | again hp =>
      have hrecord : recordWriters s .settle writers = answering (fun _ => false) writers := by
        simp only [recordWriters, hp]
        rfl
      rw [hrecord]
      refine h.answer (fun _ => rfl) (fun _ _ _ _ _ => id) ?_ h.closed
      intro waker wakers closed index _ _ hp' hmem
      obtain ⟨rfl, rfl⟩ := Phase.waking.inj (hp.symm.trans hp')
      exact absurd hmem List.not_mem_nil
  | finish hp =>
      have hrecord : recordWriters s .settle writers =
          answering (fun index => (writers index).waitsFor (values s.inner.writeWakers))
            writers := by
        simp only [recordWriters, hp]
      rw [hrecord]
      refine enlisted_clear h (fun _ => rfl) (fun wakers closed hp' hne => ?_) rfl
      obtain ⟨rfl, rfl⟩ := Phase.waking.inj (hp.symm.trans hp')
      exact absurd rfl hne

/-! ### The other tasks -/

/-- What a write leaves: it is Pending with its waker under the stream, or nothing has changed
there. -/
theorem pollWrite_wakers (g : Inner Q) (stream : QuicStream) (length : Nat) (waker : Waker) :
    ((g.pollWrite stream length waker).1 = .pending ∧
      (g.pollWrite stream length waker).2.writeWakers =
        g.writeWakers.insert stream.streamIdentifier waker) ∨
    ((∃ result, (g.pollWrite stream length waker).1 = .ready result) ∧
      (g.pollWrite stream length waker).2.writeWakers = g.writeWakers) := by
  unfold Inner.pollWrite
  split
  · exact .inr ⟨⟨_, rfl⟩, rfl⟩
  · split
    · exact .inr ⟨⟨_, rfl⟩, rfl⟩
    · exact .inr ⟨⟨_, rfl⟩, rfl⟩
    · exact .inr ⟨⟨_, rfl⟩, rfl⟩
    · exact .inl ⟨rfl, rfl⟩

theorem enlisted_pollWrite {index length : Nat} {waker : Waker} {stream : QuicStream}
    (h : Enlisted (s, writers)) (hC : WritesInTurn (s, writers) (.pollWrite index length waker))
    (hstream : s.streams[index]? = some stream) :
    Enlisted ({ s with inner := (s.inner.pollWrite stream length waker).2 },
      recordWriters s (.pollWrite index length waker) writers) := by
  have hid : s.identifier? index = some stream.streamIdentifier := by
    rw [State.identifier?, hstream]
    rfl
  have hrecord : recordWriters s (.pollWrite index length waker) writers =
      afterPoll writers index waker (s.inner.pollWrite stream length waker).1 := by
    simp only [recordWriters, hstream]
  rw [hrecord]
  have hbefore := (pollWrite_frame s.inner stream length waker).1
  rcases pollWrite_wakers s.inner stream length waker with
    ⟨hpending, hwakers⟩ | ⟨⟨result, hready⟩, hwakers⟩
  · rw [hpending]
    constructor
    · rintro other identifier waker' ⟨hid', hwaiting, hnot⟩
      show (s.inner.pollWrite stream length waker).2.writeWakers.lookup identifier = some waker'
      rw [hwakers]
      by_cases hother : other = index
      · subst hother
        cases hid.symm.trans hid'
        simp only [afterPoll, Function.update_self] at hwaiting
        cases hwaiting
        exact AList.lookup_insert _
      · simp only [afterPoll, Function.update_of_ne hother] at hwaiting hnot
        by_cases hsame : identifier = stream.streamIdentifier
        · subst hsame
          obtain rfl := hC stream hstream hpending other waker' hother ⟨hid', hwaiting, hnot⟩
          exact AList.lookup_insert _
        · rw [AList.lookup_insert_ne hsame]
          exact h.enlisted other identifier waker' ⟨hid', hwaiting, hnot⟩
    · intro other howed
      by_cases hother : other = index
      · subst hother
        simp only [afterPoll, Function.update_self] at howed
        cases howed
      · simp only [afterPoll, Function.update_of_ne hother] at howed ⊢
        exact h.owed other howed
    · intro other hnone
      have hother : other ≠ index := by
        rintro rfl
        cases hid.symm.trans hnone
      simp only [afterPoll, Function.update_of_ne hother]
      exact h.eq_idle hnone
    · -- on a closed connection nobody is left Pending
      intro hclosed
      rw [pollWrite_of_closed stream (hbefore.symm.trans hclosed)] at hpending
      cases hpending
  · rw [hready]
    refine h.answer (fun _ => rfl) (fun identifier waker' other _ _ hlookup => ?_)
      (fun waker' wakers closed other _ _ hp hmem => ⟨wakers, closed, hp, hmem⟩) fun hclosed => ?_
    · show (s.inner.pollWrite stream length waker).2.writeWakers.lookup identifier = some waker'
      rw [hwakers]
      exact hlookup
    · show (s.inner.pollWrite stream length waker).2.writeWakers = ∅
      rw [hwakers]
      exact h.closed (hbefore.symm.trans hclosed)

/-- The waker that is taken from under the stream is woken. -/
theorem enlisted_cancelWrite {index : Nat} {stream : QuicStream} (h : Enlisted (s, writers))
    (hstream : s.streams[index]? = some stream) :
    Enlisted ({ s with inner := s.inner.cancelWrite stream },
      recordWriters s (.cancelWrite index) writers) := by
  simp only [recordWriters, hstream]
  unfold Inner.cancelWrite
  split
  · exact h
  · next hopen =>
    refine h.answer (fun _ => rfl) (fun identifier waker other hb hwaiting hlookup => ?_)
      (fun waker wakers closed other _ _ hp hmem => ⟨wakers, closed, hp, hmem⟩)
      fun hclosed => absurd hclosed hopen
    show (s.inner.writeWakers.erase stream.streamIdentifier).lookup identifier = some waker
    by_cases hsame : identifier = stream.streamIdentifier
    · subst hsame
      rw [hlookup] at hb
      cases (waitsFor_of_mem hwaiting List.mem_cons_self).symm.trans hb
    · rw [AList.lookup_erase_ne hsame]
      exact hlookup

theorem enlisted_inner {inner : Inner Q} {streams : List QuicStream} (h : Enlisted (s, writers))
    (hwakers : inner.writeWakers = s.inner.writeWakers) (hclosed : inner.closed = s.inner.closed)
    (hstreams : ∀ index identifier, s.identifier? index = some identifier →
      State.identifier? { s with inner := inner, streams := streams } index = some identifier) :
    Enlisted ({ s with inner := inner, streams := streams }, writers) :=
  h.frame (fun _ _ => id) hwakers hclosed hstreams

/-! ### Reading, and the other calls -/

theorem pollRead_writers (g : Inner Q) (stream : QuicStream) (capacity : Nat) (waker : Waker) :
    (g.pollRead stream capacity waker).2.2.writeWakers = g.writeWakers ∧
      (g.pollRead stream capacity waker).2.1.streamIdentifier = stream.streamIdentifier := by
  unfold Inner.pollRead
  split
  · exact ⟨rfl, rfl⟩
  · split
    · exact ⟨rfl, rfl⟩
    · split
      · exact ⟨rfl, rfl⟩
      · exact ⟨rfl, rfl⟩
      · unfold Inner.recheck
        dsimp only
        split <;> exact ⟨rfl, rfl⟩

theorem enlisted_pollRead {index capacity : Nat} {waker : Waker} (h : Enlisted (s, writers))
    (hstep : step s (.pollRead index capacity waker) = some t) : Enlisted (t, writers) := by
  obtain ⟨_, hpoll, rfl⟩ := Option.map_eq_some_iff.mp hstep
  obtain ⟨stream, hstream, rfl⟩ := Option.map_eq_some_iff.mp hpoll
  obtain ⟨hwakers, hsame⟩ := pollRead_writers s.inner stream capacity waker
  obtain ⟨hclosed, _⟩ := pollRead_frame s.inner stream capacity waker
  refine enlisted_inner h hwakers hclosed fun other identifier hid => ?_
  exact (identifier?_set hstream hsame _ other).trans hid

theorem enlisted_check {index : Nat} (h : Enlisted (s, writers)) (hstep : s.check index = some t) :
    Enlisted (t, writers) := by
  obtain ⟨waiter, _, hstep⟩ := Option.bind_eq_some_iff.mp hstep
  obtain ⟨_, hstep⟩ := Option.ite_none_left_eq_some.mp hstep
  obtain rfl := Option.some.inj hstep
  obtain ⟨accepted, hframe⟩ := check_frame s.inner waiter.call
  have hwakers := congrArg Inner.writeWakers hframe
  have hclosed := congrArg Inner.closed hframe
  generalize s.inner.check waiter.call = checked at hwakers hclosed
  obtain ⟨_ | outcome, inner⟩ := checked
  · exact h.frame (fun _ _ => id) hwakers hclosed fun _ _ => id
  · exact h.frame (fun _ _ => id) hwakers hclosed fun _ _ => id

theorem enlisted_step (h : Enlisted (s, writers)) (hC : WritesInTurn (s, writers) l)
    (hstep : step s l = some t) : Enlisted (t, recordWriters s l writers) := by
  cases l with
  | keepalive | flush | sent | resumed | readable | timeout | tryRecv | collect | wake | settle =>
      exact enlisted_drives h (drives_of_driveStep hstep)
  | newStream identifier =>
      cases hstep
      exact h.frame (fun _ _ => id) rfl rfl fun _ _ hid => identifier?_append hid _
  | clone index =>
      obtain ⟨stream, _, rfl⟩ := Option.map_eq_some_iff.mp hstep
      exact h.frame (fun _ _ => id) rfl rfl fun _ _ hid => identifier?_append hid _
  | pollRead index capacity waker => exact enlisted_pollRead h hstep
  | pollWrite index length waker =>
      obtain ⟨stream, hstream, rfl⟩ := Option.map_eq_some_iff.mp hstep
      exact enlisted_pollWrite h hC hstream
  | finish index =>
      obtain ⟨stream, _, rfl⟩ := Option.map_eq_some_iff.mp hstep
      unfold Inner.finish
      split
      · exact h
      · exact enlisted_inner h rfl rfl fun _ _ => id
  | cancelWrite index =>
      obtain ⟨stream, hstream, rfl⟩ := Option.map_eq_some_iff.mp hstep
      exact enlisted_cancelWrite h hstream
  | stopRead index =>
      obtain ⟨stream, _, rfl⟩ := Option.map_eq_some_iff.mp hstep
      unfold Inner.stopRead
      split
      · exact h
      · exact enlisted_inner h rfl rfl fun _ _ => id
  | release identifier =>
      cases hstep
      exact enlisted_inner h rfl rfl fun _ _ => id
  | subscribe call =>
      cases hstep
      exact h.frame (fun _ _ => id) rfl rfl fun _ _ => id
  | check index => exact enlisted_check h hstep
  | changed index =>
      obtain ⟨waiter, _, hstep⟩ := Option.bind_eq_some_iff.mp hstep
      obtain ⟨_, ⟨⟩⟩ := Option.ite_none_right_eq_some.mp hstep
      exact h.frame (fun _ _ => id) rfl rfl fun _ _ => id
  | close now =>
      cases hstep
      exact enlisted_clear h (fun _ => rfl) (fun _ _ hp _ => hp) rfl

end Enlisted

/-- What a writer that waits relies on. Once a pass has woken whom it has collected, no writer that
it found waiting waits any longer; and once the connection is closed, none waits at all. -/
structure Written (w : State Q × (Nat → Reader)) : Prop where
  woken : (∀ wakers closed, w.1.phase = .waking wakers closed → wakers = []) →
    ∀ index, (w.2 index).owed = false
  released : (∀ wakers closed, w.1.phase = .waking wakers closed → wakers = []) →
    w.1.inner.closed = true → ∀ index, (w.2 index).waiting = none

theorem Enlisted.written {w : State Q × (Nat → Reader)} (h : Enlisted w) : Written w where
  woken := h.not_owed
  released hphase hclosed index := by
    cases hwaiting : (w.2 index).waiting with
    | none => rfl
    | some waker =>
        cases hid : w.1.identifier? index with
        | none =>
            rw [h.fresh index hid] at hwaiting
            cases hwaiting
        | some identifier =>
            have hlookup := h.enlisted index identifier waker
              ⟨hid, hwaiting, h.not_owed hphase index⟩
            rw [h.closed hclosed] at hlookup
            cases hlookup

/-- **No writer misses a pass.** In every run in which the writers of a stream are one task, a pass
that is over has woken every writer that was waiting when it collected, whether its stream had room
or not; and on a closed connection no writer waits, unless the pass that closed it is still
waking. -/
theorem throughout_written (connection : Q.Connection) (ls : List Label)
    (hturn : Always written WritesInTurn (State.init connection, fun _ => Reader.idle) ls) :
    Throughout written Written (State.init connection, fun _ => Reader.idle) ls := by
  refine throughout_of_always Enlisted (fun w hw => hw.written) ?_ (enlisted_init connection) hturn
  intro w l w' hw hC hstep
  obtain ⟨ht, hrecord⟩ := withHistory_eq_some.mp hstep
  obtain ⟨t, writers'⟩ := w'
  obtain rfl : writers' = _ := hrecord
  exact enlisted_step hw hC ht

/-- With one handle nobody gets in the way. -/
theorem writesInTurn_of_length {w : State Q × (Nat → Reader)} (h : w.1.streams.length ≤ 1)
    (l : Label) : WritesInTurn w l := by
  cases l with
  | pollWrite index length waker =>
      rintro stream hstream _ other waker' hother ⟨hid, _⟩
      obtain ⟨_, hsome, _⟩ := Option.map_eq_some_iff.mp hid
      have hindex := (List.getElem?_eq_some_iff.mp hstream).1
      have hlt := (List.getElem?_eq_some_iff.mp hsome).1
      omega
  | _ => exact trivial

/-- A pass that finds nothing writable, and one that finds the connection closed. -/
def writingRun : List Label :=
  [.newStream 0, .pollWrite 0 10 7, .keepalive true 0, .flush 0, .resumed, .collect, .wake, .settle,
    .pollWrite 0 10 7, .keepalive true 0, .flush 0, .timeout 5, .collect, .wake, .settle]

theorem throughout_written_silent :
    Throughout written Written (State.init (Q := silent) false, fun _ => Reader.idle)
      writingRun := by
  apply throughout_written
  exact always_mono (C := fun w _ => w.1.streams.length ≤ 1)
    (fun _ l h => writesInTurn_of_length h l) (by decide +kernel)

/-! ## The calls that wait on the watch -/

/-- Whether the watch has been bumped since a call went on, or subscribed, and since it looked. -/
structure News where
  unseen : Bool
  unlooked : Bool
  deriving DecidableEq, Repr

/-- The news of each call after a step. A pass that is over and a `close` are news to all. -/
def recordNews (s : State Q) (l : Label) (news : List News) : List News :=
  match l with
  | .subscribe _ => news ++ [⟨false, false⟩]
  | .check index =>
      match s.waiters[index]? with
      | some waiter =>
          if (s.inner.check waiter.call).1.isSome then news.eraseIdx index
          else news.modify index fun n => { n with unlooked := false }
      | none => news
  | .changed index => news.modify index fun n => { n with unseen := false }
  | .settle | .close _ => news.map fun _ => ⟨true, true⟩
  | _ => news

/-- The connection with the news of its calls. -/
def attended : State Q × List News → Label → Option (State Q × List News) :=
  withHistory step recordNews

/-- What a call sees of the watch, and what it has been sent. -/
def Sees (version : Nat) (waiter : Waiter) (news : News) : Prop :=
  (waiter.seen ≠ version ↔ news.unseen = true) ∧
    (waiter.awaiting = true → news.unlooked = true → news.unseen = true)

/-- What a call looks for is there. -/
def Inner.isDue (g : Inner Q) (waiter : Waiter) : Prop :=
  g.closed = true ∨ (g.established = true ∧ waiter.call = .waitEstablished)

structure Informed (w : State Q × List News) : Prop where
  seenBelow : SeenBelow w.1
  sees : List.Forall₂ (Sees w.1.version) w.1.waiters w.2
  due : ∀ waiter ∈ w.1.waiters, waiter.awaiting = true → w.1.inner.isDue waiter →
    waiter.seen ≠ w.1.version ∨ ∃ wakers closed, w.1.phase = .waking wakers closed

section Forall₂

variable {α β : Type} {R : α → β → Prop} {xs : List α} {ys : List β}

theorem forall₂_set (h : List.Forall₂ R xs ys) {index : Nat} {x : α} {f : β → β}
    (hx : ∀ y, ys[index]? = some y → R x (f y)) :
    List.Forall₂ R (xs.set index x) (ys.modify index f) := by
  induction h generalizing index with
  | nil => simp
  | cons hR hrest ih =>
      cases index with
      | zero => exact .cons (hx _ rfl) hrest
      | succ index => exact .cons hR (ih hx)

theorem forall₂_eraseIdx (h : List.Forall₂ R xs ys) (index : Nat) :
    List.Forall₂ R (xs.eraseIdx index) (ys.eraseIdx index) := by
  induction h generalizing index with
  | nil => exact .nil
  | cons hR hrest ih =>
      cases index with
      | zero => exact hrest
      | succ index => exact .cons hR (ih index)

theorem forall₂_getElem? (h : List.Forall₂ R xs ys) {index : Nat} {x : α} {y : β}
    (hx : xs[index]? = some x) (hy : ys[index]? = some y) : R x y := by
  induction h generalizing index with
  | nil => cases hx
  | cons hR _ ih =>
      cases index with
      | zero =>
          cases hx
          cases hy
          exact hR
      | succ index => exact ih hx hy

end Forall₂

section Informed

variable {s t : State Q} {news : List News} {l : Label}

theorem informed_init (connection : Q.Connection) : Informed (State.init connection, []) where
  seenBelow _ hwaiter := absurd hwaiter List.not_mem_nil
  sees := .nil
  due _ hwaiter := absurd hwaiter List.not_mem_nil

/-- A step that the calls know nothing of. -/
theorem Informed.frame (h : Informed (s, news)) (hwaiters : t.waiters = s.waiters)
    (hversion : t.version = s.version)
    (hdue : ∀ waiter, t.inner.isDue waiter → s.inner.isDue waiter ∨
      ∃ wakers closed, t.phase = .waking wakers closed)
    (hphase : ∀ wakers closed, s.phase = .waking wakers closed →
      ∃ wakers' closed', t.phase = .waking wakers' closed') : Informed (t, news) := by
  constructor
  · intro waiter hwaiter
    show waiter.seen ≤ t.version
    rw [hversion]
    exact h.seenBelow waiter (hwaiters ▸ hwaiter)
  · show List.Forall₂ (Sees t.version) t.waiters news
    rw [hwaiters, hversion]
    exact h.sees
  · intro waiter hwaiter hawaiting hnow
    show waiter.seen ≠ t.version ∨ _
    rw [hversion]
    rcases hdue waiter hnow with hbefore | hwaking
    · rcases h.due waiter (hwaiters ▸ hwaiter) hawaiting hbefore with hseen | ⟨wakers, closed, hp⟩
      · exact .inl hseen
      · exact .inr (hphase wakers closed hp)
    · exact .inr hwaking

/-- A step on the streams. -/
theorem informed_inner {inner : Inner Q} (streams : List QuicStream) (h : Informed (s, news))
    (hclosed : inner.closed = s.inner.closed)
    (hestablished : inner.established = s.inner.established) :
    Informed ({ s with inner := inner, streams := streams }, news) := by
  refine h.frame rfl rfl (fun waiter hnow => .inl ?_) fun wakers closed hp => ⟨wakers, closed, hp⟩
  have hnow : inner.isDue waiter := hnow
  unfold Inner.isDue at hnow ⊢
  rw [← hclosed, ← hestablished]
  exact hnow

/-- The watch is bumped. -/
theorem informed_bump (hseen : SeenBelow s) (hlength : s.waiters.length = news.length) :
    Informed (s.bump, news.map fun _ => ⟨true, true⟩) := by
  have hbumped := bumped_bump hseen
  refine ⟨seenBelow_bump hseen, ?_, fun waiter hwaiter _ _ => .inl (hbumped waiter hwaiter)⟩
  rw [List.forall₂_map_right_iff, List.forall₂_iff_zip]
  refine ⟨hlength, fun {waiter n} hpair => ?_⟩
  have hmem : waiter ∈ s.bump.waiters := (List.of_mem_zip hpair).1
  exact ⟨iff_of_true (hbumped waiter hmem) rfl, fun _ _ => rfl⟩

theorem informed_drives (h : Informed (s, news)) (hdrives : Drives s l t) :
    Informed (t, recordNews s l news) := by
  cases hdrives with
  | @move _ phase connection hs hphase hl hmoves =>
      have hsame : recordNews s l news = news := by
        cases l with
        | subscribe | check | changed | settle | close => cases hl
        | _ => rfl
      rw [hsame]
      refine h.frame rfl rfl (fun _ => .inl) fun wakers closed hp => ?_
      rw [hp] at hs
      cases hs
  | failed hp =>
      refine h.frame rfl rfl (fun _ => .inl) fun wakers closed hp' => ?_
      cases hp.symm.trans hp'
  | collect hp => exact h.frame rfl rfl (fun _ _ => .inr ⟨_, _, rfl⟩) fun _ _ _ => ⟨_, _, rfl⟩
  | wake hp => exact h.frame rfl rfl (fun _ => .inl) fun _ _ _ => ⟨_, _, rfl⟩
  | again hp => exact informed_bump (s := { s with phase := .top }) h.seenBelow h.sees.length_eq
  | finish hp =>
      exact informed_bump (s := { s with inner := s.inner.clear, phase := .ended }) h.seenBelow
        h.sees.length_eq

theorem pollRead_established (g : Inner Q) (stream : QuicStream) (capacity : Nat) (waker : Waker) :
    (g.pollRead stream capacity waker).2.2.established = g.established := by
  unfold Inner.pollRead
  split
  · rfl
  · split
    · rfl
    · split
      · rfl
      · rfl
      · unfold Inner.recheck
        dsimp only
        split <;> rfl

theorem pollWrite_established (g : Inner Q) (stream : QuicStream) (length : Nat) (waker : Waker) :
    (g.pollWrite stream length waker).2.established = g.established := by
  unfold Inner.pollWrite
  split
  · rfl
  · split <;> rfl

/-- A call that is left waiting has found nothing, and has changed nothing. -/
theorem check_parked {g : Inner Q} {waiter : Waiter} (h : (g.check waiter.call).1 = none) :
    (g.check waiter.call).2 = g ∧ ¬ g.isDue waiter := by
  unfold Inner.isDue
  cases hcall : waiter.call with
  | waitEstablished =>
      rw [hcall] at h
      unfold Inner.check at h ⊢
      dsimp only at h ⊢
      split at h
      · cases h
      · next hopen =>
        split at h
        · cases h
        · next hnot =>
          rw [if_neg hopen, if_neg hnot]
          refine ⟨rfl, ?_⟩
          rintro (hclosed | ⟨hestablished, _⟩)
          · exact hopen hclosed
          · exact hnot hestablished
  | acceptStream =>
      rw [hcall] at h
      unfold Inner.check at h ⊢
      dsimp only at h ⊢
      split at h
      · cases h
      · next hopen =>
        rw [if_neg hopen]
        split at h
        · cases h
        · refine ⟨rfl, ?_⟩
          rintro (hclosed | ⟨_, hother⟩)
          · exact hopen hclosed
          · cases hother

theorem informed_check {index : Nat} (h : Informed (s, news)) (hstep : s.check index = some t) :
    Informed (t, recordNews s (.check index) news) := by
  obtain ⟨waiter, hwaiter, hstep⟩ := Option.bind_eq_some_iff.mp hstep
  obtain ⟨_, hstep⟩ := Option.ite_none_left_eq_some.mp hstep
  obtain rfl := Option.some.inj hstep
  have hparked : (s.inner.check waiter.call).1 = none → _ := check_parked
  obtain ⟨accepted, hframe⟩ := check_frame s.inner waiter.call
  have hclosed := congrArg Inner.closed hframe
  have hestablished := congrArg Inner.established hframe
  simp only [recordNews, hwaiter]
  generalize s.inner.check waiter.call = checked at hparked hclosed hestablished
  obtain ⟨_ | outcome, inner⟩ := checked
  · obtain ⟨rfl, hnot⟩ := hparked rfl
    show Informed (_, news.modify index fun n => { n with unlooked := false })
    constructor
    · intro other hother
      rcases List.mem_or_eq_of_mem_set hother with hold | rfl
      · exact h.seenBelow other hold
      · exact h.seenBelow waiter (List.mem_of_getElem? hwaiter)
    · refine forall₂_set h.sees fun n hn => ?_
      have hsees := forall₂_getElem? h.sees hwaiter hn
      exact ⟨hsees.1, fun _ hunlooked => by cases hunlooked⟩
    · intro other hother hawaiting hdue
      rcases List.mem_or_eq_of_mem_set hother with hold | rfl
      · exact h.due other hold hawaiting hdue
      · exact absurd hdue hnot
  · show Informed (_, news.eraseIdx index)
    have hmem : ∀ other ∈ s.waiters.eraseIdx index, other ∈ s.waiters :=
      fun other hother => List.mem_of_mem_eraseIdx hother
    constructor
    · exact fun other hother => h.seenBelow other (hmem other hother)
    · exact forall₂_eraseIdx h.sees index
    · intro other hother hawaiting hdue
      apply h.due other (hmem other hother) hawaiting
      have hdue : inner.isDue other := hdue
      unfold Inner.isDue at hdue ⊢
      rw [← hclosed, ← hestablished]
      exact hdue

theorem informed_changed {index : Nat} (h : Informed (s, news)) (hstep : s.changed index = some t) :
    Informed (t, recordNews s (.changed index) news) := by
  obtain ⟨waiter, hwaiter, hstep⟩ := Option.bind_eq_some_iff.mp hstep
  obtain ⟨_, ⟨⟩⟩ := Option.ite_none_right_eq_some.mp hstep
  constructor
  · intro other hother
    rcases List.mem_or_eq_of_mem_set hother with hold | rfl
    · exact h.seenBelow other hold
    · exact Nat.le_refl _
  · refine forall₂_set h.sees fun n hn => ?_
    exact ⟨iff_of_false (fun hne => hne rfl) Bool.false_ne_true, fun h => by cases h⟩
  · intro other hother hawaiting hdue
    rcases List.mem_or_eq_of_mem_set hother with hold | rfl
    · exact h.due other hold hawaiting hdue
    · cases hawaiting

theorem informed_subscribe (call : Call) (h : Informed (s, news)) :
    Informed ({ s with waiters := s.waiters ++ [⟨call, s.version, false⟩] },
      recordNews s (.subscribe call) news) := by
  constructor
  · intro waiter hwaiter
    rcases List.mem_append.mp hwaiter with hold | hnew
    · exact h.seenBelow waiter hold
    · obtain rfl := List.mem_singleton.mp hnew
      exact Nat.le_refl _
  · refine List.rel_append h.sees (.cons ?_ .nil)
    exact ⟨iff_of_false (fun hne => hne rfl) Bool.false_ne_true, fun h => by cases h⟩
  · intro waiter hwaiter hawaiting hdue
    rcases List.mem_append.mp hwaiter with hold | hnew
    · exact h.due waiter hold hawaiting hdue
    · obtain rfl := List.mem_singleton.mp hnew
      cases hawaiting

theorem informed_step (h : Informed (s, news)) (hstep : step s l = some t) :
    Informed (t, recordNews s l news) := by
  cases l with
  | keepalive | flush | sent | resumed | readable | timeout | tryRecv | collect | wake | settle =>
      exact informed_drives h (drives_of_driveStep hstep)
  | newStream identifier =>
      cases hstep
      exact informed_inner _ h rfl rfl
  | clone index =>
      obtain ⟨stream, _, rfl⟩ := Option.map_eq_some_iff.mp hstep
      exact informed_inner _ h rfl rfl
  | pollRead index capacity waker =>
      obtain ⟨_, hpoll, rfl⟩ := Option.map_eq_some_iff.mp hstep
      obtain ⟨stream, _, rfl⟩ := Option.map_eq_some_iff.mp hpoll
      exact informed_inner _ h (pollRead_frame s.inner stream capacity waker).1
        (pollRead_established s.inner stream capacity waker)
  | pollWrite index length waker =>
      obtain ⟨stream, _, rfl⟩ := Option.map_eq_some_iff.mp hstep
      exact informed_inner _ h (pollWrite_frame s.inner stream length waker).1
        (pollWrite_established s.inner stream length waker)
  | finish index =>
      obtain ⟨stream, _, rfl⟩ := Option.map_eq_some_iff.mp hstep
      unfold Inner.finish
      split
      · exact h
      · exact informed_inner _ h rfl rfl
  | cancelWrite index =>
      obtain ⟨stream, _, rfl⟩ := Option.map_eq_some_iff.mp hstep
      unfold Inner.cancelWrite
      split
      · exact h
      · exact informed_inner _ h rfl rfl
  | stopRead index =>
      obtain ⟨stream, _, rfl⟩ := Option.map_eq_some_iff.mp hstep
      unfold Inner.stopRead
      split
      · exact h
      · exact informed_inner _ h rfl rfl
  | release identifier =>
      cases hstep
      exact informed_inner _ h rfl rfl
  | subscribe call =>
      cases hstep
      exact informed_subscribe call h
  | check index => exact informed_check h hstep
  | changed index => exact informed_changed h hstep
  | close now =>
      cases hstep
      exact informed_bump (s := { s with inner := _ }) h.seenBelow h.sees.length_eq

end Informed

/-- What a call that awaits a change relies on: it goes on if and only if there is news, it has news
if a pass is over or the connection was closed since it looked, and, but for a pass that is still
waking, if what it looks for is there. -/
structure GoesOn (w : State Q × List News) : Prop where
  goes_on : ∀ (index : Nat) (waiter : Waiter) (news : News), w.1.waiters[index]? = some waiter →
    w.2[index]? = some news → waiter.awaiting = true →
      ((∃ t, step w.1 (.changed index) = some t) ↔ news.unseen = true) ∧
        (news.unlooked = true → news.unseen = true)
  due : (∀ wakers closed, w.1.phase ≠ .waking wakers closed) →
    ∀ (index : Nat) (waiter : Waiter), w.1.waiters[index]? = some waiter →
      waiter.awaiting = true → w.1.inner.isDue waiter →
        ∃ t, step w.1 (.changed index) = some t
  counted : w.1.waiters.length = w.2.length

theorem changed_iff {s : State Q} {index : Nat} {waiter : Waiter}
    (hwaiter : s.waiters[index]? = some waiter) (hawaiting : waiter.awaiting = true) :
    (∃ t, step s (.changed index) = some t) ↔ waiter.seen ≠ s.version := by
  simp [step, State.changed, hwaiter, hawaiting]

theorem Informed.goesOn {w : State Q × List News} (h : Informed w) : GoesOn w where
  goes_on index waiter news hwaiter hnews hawaiting := by
    obtain ⟨hseen, hlooked⟩ := forall₂_getElem? h.sees hwaiter hnews
    rw [changed_iff hwaiter hawaiting]
    exact ⟨hseen, hlooked hawaiting⟩
  due hphase index waiter hwaiter hawaiting hdue := by
    rw [changed_iff hwaiter hawaiting]
    rcases h.due waiter (List.mem_of_getElem? hwaiter) hawaiting hdue with hseen | ⟨_, _, hp⟩
    · exact hseen
    · exact absurd hp (hphase _ _)
  counted := h.sees.length_eq

/-- **No call misses a pass.** In every run `accept_stream` and `wait_established` go on exactly
when the watch was bumped since they last did, so that what a pass, or `close`, has done since they
looked they look at again; and none is left waiting for a handshake that is over or on a connection
that is closed. -/
theorem throughout_goesOn (connection : Q.Connection) (ls : List Label) :
    Throughout attended GoesOn (State.init connection, []) ls := by
  refine throughout_of_always (C := fun _ _ => True) Informed (fun w hw => hw.goesOn) ?_
    (informed_init connection) (always_of_forall (fun _ _ => trivial) _ ls)
  intro w l w' hw _ hstep
  obtain ⟨ht, hrecord⟩ := withHistory_eq_some.mp hstep
  obtain ⟨t, news'⟩ := w'
  obtain rfl : news' = _ := hrecord
  exact informed_step hw ht

end Libcfd.Edge.Quic.Quiche.Driver
