import Libcfd.Edge.Quic.Quiche
import Libcfd.Edge.Serve.Drain
import Libcfd.Edge.Serve.Way

/-!
# What a stream is left as

A `QuicStream` of the quiche backend does nothing when it is dropped: what the code does not stop,
finish or reset stays open. The stream is modelled as what quiche keeps of its two halves, with
everything that may happen to them while it is served; the task and the drain it starts are among
that. `isSettled_iff` says which streams are left settled.
-/

namespace Libcfd.Edge.Serve

open Libcfd.Machine Libcfd.Rpc Libcfd.Origin Libcfd.Stream
open Libcfd.Edge.Quic.Quiche (RecvSide)

/-! ## A stream of the quiche backend -/

/-- What quiche keeps of a stream, and the drain that reads it. -/
structure Halves where
  recv : RecvSide
  finished : Bool
  reset : Bool
  -- `Inner::closed`
  closed : Bool
  drain : Option Drain

/-- What happens on a stream. -/
inductive Label (H : Http) (S : Type) where
  -- the task: a request and its reply
  | perform (event : Program.Event (signature UInt8 IoError (serving H S)))
  -- `pump`, from its call to its return
  | pump (origin : S) (available : Direction → List UInt8) (capacity : Direction → Nat)
      (lingers : Direction → Bool) (steps : List Pump.Label)
  -- another clone reads: that of a handler's body, of `pump` or of the RPC
  | read (room n : Nat)
  -- the drain
  | drain (outcome : Option (Except IoError Nat))
  -- the peer
  | receive (bytes : List UInt8) (fin : Bool)
  | stopSending
  | close

namespace Halves

/-- Nothing has arrived. -/
def fresh : Halves := ⟨.idle, false, false, false, none⟩

/-- The adapter's calls do nothing once the connection is closed. -/
def finish (s : Halves) : Halves := if s.closed then s else { s with finished := true }

def cancelWrite (s : Halves) : Halves := if s.closed then s else { s with reset := true }

def stopRead (s : Halves) : Halves := if s.closed then s else { s with recv := s.recv.stop }

/-- `poll_read` returns `Ok(n)`: quiche has that much, or the FIN, or the end has been read. -/
def MayRead (s : Halves) (room n : Nat) : Prop :=
  s.closed = false ∧ (s.recv.readable = true ∨ s.recv.finRead = true) ∧ n ≤ room ∧
    n ≤ s.recv.unread.length ∧ (n = 0 → room = 0 ∨ s.recv.unread = [])

instance (s : Halves) (room n : Nat) : Decidable (s.MayRead room n) :=
  inferInstanceAs (Decidable (_ ∧ _))

def take (s : Halves) (room n : Nat) : Option Halves :=
  if s.MayRead room n then some { s with recv := s.recv.recv n } else none

/-- The read of a turn of the drain. -/
def pollDrain (s : Halves) : Option (Except IoError Nat) → Option Halves
  | some (.ok n) => s.take Drain.bufferSize n
  | _ => some s

/-- What a turn of the drain leads to. -/
def turn (s : Halves) : Loop.Turn Drain Bool → Halves
  | .again drain => { s with drain := some drain }
  | .leave gaveUp => { if gaveUp then s.stopRead else s with drain := none }

variable {H : Http} {S : Type}

/-- A request of the task other than `pump`. -/
def perform (s : Halves) : Program.Event (signature UInt8 IoError (serving H S)) → Option Halves
  | ⟨.pollRead room, .ok piece⟩ =>
      if piece.val = s.recv.unread.take piece.val.length then s.take room piece.val.length else none
  | ⟨.pollRead _, .error _⟩ => some s
  | ⟨.pollWrite _, _⟩ => some s
  | ⟨.effect op, _⟩ =>
      match op with
      | .http _ | .websocket _ | .tcp _ => some s
      | .pump _ => none
      -- `serve_cloudflared` reads and writes, and closes nothing
      | .serveRpc => some s
      | .cancelWrite => some s.cancelWrite
      | .finish => some s.finish
      | .drainUnread => some { s with drain := some .new }

def step (s : Halves) : Label H S → Option Halves
  | .perform event => s.perform event
  | .pump _ available capacity lingers steps =>
      match run Pump.step (.start available capacity lingers) steps with
      | some pump =>
          if pump.phase = .returned then
            -- `poll_close` of the stream is `finish`
            some (if 0 < (pump.sink .toEdge).closes then s.finish else s)
          else none
      | none => none
  | .read room n => s.take room n
  | .drain outcome => s.drain.bind fun drain =>
      (s.pollDrain outcome).map fun t => t.turn (drain.turn outcome)
  | .receive bytes fin => (s.recv.receive bytes fin).map fun recv => { s with recv := recv }
  -- quiche answers with a reset
  | .stopSending => some { s with reset := true }
  | .close => some { s with closed := true }

/-! ## What settles a half -/

/-- What a step takes off the receive side. -/
def taken : Label H S → Option Nat
  | .perform ⟨.pollRead _, .ok piece⟩ => some piece.val.length
  | .read _ n | .drain (some (.ok n)) => some n
  | _ => none

/-- A read gets to the FIN. -/
def TakesFin (s : Halves) (l : Label H S) : Prop :=
  ∃ n, taken l = some n ∧ s.recv.fin = true ∧ s.recv.unread.length ≤ n

def StartsDrain : Label H S → Prop
  | .perform ⟨.effect .drainUnread, _⟩ => True
  | _ => False

def SettlesWrite : Label H S → Prop
  | .perform ⟨.effect .finish, _⟩ | .perform ⟨.effect .cancelWrite, _⟩ => True
  -- the end of the origin's stream is passed on
  | .pump _ _ _ _ steps => .readEnd .toEdge ∈ steps
  | .stopSending => True
  | _ => False

/-- Nothing is owed on a connection that is closed; nor is a read side that has ended, and a write
side that was finished or reset. -/
def IsSettled (s : Halves) : Prop :=
  s.closed = true ∨ s.recv.ended = true ∧ (s.finished = true ∨ s.reset = true)

/-- The read side has ended, or it will. -/
def ReadSettles (s : Halves) : Prop :=
  s.closed = true ∨ s.recv.ended = true ∨ s.drain.isSome = true

def WriteSettles (s : Halves) : Prop :=
  s.closed = true ∨ s.finished = true ∨ s.reset = true

theorem ended_recv_iff {r : RecvSide} {n : Nat} :
    (r.recv n).ended = true ↔ r.ended = true ∨ r.fin = true ∧ r.unread.length ≤ n := by
  simp only [RecvSide.ended, RecvSide.recv, Bool.or_eq_true, Bool.and_eq_true, decide_eq_true_eq]
  tauto

section Step

variable {s t : Halves} {l : Label H S}

theorem readSettles_take {room n : Nat} (h : s.take room n = some t) :
    ReadSettles t ↔ ReadSettles s ∨ s.recv.fin = true ∧ s.recv.unread.length ≤ n := by
  obtain ⟨-, ⟨⟩⟩ := Option.ite_none_right_eq_some.mp h
  rw [ReadSettles, ReadSettles, ended_recv_iff]
  tauto

theorem takesFin_iff {n : Nat} (h : taken l = some n) :
    TakesFin s l ↔ s.recv.fin = true ∧ s.recv.unread.length ≤ n := by
  constructor
  · rintro ⟨m, hm, hfin⟩
    cases h.symm.trans hm
    exact hfin
  · intro hfin
    exact ⟨n, h, hfin⟩

theorem not_takesFin (h : taken l = none) : ¬ TakesFin s l := by
  rintro ⟨n, hn, _⟩
  rw [h] at hn
  cases hn

theorem readSettles_finish : ReadSettles s.finish ↔ ReadSettles s := by
  unfold finish
  split <;> rfl

theorem readSettles_cancelWrite : ReadSettles s.cancelWrite ↔ ReadSettles s := by
  unfold cancelWrite
  split <;> rfl

/-- Whichever way a drain goes on, the read side ends. -/
theorem readSettles_turn (drain : Drain) {outcome : Option (Except IoError Nat)}
    (h : s.pollDrain outcome = some t) :
    ReadSettles (t.turn (drain.turn outcome)) := by
  cases hturn : drain.turn outcome with
  | again next => exact .inr (.inr rfl)
  | leave gaveUp =>
      cases gaveUp with
      | true =>
          cases hclosed : t.closed with
          | true =>
              refine .inl ?_
              simp [turn, stopRead, hclosed]
          | false =>
              refine .inr (.inl ?_)
              simp [turn, stopRead, hclosed, RecvSide.ended_stop]
      | false =>
          -- the end of the stream was read
          cases Drain.eq_end_of_turn hturn
          obtain ⟨⟨_, hread, _, _, hempty⟩, ⟨⟩⟩ := Option.ite_none_right_eq_some.mp h
          have hunread : s.recv.unread = [] := (hempty rfl).resolve_left (by decide)
          refine .inr (.inl (ended_recv_iff.mpr ?_))
          rcases hread with hreadable | hfin
          · right
            simp only [RecvSide.readable, hunread] at hreadable
            simp_all
          · left
            simp [RecvSide.ended, hfin]

theorem readSettles_perform {event : Program.Event (signature UInt8 IoError (serving H S))}
    (h : s.perform event = some t) :
    ReadSettles t ↔ ReadSettles s ∨ TakesFin s (.perform event) ∨
      StartsDrain (.perform event : Label H S) := by
  obtain ⟨op, reply⟩ := event
  cases op with
  | pollRead room =>
      cases reply with
      | error e =>
          cases h
          exact (or_iff_left (not_or.mpr ⟨not_takesFin rfl, id⟩)).symm
      | ok piece =>
          obtain ⟨-, htake⟩ := Option.ite_none_right_eq_some.mp h
          rw [readSettles_take htake, takesFin_iff rfl, or_iff_left (show ¬ StartsDrain _ from id)]
  | pollWrite symbols =>
      cases h
      exact (or_iff_left (not_or.mpr ⟨not_takesFin rfl, id⟩)).symm
  | effect op =>
      cases op with
      | pump => cases h
      | drainUnread =>
          cases h
          exact iff_of_true (.inr (.inr rfl)) (.inr (.inr trivial))
      | finish =>
          cases h
          exact readSettles_finish.trans (or_iff_left (not_or.mpr ⟨not_takesFin rfl, id⟩)).symm
      | cancelWrite =>
          cases h
          exact readSettles_cancelWrite.trans
            (or_iff_left (not_or.mpr ⟨not_takesFin rfl, id⟩)).symm
      | _ =>
          cases h
          exact (or_iff_left (not_or.mpr ⟨not_takesFin rfl, id⟩)).symm

theorem ended_receive {r r' : RecvSide} {bytes : List UInt8} {fin : Bool}
    (h : r.receive bytes fin = some r') : r'.ended = true ↔ r.ended = true := by
  refine ⟨fun he => ?_, RecvSide.ended_of_receive h⟩
  unfold RecvSide.receive at h
  split at h
  · cases h
  · cases h
    simpa [RecvSide.ended] using Or.inr (by simpa [RecvSide.ended] using he)

theorem readSettles_step (h : s.step l = some t) :
    ReadSettles t ↔ ReadSettles s ∨ (TakesFin s l ∨ StartsDrain l) ∨ l = .close := by
  have hneither : ∀ {l : Label H S}, taken l = none → ¬ StartsDrain l → l ≠ .close →
      (ReadSettles s ↔ ReadSettles s ∨ (TakesFin s l ∨ StartsDrain l) ∨ l = .close) := by
    intro l htaken hstarts hclose
    exact (or_iff_left (not_or.mpr ⟨not_or.mpr ⟨not_takesFin htaken, hstarts⟩, hclose⟩)).symm
  cases l with
  | perform event =>
      rw [readSettles_perform h, or_iff_left (show (.perform event : Label H S) ≠ .close from nofun)]
  | pump origin available capacity lingers steps =>
      refine Iff.trans ?_ (hneither rfl id nofun)
      simp only [step] at h
      split at h
      · obtain ⟨-, ⟨⟩⟩ := Option.ite_none_right_eq_some.mp h
        split
        · exact readSettles_finish
        · rfl
      · cases h
  | read room n =>
      rw [readSettles_take h, takesFin_iff rfl, or_iff_left (show ¬ StartsDrain _ from id),
        or_iff_left (show (.read room n : Label H S) ≠ .close from nofun)]
  | drain outcome =>
      obtain ⟨drain, hdrain, hturn⟩ := Option.bind_eq_some_iff.mp h
      obtain ⟨polled, hpoll, rfl⟩ := Option.map_eq_some_iff.mp hturn
      refine iff_of_true (readSettles_turn drain hpoll) (.inl (.inr (.inr ?_)))
      rw [hdrain]
      rfl
  | receive bytes fin =>
      obtain ⟨recv, hreceive, rfl⟩ := Option.map_eq_some_iff.mp h
      refine Iff.trans ?_ (hneither rfl id nofun)
      rw [ReadSettles, ReadSettles, ended_receive hreceive]
  | stopSending =>
      cases h
      exact hneither rfl id nofun
  | close =>
      cases h
      exact iff_of_true (.inl rfl) (.inr (.inr rfl))

theorem writeSettles_finish : WriteSettles s.finish := by
  unfold finish
  split
  · next hclosed => exact .inl hclosed
  · exact .inr (.inl rfl)

theorem writeSettles_cancelWrite : WriteSettles s.cancelWrite := by
  unfold cancelWrite
  split
  · next hclosed => exact .inl hclosed
  · exact .inr (.inr rfl)

theorem writeSettles_take {room n : Nat} (h : s.take room n = some t) :
    WriteSettles t ↔ WriteSettles s := by
  obtain ⟨-, ⟨⟩⟩ := Option.ite_none_right_eq_some.mp h
  rfl

theorem writeSettles_turn (turned : Loop.Turn Drain Bool) :
    WriteSettles (s.turn turned) ↔ WriteSettles s := by
  cases turned with
  | again drain => rfl
  | leave gaveUp =>
      cases gaveUp with
      | false => rfl
      | true =>
          show WriteSettles { s.stopRead with drain := none } ↔ WriteSettles s
          unfold stopRead
          split <;> rfl

/-- The end of the origin's stream is passed on if and only if `pump` has read it. -/
theorem closes_iff_readEnd {available : Direction → List UInt8} {capacity : Direction → Nat}
    {lingers : Direction → Bool} {steps : List Pump.Label} {pump : Pump}
    (h : run Pump.step (.start available capacity lingers) steps = some pump) (d : Direction) :
    0 < (pump.sink d).closes ↔ .readEnd d ∈ steps := by
  rw [((Pump.faithful_run h).kept d).closes_eq, List.count_pos_iff]

theorem writeSettles_step (h : s.step l = some t) :
    WriteSettles t ↔ WriteSettles s ∨ SettlesWrite l ∨ l = .close := by
  have hneither : ∀ {l : Label H S}, ¬ SettlesWrite l → l ≠ .close →
      (WriteSettles s ↔ WriteSettles s ∨ SettlesWrite l ∨ l = .close) := fun hsettles hclose =>
    (or_iff_left (not_or.mpr ⟨hsettles, hclose⟩)).symm
  cases l with
  | perform event =>
      obtain ⟨op, reply⟩ := event
      cases op with
      | pollRead room =>
          cases reply with
          | error e =>
              cases h
              exact hneither id nofun
          | ok piece =>
              obtain ⟨-, htake⟩ := Option.ite_none_right_eq_some.mp h
              exact (writeSettles_take htake).trans (hneither id nofun)
      | pollWrite symbols =>
          cases h
          exact hneither id nofun
      | effect op =>
          cases op with
          | pump => cases h
          | finish =>
              cases h
              exact iff_of_true writeSettles_finish (.inr (.inl trivial))
          | cancelWrite =>
              cases h
              exact iff_of_true writeSettles_cancelWrite (.inr (.inl trivial))
          | _ =>
              cases h
              exact hneither id nofun
  | pump origin available capacity lingers steps =>
      simp only [step] at h
      split at h
      · next pump hrun =>
        obtain ⟨-, ⟨⟩⟩ := Option.ite_none_right_eq_some.mp h
        split
        · next hcloses =>
          have hend := (closes_iff_readEnd hrun .toEdge).mp hcloses
          exact iff_of_true writeSettles_finish (.inr (.inl hend))
        · next hcloses =>
          exact hneither (fun hend => hcloses ((closes_iff_readEnd hrun .toEdge).mpr hend)) nofun
      · cases h
  | read room n => exact (writeSettles_take h).trans (hneither id nofun)
  | drain outcome =>
      obtain ⟨drain, -, hturn⟩ := Option.bind_eq_some_iff.mp h
      obtain ⟨polled, hpoll, rfl⟩ := Option.map_eq_some_iff.mp hturn
      refine (writeSettles_turn _).trans (Iff.trans ?_ (hneither id nofun))
      match outcome with
      | some (.ok n) => exact writeSettles_take hpoll
      | some (.error _) =>
          cases hpoll
          rfl
      | none =>
          cases hpoll
          rfl
  | receive bytes fin =>
      obtain ⟨recv, -, rfl⟩ := Option.map_eq_some_iff.mp h
      exact hneither id nofun
  | stopSending =>
      cases h
      exact iff_of_true (.inr (.inr rfl)) (.inr (.inl trivial))
  | close =>
      cases h
      exact iff_of_true (.inl rfl) (.inr (.inr rfl))

end Step

/-! ## A whole run -/

/-- The requests of the task. -/
def request : Label H S → Option (Program.Event (signature UInt8 IoError (serving H S)))
  | .perform event => some event
  | .pump origin _ _ _ _ => some ⟨.effect (.pump origin), .ok ()⟩
  | _ => none

def performed (ls : List (Label H S)) :
    List (Program.Event (signature UInt8 IoError (serving H S))) :=
  ls.filterMap request

/-- Somebody reads up to the FIN. -/
def ReachesFin (ls : List (Label H S)) : Prop := Sometime step TakesFin fresh ls

/-- `pump` reads the end of the origin's stream. -/
def OriginEnds (ls : List (Label H S)) : Prop :=
  ∃ origin available capacity lingers steps,
    .pump origin available capacity lingers steps ∈ ls ∧ .readEnd .toEdge ∈ steps

section Run

variable {ls : List (Label H S)} {s : Halves}

theorem mem_requested_iff {op : ServeOp H S} (hop : ∀ origin, op ≠ .pump origin) :
    op ∈ requested (performed ls) ↔ ∃ reply, .perform ⟨.effect op, reply⟩ ∈ ls := by
  constructor
  · intro hmem
    obtain ⟨event, hevent, rfl⟩ := List.mem_map.mp hmem
    obtain ⟨⟨op, reply⟩, hperformed, heq⟩ := List.mem_filterMap.mp hevent
    cases op with
    | effect op =>
        cases heq
        obtain ⟨l, hl, hrequest⟩ := List.mem_filterMap.mp hperformed
        cases l with
        | perform event =>
            cases hrequest
            exact ⟨reply, hl⟩
        | pump origin =>
            cases hrequest
            exact absurd rfl (hop origin)
        | _ => cases hrequest
    | _ => cases heq
  · rintro ⟨reply, hmem⟩
    refine List.mem_map.mpr ⟨⟨op, reply⟩, List.mem_filterMap.mpr ?_, rfl⟩
    exact ⟨⟨.effect op, reply⟩, List.mem_filterMap.mpr ⟨_, hmem, rfl⟩, rfl⟩

theorem startsDrain_iff :
    (∃ l ∈ ls, StartsDrain l) ↔ .drainUnread ∈ requested (performed ls) := by
  rw [mem_requested_iff nofun]
  constructor
  · rintro ⟨l, hl, hstarts⟩
    unfold StartsDrain at hstarts
    split at hstarts
    · exact ⟨_, hl⟩
    · exact hstarts.elim
  · rintro ⟨reply, hl⟩
    exact ⟨_, hl, trivial⟩

theorem settlesWrite_iff :
    (∃ l ∈ ls, SettlesWrite l) ↔
      (.finish ∈ requested (performed ls) ∨ .cancelWrite ∈ requested (performed ls)) ∨
        OriginEnds ls ∨ .stopSending ∈ ls := by
  rw [mem_requested_iff nofun, mem_requested_iff nofun]
  constructor
  · rintro ⟨l, hl, hsettles⟩
    unfold SettlesWrite at hsettles
    split at hsettles
    · exact .inl (.inl ⟨_, hl⟩)
    · exact .inl (.inr ⟨_, hl⟩)
    · exact .inr (.inl ⟨_, _, _, _, _, hl, hsettles⟩)
    · exact .inr (.inr hl)
    · exact hsettles.elim
  · rintro ((⟨reply, hl⟩ | ⟨reply, hl⟩) | ⟨origin, available, capacity, lingers, steps, hl, hend⟩ |
      hl)
    · exact ⟨_, hl, trivial⟩
    · exact ⟨_, hl, trivial⟩
    · exact ⟨_, hl, hend⟩
    · exact ⟨_, hl, trivial⟩

theorem close_iff : (∃ l ∈ ls, l = .close) ↔ .close ∈ ls := by simp

theorem readSettles_run (h : run step fresh ls = some s) :
    ReadSettles s ↔
      (ReachesFin ls ∨ .drainUnread ∈ requested (performed ls)) ∨ .close ∈ ls := by
  have hfresh : ¬ ReadSettles fresh := by simp [ReadSettles, fresh, RecvSide.ended, RecvSide.idle]
  rw [run_iff_sometime (fun _ _ _ => readSettles_step) h, or_iff_right hfresh, sometime_or,
    sometime_or, sometime_label h, sometime_label h, startsDrain_iff, close_iff, ReachesFin]

theorem writeSettles_run (h : run step fresh ls = some s) :
    WriteSettles s ↔
      ((.finish ∈ requested (performed ls) ∨ .cancelWrite ∈ requested (performed ls)) ∨
        OriginEnds ls ∨ .stopSending ∈ ls) ∨ .close ∈ ls := by
  have hfresh : ¬ WriteSettles fresh := by simp [WriteSettles, fresh]
  rw [run_iff_sometime (fun _ _ _ => writeSettles_step) h, or_iff_right hfresh, sometime_or,
    sometime_label h, sometime_label h, settlesWrite_iff, close_iff]

theorem isSettled_iff_settles (hdrain : s.drain = none) :
    IsSettled s ↔ ReadSettles s ∧ WriteSettles s := by
  rw [IsSettled, ReadSettles, WriteSettles, hdrain]
  simp only [Option.isSome_none, Bool.false_eq_true, or_false]
  tauto

variable {T : SegmentTable} {C : QuicCapnp T} {origin : Origin H S} {id : Nat}
  {result : Except Error Unit}

/-- **Which streams are left settled**, once the task and the drain have ended: the read side only
if the whole response to an HTTP request went out, or if somebody happened to read up to the FIN;
the write side only if an HTTP request was answered, if an error message was written in full, if
`pump` read the end of the origin's stream, or if the edge wanted no more. -/
theorem isSettled_iff_way (hexec : Program.Exec (serveStream C origin id) (performed ls) result)
    (hrun : run step fresh ls = some s) (hdrain : s.drain = none) :
    (∃ second way, Goes C origin id (performed ls) second way result) ∧
    ∀ second way, Goes C origin id (performed ls) second way result →
      (IsSettled s ↔ .close ∈ ls ∨
        (way.IsDrained second ∨ ReachesFin ls) ∧
          (way.IsClosed second ∨ OriginEnds ls ∨ .stopSending ∈ ls)) := by
  refine ⟨exists_goes hexec, fun second way hgoes => ?_⟩
  obtain ⟨hdrained, hclosed⟩ := requests_of_goes hgoes
  rw [isSettled_iff_settles hdrain, readSettles_run hrun, writeSettles_run hrun, hdrained, hclosed,
    ← and_or_right, or_comm, @or_comm (ReachesFin ls)]

end Run

/-! ### Streams, served -/

/-- The whole request is there. -/
structure Holds (s : Halves) (input : List UInt8) : Prop where
  unread : s.recv.unread = input
  fin : s.recv.fin = true
  stopped : s.recv.stopped = false
  closed : s.closed = false

theorem Holds.mayRead {s : Halves} {piece more : List UInt8} (h : s.Holds (piece ++ more))
    {room : Nat} (hroom : piece.length ≤ room)
    (hempty : piece = [] → room = 0 ∨ piece ++ more = []) : s.MayRead room piece.length := by
  refine ⟨h.closed, ?_, hroom, ?_, fun hzero => ?_⟩
  · cases hfin : s.recv.finRead with
    | true => exact .inr rfl
    | false =>
        left
        simp [RecvSide.readable, h.stopped, h.fin, hfin]
  · rw [h.unread, List.length_append]
    exact Nat.le_add_right ..
  · rw [h.unread]
    exact hempty (List.length_eq_zero_iff.mp hzero)

theorem Holds.finish {s : Halves} {input : List UInt8} (h : s.Holds input) :
    s.finish.Holds input := by
  have heq : s.finish = { s with finished := true } := by simp [Halves.finish, h.closed]
  rw [heq]
  exact ⟨h.unread, h.fin, h.stopped, h.closed⟩

theorem Holds.cancelWrite {s : Halves} {input : List UInt8} (h : s.Holds input) :
    s.cancelWrite.Holds input := by
  have heq : s.cancelWrite = { s with reset := true } := by simp [Halves.cancelWrite, h.closed]
  rw [heq]
  exact ⟨h.unread, h.fin, h.stopped, h.closed⟩

/-- A stream that has the whole request serves any trace that reads it in order. -/
theorem exists_run_perform {input rest : List UInt8}
    {trace : List (Program.Event (signature UInt8 IoError (serving H S)))}
    (hdelivers : Delivers input trace rest) (hpump : ∀ origin, .pump origin ∉ requested trace)
    {s : Halves} (hs : s.Holds input) : ∃ t, run step s (trace.map Label.perform) = some t := by
  induction trace generalizing input s with
  | nil => exact ⟨s, rfl⟩
  | cons event trace ih =>
      have hmore : ∀ origin, .pump origin ∉ requested trace := fun origin hmem =>
        hpump origin ((requested_append [event] trace).symm ▸ List.mem_append_right _ hmem)
      -- a step that leaves the request alone
      have hstep : ∀ {u : Halves} {middle : List UInt8},
          s.step (Label.perform event : Label H S) = some u → u.Holds middle →
            Delivers middle trace rest →
            ∃ t, run step s (List.map Label.perform (event :: trace)) = some t := by
        intro u middle hu hholds htail
        obtain ⟨t, ht⟩ := ih htail hmore hholds
        exact ⟨t, run_cons_eq_some.mpr ⟨u, hu, ht⟩⟩
      obtain ⟨op, reply⟩ := event
      cases op with
      | pollRead room =>
          obtain ⟨piece, hlength, more, rfl, rfl, hempty, htail⟩ := hdelivers
          have htake : s.recv.unread.take piece.length = piece := by
            rw [hs.unread, List.take_left]
          have hnext : s.step (.perform ⟨.pollRead room, .ok ⟨piece, hlength⟩⟩ : Label H S) =
              some { s with recv := s.recv.recv piece.length } :=
            (if_pos htake.symm).trans (if_pos (hs.mayRead hlength hempty))
          refine hstep hnext ⟨?_, hs.fin, hs.stopped, hs.closed⟩ htail
          show s.recv.unread.drop piece.length = more
          rw [hs.unread, List.drop_left]
      | pollWrite symbols => exact hstep rfl hs hdelivers
      | effect op =>
          cases op with
          | pump origin => exact absurd List.mem_cons_self (hpump origin)
          | finish => exact hstep rfl hs.finish hdelivers
          | cancelWrite => exact hstep rfl hs.cancelWrite hdelivers
          | drainUnread =>
              exact hstep rfl ⟨hs.unread, hs.fin, hs.stopped, hs.closed⟩ hdelivers
          | _ => exact hstep rfl hs hdelivers

theorem performed_map (trace : List (Program.Event (signature UInt8 IoError (serving H S)))) :
    performed (trace.map Label.perform) = trace := by
  rw [performed, List.filterMap_map]
  exact List.filterMap_some ..

/-- Whoever waits for a drain may see it time out. -/
theorem exists_run_drained {ls : List (Label H S)} {s : Halves} (h : run step fresh ls = some s) :
    ∃ ls' t, run step fresh ls' = some t ∧ performed ls' = performed ls ∧ t.drain = none := by
  cases hdrain : s.drain with
  | none => exact ⟨ls, s, h, rfl, hdrain⟩
  | some drain =>
      refine ⟨ls ++ [.drain none], s.turn (.leave true), run_append_eq_some.mpr ⟨s, h, ?_⟩, ?_, rfl⟩
      · rw [run_cons, step, hdrain]
        rfl
      · rw [performed, List.filterMap_append]
        exact List.append_nil _

/-- An HTTP request is answered, and both halves are settled. -/
theorem isSettled_response :
    ∃ ls s second way result, run step fresh ls = some s ∧ s.drain = none ∧
      Goes plainCapnp greedyOrigin 4 (performed ls) second way result ∧
      way.IsDrained second ∧ way.IsClosed second ∧ s.IsSettled := by
  have hserved : ∃ trace result rest,
      Program.Exec (serveStream plainCapnp greedyOrigin 4) trace result ∧
        Delivers (opening plainRequestFrame ++ [1, 2, 3, 4]) trace rest ∧ Accepts trace := by
    obtain ⟨trace, hserved⟩ := exists_exec_of_runOn idle (serveStream plainCapnp greedyOrigin 4)
      { input := opening plainRequestFrame ++ [1, 2, 3, 4], output := [],
        splits := fun _ => 1, polls := 0 }
    exact ⟨trace, _, _, hserved⟩
  obtain ⟨trace, result, rest, hexec, hdelivers, haccepts⟩ := hserved
  obtain ⟨second, way, hgoes⟩ := exists_goes hexec
  obtain ⟨first, rfl, hway, hconclude⟩ := id hgoes
  obtain ⟨middle, hfirst, -⟩ := delivers_append_iff.mp hdelivers
  obtain ⟨call, polls, answer, hhttp, rfl⟩ := exec_wayOf_http lawful_plainCapnp
    (QuicCapnp.serializeRequest_single ..) rfl ⟨_, rfl⟩ hway hfirst
  obtain ⟨response, rfl, hending⟩ :
      ∃ response, answer = .ok response ∧ response.body.ending = .ok () := by
    obtain ⟨_, _, _, _, _, hanswer⟩ := Program.exec_bind_iff.mp hhttp
    exact ⟨_, (Program.exec_done_iff.mp hanswer).2, rfl⟩
  have hsecond : Accepts second := (accepts_append_iff.mp haccepts).2
  have hdrained : (Way.responds response : Way Http.ofLists Unit).IsDrained second :=
    ⟨hsecond, hending⟩
  have hpump : ∀ origin, .pump origin ∉ requested (first ++ second) := by
    intro origin hmem
    rw [requested_append, List.mem_append] at hmem
    rcases hmem with hmem | hmem
    · exact isInvocation_of_wayOf hway _ hmem
    · have hreplied := (exec_respondHttp hconclude hsecond).2
      rw [hending] at hreplied
      have hrequested : requested second = [.drainUnread, .finish] := by
        rw [requested, hreplied.1]
        rfl
      rw [hrequested] at hmem
      simp at hmem
  obtain ⟨s, hrun⟩ := exists_run_perform hdelivers hpump
    (s := ⟨⟨opening plainRequestFrame ++ [1, 2, 3, 4], true, false, false, by simp, by simp, by simp⟩,
      false, false, false, none⟩) ⟨rfl, rfl, rfl, rfl⟩
  have hall : run step fresh (.receive (opening plainRequestFrame ++ [1, 2, 3, 4]) true ::
      (first ++ second).map Label.perform) = some s :=
    run_cons_eq_some.mpr ⟨_, rfl, hrun⟩
  obtain ⟨ls, t, hls, hperformed, hdrain⟩ := exists_run_drained hall
  have htrace : performed ls = first ++ second := hperformed.trans (performed_map _)
  rw [← htrace] at hexec hgoes
  refine ⟨ls, t, second, _, result, hls, hdrain, hgoes, hdrained, trivial, ?_⟩
  exact ((isSettled_iff_way hexec hls hdrain).2 second _ hgoes).mpr
    (.inr ⟨.inl hdrained, .inl trivial⟩)

/-- Eight bytes that are no signature, and what serving them leaves: nobody reads on, and nobody
tells the edge. -/
theorem unsettled_unknown_signature :
    ∃ ls s result, run step fresh (ls : List (Label Http.ofLists Unit)) = some s ∧
      Program.Exec (serveStream plainCapnp greedyOrigin 4) (performed ls) result ∧
      s.drain = none ∧ s.closed = false ∧ s.recv.ended = false ∧ s.finished = false ∧
      s.reset = false ∧ ¬ s.IsSettled := by
  obtain ⟨next, heq, -, -, hpiece⟩ :=
    run_readExactFrom (E := serving Http.ofLists Unit) [] (show 6 ≠ 0 from nofun)
  have hread : (readExact (E := serving Http.ofLists Unit) 6).run = reading 6 next := heq
  refine ⟨[.receive [0, 0, 0, 0, 0, 0, 0, 0] false,
    .perform ⟨.pollRead 6, .ok ⟨[0, 0, 0, 0, 0, 0], by decide⟩⟩], _,
    .error (.quic ("stream " ++ toString 4 ++ " has no data-stream signature")), rfl, ?_, rfl, rfl,
    rfl, rfl, rfl, ?_⟩
  · rw [serveStream, openStream, question, hread]
    refine Program.exec_request_iff.mpr ⟨_, [], rfl, ?_⟩
    have hnext : next (.ok ⟨[0, 0, 0, 0, 0, 0], by decide⟩) = .done (.ok [0, 0, 0, 0, 0, 0]) :=
      (hpiece [0, 0, 0, 0, 0, 0] (by decide) nofun).trans (run_readExactFrom_zero _)
    dsimp only
    rw [hnext]
    exact .done _
  · rintro (hclosed | ⟨hended, -⟩)
    · exact absurd hclosed Bool.false_ne_true
    · exact absurd hended Bool.false_ne_true

end Halves

end Libcfd.Edge.Serve
