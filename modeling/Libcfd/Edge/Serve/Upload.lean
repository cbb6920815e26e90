import Libcfd.Edge.Serve.Drain
import Libcfd.Foundation.Machine
import Libcfd.Foundation.Reader

/-!
# A request body that several tasks read

The handler's `Body` reads from a clone of the stream, and so does `drain_unread` once the response
has been sent. A handler may respond before it has read the body, and it still has its `Body` then:
from there on the two read what there is in any order. Where a backend hands the stream out again
once it has been released, `serve_stream` takes what is left of the body for a new request, and
reads it as well.

Either backend keeps a stream of its own, and what both have in common is here: who reads, how far
the drain is, and what the handler and the others have read.
-/

namespace Libcfd.Edge.Serve

open Libcfd.Loop Libcfd.Machine Libcfd.Reader

inductive BodyReader where
  | handler
  | drain
  -- a clone of the stream as it was handed out again
  | server (clone : Nat)
  deriving DecidableEq, Repr

/-- How far `drain_unread` is. -/
inductive DrainTask where
  | unborn
  | reading (drain : Drain)
  -- the loop was left with `gave_up`
  | stopping
  | over
  deriving DecidableEq, Repr

namespace DrainTask

def after : Turn Drain Bool → DrainTask
  | .again drain => .reading drain
  | .leave true => .stopping
  | .leave false => .over

variable {Fault : Type}

/-- A read of the drain is polled; the loop goes on once it is ready. -/
def polled : DrainTask → Polled UInt8 Fault → DrainTask
  | .reading drain, .ready result => after (drain.turn (some (result.map List.length)))
  | task, _ => task

/-- `DRAIN_TIMEOUT` is over. -/
def elapse : DrainTask → Option DrainTask
  | .reading drain => some (after (@Drain.turn Fault drain none))
  | _ => none

end DrainTask

/-- How far an upload is. -/
structure Upload where
  -- what the handler has read
  received : List UInt8
  -- what has been read besides
  others : List UInt8
  -- `stop_read` has had its effect
  stopped : Bool
  task : DrainTask
  -- `serve_requests` has been handed the stream again
  again : Bool
  deriving DecidableEq, Repr

namespace Upload

def start : Upload := ⟨[], [], false, .unborn, false⟩

/-- A reader may be polled: the handler at any time, the drain with its buffer, and a `serve_stream`
once there is another. -/
def reads (u : Upload) : BodyReader → Nat → Bool
  | .handler, _ => true
  | .drain, room =>
      match u.task with
      | .reading _ => room == Drain.bufferSize
      | _ => false
  | .server _, _ => u.again

/-- A reader has got a piece of the body. -/
def add (u : Upload) (piece : List UInt8) : BodyReader → Upload
  | .handler => { u with received := u.received ++ piece }
  | .drain | .server _ => { u with others := u.others ++ piece }

variable {Fault : Type}

/-- A poll returns to a reader. -/
def returned (u : Upload) (polled : Polled UInt8 Fault) : BodyReader → Upload
  | .handler => u.add polled.bytes .handler
  | .server clone => u.add polled.bytes (.server clone)
  | .drain => { u.add polled.bytes .drain with task := u.task.polled polled }

/-- `tokio::task::spawn` in `drain_unread`. -/
def spawn (u : Upload) : Option Upload :=
  match u.task with
  | .unborn => some { u with task := .reading .new }
  | _ => none

def elapse (Fault : Type) (u : Upload) : Option Upload :=
  (@DrainTask.elapse Fault u.task).map fun task => { u with task := task }

/-- The drain calls `stop_read`, which has an effect or has none. -/
def stop (u : Upload) (effect : Bool) : Option Upload :=
  match u.task with
  | .stopping => some { u with stopped := u.stopped || effect, task := .over }
  | _ => none

/-- The stream is handed out again. -/
def accept (u : Upload) : Upload := { u with again := true }

/-- The second `serve_stream` calls `stop_read` when it drains, too. -/
def cut (u : Upload) (effect : Bool) : Option Upload :=
  if u.again then some { u with stopped := u.stopped || effect } else none

/-- The handler has the whole body, or nobody else has read or stopped anything. -/
def IsClear (u : Upload) (body : List UInt8) : Prop := Clear body u.received u.others u.stopped

/-- What has been read, and what is to come, is a division of the body. -/
def IsDivided (u : Upload) (body rest : List UInt8) : Prop :=
  Divided body u.received u.others rest u.stopped

section

variable {u v : Upload} {body rest rest' piece : List UInt8} {reader : BodyReader}

@[simp] theorem add_nil (u : Upload) (reader : BodyReader) : u.add [] reader = u := by
  cases reader <;> simp [add]

theorem isDivided_returned {polled : Polled UInt8 Fault} :
    (u.returned polled reader).IsDivided body rest ↔
      (u.add polled.bytes reader).IsDivided body rest := by
  cases reader <;> rfl

theorem stopped_returned {polled : Polled UInt8 Fault} :
    (u.returned polled reader).stopped = u.stopped := by
  cases reader <;> rfl

/-- The others may take a piece at any time, the handler while it misses nothing. -/
theorem IsDivided.add (h : u.IsDivided body rest) (hpiece : piece ++ rest' = rest)
    (hclear : reader = .handler → u.received ++ rest = body ∨ piece = []) :
    (u.add piece reader).IsDivided body rest' := by
  cases reader with
  | handler => exact Divided.take h hpiece (hclear rfl)
  | drain | server => exact Divided.cede h hpiece

theorem received_add : u.received <+: (u.add piece reader).received := by
  cases reader with
  | handler => exact List.prefix_append _ _
  | drain | server => exact List.prefix_refl _

/-! ## What the steps besides the reads leave alone -/

/-- What has been read, and whether it was stopped, is as before. -/
def Keeps (u v : Upload) : Prop :=
  v.received = u.received ∧ v.others = u.others ∧ v.stopped = u.stopped

theorem keeps_accept (u : Upload) : u.Keeps u.accept := ⟨rfl, rfl, rfl⟩

theorem keeps_spawn (h : u.spawn = some v) : u.Keeps v := by
  unfold spawn at h
  split at h
  · cases h
    exact ⟨rfl, rfl, rfl⟩
  · cases h

theorem keeps_elapse (h : u.elapse Fault = some v) : u.Keeps v := by
  obtain ⟨task, _, rfl⟩ := Option.map_eq_some_iff.mp h
  exact ⟨rfl, rfl, rfl⟩

theorem keeps_stop (h : u.stop false = some v) : u.Keeps v := by
  unfold stop at h
  split at h
  · cases h
    exact ⟨rfl, rfl, Bool.or_false _⟩
  · cases h

theorem keeps_cut (h : u.cut false = some v) : u.Keeps v := by
  obtain ⟨-, ⟨⟩⟩ := Option.ite_none_right_eq_some.mp h
  exact ⟨rfl, rfl, Bool.or_false _⟩

/-- Nothing is returned at the end. -/
theorem keeps_atEnd (u : Upload) (reader : BodyReader) :
    u.Keeps (u.returned (.atEnd : Polled UInt8 Fault) reader) := by
  cases reader with
  | handler => exact ⟨List.append_nil _, rfl, rfl⟩
  | drain | server => exact ⟨rfl, List.append_nil _, rfl⟩

theorem Keeps.add (h : u.Keeps v) : (u.add piece reader).Keeps (v.add piece reader) := by
  obtain ⟨hreceived, hothers, hstopped⟩ := h
  cases reader with
  | handler => exact ⟨congrArg (· ++ piece) hreceived, hothers, hstopped⟩
  | drain | server => exact ⟨hreceived, congrArg (· ++ piece) hothers, hstopped⟩

theorem Keeps.isDivided (h : u.Keeps v) (hdivided : u.IsDivided body rest) :
    v.IsDivided body rest := by
  obtain ⟨hreceived, hothers, hstopped⟩ := h
  rw [IsDivided, hreceived, hothers, hstopped]
  exact hdivided

/-- Nothing comes any more of what was stopped. -/
theorem IsDivided.stop (h : u.IsDivided body rest) (hstop : u.stop true = some v) :
    v.IsDivided body [] ∧ v.stopped = true := by
  unfold Upload.stop at hstop
  split at hstop
  · cases hstop
    refine ⟨?_, Bool.or_true _⟩
    rw [IsDivided, Bool.or_true]
    exact Divided.lose h
  · cases hstop

theorem IsDivided.cut (h : u.IsDivided body rest) (hcut : u.cut true = some v) :
    v.IsDivided body [] ∧ v.stopped = true := by
  obtain ⟨-, ⟨⟩⟩ := Option.ite_none_right_eq_some.mp hcut
  refine ⟨?_, Bool.or_true _⟩
  rw [IsDivided, Bool.or_true]
  exact Divided.lose h

end

/-! ## Uploads that are sound -/

section Sound

variable {State Label : Type} (step : State → Label → Option State) (upload : State → Upload)
  (rest : State → List UInt8)
  (returns : State → Label → Option (BodyReader × Nat × Polled UInt8 Fault))

/-- What a read returns to the handler in this step is right, if it has room for a byte: bytes go on
with the body, the end is the end of the body, and where there is nothing yet, all that the handler
has not read is still to come. -/
def Told (body : List UInt8) (s : State) (l : Label) : Prop :=
  ∀ room polled, returns s l = some (.handler, room, polled) → 0 < room →
    Answers body (upload s).received (rest s) polled

/-- All along a run the handler has read a beginning of the body, and it is told the truth. -/
def Sound (body : List UInt8) (s : State) (ls : List Label) : Prop :=
  Throughout step (fun s => (upload s).received <+: body) s ls ∧
    Always step (Told upload rest returns body) s ls

variable {step upload rest returns}

/-- **An upload is sound** if an invariant says so. -/
theorem sound_of_always {C : State → Label → Prop} {body : List UInt8} (Inv : State → Prop)
    (hbegins : ∀ s, Inv s → (upload s).received <+: body)
    (htold : ∀ s l, Inv s → C s l → Told upload rest returns body s l)
    (hstep : ∀ s l t, Inv s → C s l → step s l = some t → Inv t) {ls : List Label} {s : State}
    (hinv : Inv s) (hC : Always step C s ls) : Sound step upload rest returns body s ls :=
  ⟨throughout_of_always Inv hbegins hstep hinv hC, always_of_invariant Inv htold hstep hinv hC⟩

end Sound

end Upload

end Libcfd.Edge.Serve
