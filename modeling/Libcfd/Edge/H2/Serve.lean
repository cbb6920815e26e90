import Libcfd.Edge.H2.Register
import Libcfd.Foundation.Machine

/-!
# `H2EdgeConnection::serve`

The accept loop, the control task and the stream tasks of one HTTP/2 edge connection as a machine.
The h2 connection reads and writes its socket only while `serve` polls `accept()`, that is while
`serve` is inside its `select!`: `flush` and the two deliveries, the only labels that move bytes,
are enabled there and nowhere else.
-/

namespace Libcfd.Edge.H2

open Libcfd.Machine

/-- A task of the `JoinSet`; which handler it runs does not matter here. -/
structure StreamTask where
  identifier : Nat
  -- the request has been handed to an origin handler
  dispatched : Bool
  -- the task waits for bytes, or for window, from the edge
  awaiting : Bool
  deriving DecidableEq, Repr

inductive Phase where
  -- between two rounds of the `select!`
  | looping
  -- inside the `select!` entered at this instant
  | selecting (entered : Nat) (shutdown : Notified)
  | drainingStreams (deadline : Nat)
  | drainingControl (deadline : Nat)
  | returned (result : Except Error Unit)
  -- the future was dropped
  | aborted
  deriving DecidableEq, Repr

structure Serve where
  now : Nat
  -- when the shutdown event fired, if it did so before `serve` was over
  firedAt : Option Nat
  phase : Phase
  registrationDone : Bool
  controlTask : Option ControlTask
  streamTasks : List StreamTask
  -- what the tasks have queued and the connection has not written yet
  outbox : List Chunk
  wire : List Chunk
  deriving DecidableEq, Repr

inductive StreamLabel where
  | dispatch
  | queue
  | await
  | finish
  deriving DecidableEq, Repr

inductive Label where
  -- `notify_waiters` on the shutdown event
  | fire
  | elapse (nanos : Nat)
  | select
  -- the ready branches of the `select!`
  | acceptControl
  | acceptStream (identifier : Nat)
  | connectionError (message : String)
  | connectionClosed
  | registrationRead
  | registrationTimedOut
  | shutdown
  -- the two bounded waits after it
  | streamsJoined
  | streamsElapsed
  | controlJoined
  | controlElapsed
  -- the connection at work
  | flush (index : Nat)
  | deliverControl
  | deliverStream (index : Nat)
  -- the tasks
  | control (label : ControlLabel)
  | stream (index : Nat) (label : StreamLabel)
  deriving DecidableEq, Repr

/-- `control::RPC_TIMEOUT`. -/
def rpcTimeout : Nat := 5000000000

def Phase.wake : Phase → Phase
  | .selecting entered shutdown => .selecting entered shutdown.wake
  | phase => phase

/-- `serve` is over. -/
def Phase.isOver : Phase → Bool
  | .returned _ | .aborted => true
  | _ => false

/-- `serve` is in its accept loop: the connection is being polled. -/
def Phase.isPolling : Phase → Bool
  | .looping | .selecting .. => true
  | _ => false

namespace Serve

def init : Serve where
  now := 0
  firedAt := none
  phase := .looping
  registrationDone := false
  controlTask := none
  streamTasks := []
  outbox := []
  wire := []

/-- The shutdown event fires. -/
def wake (s : Serve) : Serve :=
  if s.phase.isOver then s
  else { s with phase := s.phase.wake, firedAt := s.firedAt.or (some s.now) }

def wakeControl (s : Serve) : Serve :=
  { s with controlTask := s.controlTask.map .wake }

/-- A `return` of `serve`: the `JoinSet` and with it every stream task is dropped, and so is the
connection. The control task is detached. -/
def finish (result : Except Error Unit) (s : Serve) : Serve :=
  { s with phase := .returned result, streamTasks := [] }

/-- The `return`s inside the loop notify the control task first. -/
def leave (result : Except Error Unit) (s : Serve) : Serve :=
  s.wakeControl.finish result

/-- The future is dropped where it stands. -/
def abort (s : Serve) : Serve :=
  if s.phase.isOver then s else { s with phase := .aborted, streamTasks := [] }

/-- After the stream tasks: the control task's turn, if there is one. -/
def drainControl (grace : Nat) (s : Serve) : Serve :=
  match s.controlTask with
  | none => s.finish (.ok ())
  | some _ => { s with phase := .drainingControl (s.now + grace) }

/-- What the `select!` does with the outcome of registration. -/
def readRegistration (s : Serve) : Registration → Option Serve
  | .pending => none
  | .sent (.ok ()) => some { s with phase := .looping, registrationDone := true }
  | .sent (.error e) => some (s.leave (.error e))
  | .dropped => some (s.leave (.error (.h2 "control stream ended before registration")))

/-- One step of a stream task, with the bytes it queues; `none` for a task that is over. -/
def streamStep (now : Nat) (task : StreamTask) :
    StreamLabel → Option (Option StreamTask × List Chunk)
  | .dispatch => if task.dispatched then none else some (some { task with dispatched := true }, [])
  | .queue => if task.awaiting then none else some (some task, [⟨now⟩])
  | .await => if task.awaiting then none else some (some { task with awaiting := true }, [])
  | .finish => some (none, [])

def replaceStream (tasks : List StreamTask) (index : Nat) : Option StreamTask → List StreamTask
  | some task => tasks.set index task
  | none => tasks.eraseIdx index

/-- The steps of `serve` inside its `select!`. -/
def selectStep (grace : Nat) (s : Serve) (entered : Nat) (notified : Notified) :
    Label → Option Serve
  | .acceptControl =>
      match s.controlTask with
      | none => some { s with phase := .looping, controlTask := some .spawned }
      -- a second control stream is answered with a 400
      | some _ => some { s with phase := .looping }
  | .acceptStream identifier =>
      some { s with
        phase := .looping, streamTasks := s.streamTasks ++ [⟨identifier, false, false⟩] }
  | .connectionError message => some (s.leave (.error (.h2 ("connection error: " ++ message))))
  | .connectionClosed => some (s.leave (.ok ()))
  | .registrationRead =>
      if s.registrationDone then none
      else s.controlTask.bind fun task => s.readRegistration task.registration
  | .registrationTimedOut =>
      if !s.registrationDone && decide (entered + rpcTimeout ≤ s.now) then
        some (s.leave (.error (.h2 "registration timed out")))
      else none
  | .shutdown =>
      if notified.isReady then
        some { s.wakeControl with phase := .drainingStreams (s.now + grace) }
      else none
  | .flush index =>
      s.outbox[index]?.map fun chunk =>
        { s with outbox := s.outbox.eraseIdx index, wire := s.wire ++ [chunk] }
  | .deliverControl =>
      s.controlTask.bind fun task =>
        task.deliver.map fun task' => { s with controlTask := some task' }
  | .deliverStream index =>
      match s.streamTasks[index]? with
      | some task =>
          if task.awaiting then
            some { s with streamTasks := s.streamTasks.set index { task with awaiting := false } }
          else none
      | none => none
  | _ => none

def step (grace : Nat) (s : Serve) : Label → Option Serve
  | .fire => if s.phase.isOver then none else some s.wake
  | .elapse nanos => some { s with now := s.now + nanos }
  | .select =>
      match s.phase with
      | .looping => some { s with phase := .selecting s.now .waiting }
      | _ => none
  | .streamsJoined =>
      match s.phase with
      | .drainingStreams _ => if s.streamTasks.isEmpty then some (s.drainControl grace) else none
      | _ => none
  | .streamsElapsed =>
      match s.phase with
      | .drainingStreams deadline =>
          if deadline ≤ s.now then some (s.drainControl grace) else none
      | _ => none
  | .controlJoined =>
      match s.phase with
      | .drainingControl _ =>
          s.controlTask.bind fun task =>
            if task.isEnded then some (s.finish (.ok ())) else none
      | _ => none
  | .controlElapsed =>
      match s.phase with
      | .drainingControl deadline =>
          if deadline ≤ s.now then some (s.finish (.ok ())) else none
      | _ => none
  | .control label =>
      s.controlTask.bind fun task =>
        (task.step grace s.now label).bind fun (task', chunks) =>
          -- a dropped connection takes nothing any more
          if s.phase.isOver && !chunks.isEmpty then none
          else some { s with controlTask := some task', outbox := s.outbox ++ chunks }
  | .stream index label =>
      s.streamTasks[index]?.bind fun task =>
        (streamStep s.now task label).map fun (task', chunks) =>
          { s with
            streamTasks := replaceStream s.streamTasks index task'
            outbox := s.outbox ++ chunks }
  | label =>
      match s.phase with
      | .selecting entered notified => s.selectStep grace entered notified label
      | _ => none

/-- The step takes a branch of the `select!` that returns. -/
def leavesLoop (s : Serve) : Label → Bool
  | .connectionError _ | .connectionClosed | .registrationTimedOut => true
  | .registrationRead =>
      match s.controlTask with
      | some task => decide (task.registration ≠ .sent (.ok ()))
      | none => false
  | _ => false

/-! ## What a step can do -/

inductive Steps (grace : Nat) (s : Serve) : Label → Serve → Prop
  | fire (h : s.phase.isOver = false) : Steps grace s .fire s.wake
  | elapse (nanos : Nat) : Steps grace s (.elapse nanos) { s with now := s.now + nanos }
  | select (h : s.phase = .looping) :
      Steps grace s .select { s with phase := .selecting s.now .waiting }
  | acceptControl {entered : Nat} {notified : Notified}
      (h : s.phase = .selecting entered notified) (hcontrol : s.controlTask = none) :
      Steps grace s .acceptControl { s with phase := .looping, controlTask := some .spawned }
  | rejectControl {entered : Nat} {notified : Notified} {task : ControlTask}
      (h : s.phase = .selecting entered notified) (hcontrol : s.controlTask = some task) :
      Steps grace s .acceptControl { s with phase := .looping }
  | acceptStream {entered : Nat} {notified : Notified} (identifier : Nat)
      (h : s.phase = .selecting entered notified) :
      Steps grace s (.acceptStream identifier)
        { s with phase := .looping, streamTasks := s.streamTasks ++ [⟨identifier, false, false⟩] }
  | registered {entered : Nat} {notified : Notified} {task : ControlTask}
      (h : s.phase = .selecting entered notified) (hcontrol : s.controlTask = some task)
      (hsent : task.registration = .sent (.ok ())) :
      Steps grace s .registrationRead { s with phase := .looping, registrationDone := true }
  -- the connection or the registration has failed
  | leave {entered : Nat} {notified : Notified} {l : Label} (result : Except Error Unit)
      (h : s.phase = .selecting entered notified) (hl : s.leavesLoop l = true) :
      Steps grace s l (s.leave result)
  | shutdown {entered : Nat} (h : s.phase = .selecting entered .woken) :
      Steps grace s .shutdown { s.wakeControl with phase := .drainingStreams (s.now + grace) }
  | streamsJoined {deadline : Nat} (h : s.phase = .drainingStreams deadline)
      (htasks : s.streamTasks = []) : Steps grace s .streamsJoined (s.drainControl grace)
  | streamsElapsed {deadline : Nat} (h : s.phase = .drainingStreams deadline)
      (helapsed : deadline ≤ s.now) : Steps grace s .streamsElapsed (s.drainControl grace)
  | controlJoined {deadline : Nat} {task : ControlTask} (h : s.phase = .drainingControl deadline)
      (hcontrol : s.controlTask = some task) (hended : task.isEnded = true) :
      Steps grace s .controlJoined (s.finish (.ok ()))
  | controlElapsed {deadline : Nat} (h : s.phase = .drainingControl deadline)
      (helapsed : deadline ≤ s.now) : Steps grace s .controlElapsed (s.finish (.ok ()))
  | flush {entered : Nat} {notified : Notified} {chunk : Chunk} (index : Nat)
      (h : s.phase = .selecting entered notified) (hchunk : s.outbox[index]? = some chunk) :
      Steps grace s (.flush index)
        { s with outbox := s.outbox.eraseIdx index, wire := s.wire ++ [chunk] }
  | deliverControl {entered : Nat} {notified : Notified} {task task' : ControlTask}
      (h : s.phase = .selecting entered notified) (hcontrol : s.controlTask = some task)
      (hdeliver : task.deliver = some task') :
      Steps grace s .deliverControl { s with controlTask := some task' }
  | deliverStream {entered : Nat} {notified : Notified} {task : StreamTask} (index : Nat)
      (h : s.phase = .selecting entered notified) (htask : s.streamTasks[index]? = some task) :
      Steps grace s (.deliverStream index)
        { s with streamTasks := s.streamTasks.set index { task with awaiting := false } }
  | control {task task' : ControlTask} {chunks : List Chunk} (label : ControlLabel)
      (hcontrol : s.controlTask = some task)
      (hstep : task.step grace s.now label = some (task', chunks))
      (hopen : s.phase.isOver = true → chunks = []) :
      Steps grace s (.control label)
        { s with controlTask := some task', outbox := s.outbox ++ chunks }
  | stream {task : StreamTask} {task' : Option StreamTask} {chunks : List Chunk} (index : Nat)
      (label : StreamLabel) (htask : s.streamTasks[index]? = some task)
      (hstep : streamStep s.now task label = some (task', chunks)) :
      Steps grace s (.stream index label)
        { s with
          streamTasks := replaceStream s.streamTasks index task'
          outbox := s.outbox ++ chunks }

theorem steps_of_selectStep {grace entered : Nat} {notified : Notified} {s t : Serve} {l : Label}
    (hp : s.phase = .selecting entered notified)
    (h : s.selectStep grace entered notified l = some t) : Steps grace s l t := by
  cases l with
  | acceptControl =>
      simp only [selectStep] at h
      split at h <;> cases h
      · exact .acceptControl hp ‹_›
      · exact .rejectControl hp ‹_›
  | acceptStream identifier =>
      cases h
      exact .acceptStream identifier hp
  | connectionError message =>
      cases h
      exact .leave _ hp rfl
  | connectionClosed =>
      cases h
      exact .leave _ hp rfl
  | registrationRead =>
      obtain ⟨_, h⟩ := Option.ite_none_left_eq_some.mp h
      obtain ⟨task, hcontrol, h⟩ := Option.bind_eq_some_iff.mp h
      cases hsent : task.registration with
      | pending => simp [readRegistration, hsent] at h
      | sent result =>
          cases result <;> simp only [readRegistration, hsent] at h <;> cases h
          · exact .leave _ hp (by simp [leavesLoop, hcontrol, hsent])
          · exact .registered hp hcontrol hsent
      | dropped =>
          simp only [readRegistration, hsent] at h
          cases h
          exact .leave _ hp (by simp [leavesLoop, hcontrol, hsent])
  | registrationTimedOut =>
      obtain ⟨_, ⟨⟩⟩ := Option.ite_none_right_eq_some.mp h
      exact .leave _ hp rfl
  | shutdown =>
      obtain ⟨hready, ⟨⟩⟩ := Option.ite_none_right_eq_some.mp h
      exact .shutdown (eq_woken_of_isReady hready ▸ hp)
  | flush index =>
      obtain ⟨chunk, hchunk, ⟨⟩⟩ := Option.map_eq_some_iff.mp h
      exact .flush index hp hchunk
  | deliverControl =>
      obtain ⟨task, hcontrol, h⟩ := Option.bind_eq_some_iff.mp h
      obtain ⟨task', hdeliver, ⟨⟩⟩ := Option.map_eq_some_iff.mp h
      exact .deliverControl hp hcontrol hdeliver
  | deliverStream index =>
      simp only [selectStep] at h
      split at h
      · obtain ⟨_, ⟨⟩⟩ := Option.ite_none_right_eq_some.mp h
        exact .deliverStream index hp ‹_›
      · cases h
  | _ => cases h

theorem steps_of_step {grace : Nat} {s t : Serve} {l : Label} (h : s.step grace l = some t) :
    Steps grace s l t := by
  -- the labels of the `select!` share their last case
  have hselect : ∀ l, (match s.phase with
      | .selecting entered notified => s.selectStep grace entered notified l
      | _ => none) = some t → Steps grace s l t := by
    intro l h
    split at h
    · exact steps_of_selectStep ‹_› h
    · cases h
  cases l with
  | fire =>
      obtain ⟨hover, ⟨⟩⟩ := Option.ite_none_left_eq_some.mp h
      exact .fire (by simpa using hover)
  | elapse nanos =>
      cases h
      exact .elapse nanos
  | select =>
      simp only [step] at h
      split at h <;> cases h
      exact .select ‹_›
  | streamsJoined =>
      simp only [step] at h
      split at h
      · obtain ⟨hempty, ⟨⟩⟩ := Option.ite_none_right_eq_some.mp h
        exact .streamsJoined ‹_› (List.isEmpty_iff.mp hempty)
      · cases h
  | streamsElapsed =>
      simp only [step] at h
      split at h
      · obtain ⟨helapsed, ⟨⟩⟩ := Option.ite_none_right_eq_some.mp h
        exact .streamsElapsed ‹_› helapsed
      · cases h
  | controlJoined =>
      simp only [step] at h
      split at h
      · obtain ⟨task, hcontrol, h⟩ := Option.bind_eq_some_iff.mp h
        obtain ⟨hended, ⟨⟩⟩ := Option.ite_none_right_eq_some.mp h
        exact .controlJoined ‹_› hcontrol hended
      · cases h
  | controlElapsed =>
      simp only [step] at h
      split at h
      · obtain ⟨helapsed, ⟨⟩⟩ := Option.ite_none_right_eq_some.mp h
        exact .controlElapsed ‹_› helapsed
      · cases h
  | control label =>
      obtain ⟨task, hcontrol, h⟩ := Option.bind_eq_some_iff.mp h
      obtain ⟨⟨task', chunks⟩, hstep, h⟩ := Option.bind_eq_some_iff.mp h
      obtain ⟨hopen, ⟨⟩⟩ := Option.ite_none_left_eq_some.mp h
      exact .control label hcontrol hstep (fun hover => by simpa [hover] using hopen)
  | stream index label =>
      obtain ⟨task, htask, h⟩ := Option.bind_eq_some_iff.mp h
      obtain ⟨⟨task', chunks⟩, hstep, ⟨⟩⟩ := Option.map_eq_some_iff.mp h
      exact .stream index label htask hstep
  | _ => exact hselect _ h

theorem step_control {grace : Nat} {s : Serve} {task task' : ControlTask} {label : ControlLabel}
    {chunks : List Chunk} (hcontrol : s.controlTask = some task)
    (hstep : task.step grace s.now label = some (task', chunks))
    (hopen : s.phase.isOver = true → chunks = []) :
    s.step grace (.control label) =
      some { s with controlTask := some task', outbox := s.outbox ++ chunks } := by
  have htaken : ¬ (s.phase.isOver && !chunks.isEmpty) = true := by
    intro h
    obtain ⟨hover, hchunks⟩ := Bool.and_eq_true_iff.mp h
    rw [hopen hover] at hchunks
    cases hchunks
  rw [step, hcontrol, Option.bind_some, hstep, Option.bind_some]
  exact if_neg htaken

end Serve

end Libcfd.Edge.H2
