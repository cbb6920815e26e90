import Libcfd.Edge.Error
import Libcfd.Edge.Event

/-!
# The control task of an HTTP/2 edge connection

`handle_control_stream` answers the control stream, runs the registration RPC on it, waits for
`control_shutdown` and then unregisters. Whatever it writes is queued on the h2 connection, and
whatever it waits for has to come in over that connection; the connection itself belongs to
`H2EdgeConnection::serve`. Instants and durations are in nanoseconds.
-/

namespace Libcfd.Edge.H2

/-- Bytes a task has handed to the h2 connection. -/
structure Chunk where
  readyAt : Nat
  deriving DecidableEq, Repr

/-- The oneshot channel on which the control task tells `serve` how registration went. -/
inductive Registration where
  | pending
  | sent (result : Except Error Unit)
  | dropped
  deriving DecidableEq, Repr

/-- How `control::unregister` ended. -/
inductive Unregistration where
  | answered
  | failed
  -- its own timeout, the grace period
  | elapsed
  deriving DecidableEq, Repr

inductive ControlPhase where
  | responding
  -- inside `register_on_stream`; the flag says it waits for bytes from the edge
  | registering (awaiting : Bool)
  -- `registered` has fired, the oneshot is not sent yet
  | announcing
  -- the oneshot is sent, `control_shutdown.notified()` is not called yet
  | announced
  | parked (controlShutdown : Notified)
  -- inside `control::unregister`; `heard` once the edge's answer has come in
  | unregistering (deadline : Nat) (awaiting heard : Bool)
  | ended (unregistration : Option Unregistration)
  deriving DecidableEq, Repr

structure ControlTask where
  phase : ControlPhase
  registration : Registration
  deriving DecidableEq, Repr

inductive ControlLabel where
  -- `send_response` on the control stream
  | respond
  | respondFailed (message : String)
  -- the RPC client hands bytes to the connection, or waits for some
  | queue
  | await
  | registered
  | registrationFailed (error : Error)
  | announce
  | park
  | unpark
  | answered
  | unregisterFailed
  | unregisterElapsed
  | panicked
  deriving DecidableEq, Repr

namespace ControlTask

def spawned : ControlTask := ⟨.responding, .pending⟩

/-- One step of the task at the instant `now`, with the bytes it queues. -/
def step (grace now : Nat) (task : ControlTask) :
    ControlLabel → Option (ControlTask × List Chunk)
  | .respond =>
      match task.phase with
      | .responding => some ({ task with phase := .registering false }, [⟨now⟩])
      | _ => none
  | .respondFailed message =>
      match task.phase with
      | .responding => some (⟨.ended none, .sent (.error (.h2 message))⟩, [])
      | _ => none
  | .queue =>
      match task.phase with
      | .registering false | .unregistering _ false _ => some (task, [⟨now⟩])
      | _ => none
  | .await =>
      match task.phase with
      | .registering false => some ({ task with phase := .registering true }, [])
      | .unregistering deadline false heard =>
          some ({ task with phase := .unregistering deadline true heard }, [])
      | _ => none
  | .registered =>
      match task.phase with
      | .registering false => some ({ task with phase := .announcing }, [])
      | _ => none
  | .registrationFailed error =>
      match task.phase with
      | .registering _ => some (⟨.ended none, .sent (.error error)⟩, [])
      | _ => none
  | .announce =>
      match task.phase with
      | .announcing => some (⟨.announced, .sent (.ok ())⟩, [])
      | _ => none
  | .park =>
      match task.phase with
      | .announced => some ({ task with phase := .parked .waiting }, [])
      | _ => none
  | .unpark =>
      match task.phase with
      | .parked .woken =>
          some ({ task with phase := .unregistering (now + grace) false false }, [])
      | _ => none
  | .answered =>
      match task.phase with
      | .unregistering _ false true => some ({ task with phase := .ended (some .answered) }, [])
      | _ => none
  | .unregisterFailed =>
      match task.phase with
      | .unregistering _ _ _ => some ({ task with phase := .ended (some .failed) }, [])
      | _ => none
  | .unregisterElapsed =>
      match task.phase with
      | .unregistering deadline _ _ =>
          if deadline ≤ now then some ({ task with phase := .ended (some .elapsed) }, []) else none
      | _ => none
  | .panicked =>
      match task.phase with
      | .ended _ => none
      | _ =>
          some (⟨.ended none,
            if task.registration = .pending then .dropped else task.registration⟩, [])

/-- `control_shutdown.notify_waiters()`, as seen by the task. -/
def wake (task : ControlTask) : ControlTask :=
  match task.phase with
  | .parked controlShutdown => { task with phase := .parked controlShutdown.wake }
  | _ => task

/-- The edge's bytes reach the task that waits for them. -/
def deliver (task : ControlTask) : Option ControlTask :=
  match task.phase with
  | .registering true => some { task with phase := .registering false }
  | .unregistering deadline true _ => some { task with phase := .unregistering deadline false true }
  | _ => none

def isEnded (task : ControlTask) : Bool :=
  match task.phase with
  | .ended _ => true
  | _ => false

/-- The task waits for bytes from the edge. -/
def isAwaiting (task : ControlTask) : Bool :=
  match task.phase with
  | .registering awaiting | .unregistering _ awaiting _ => awaiting
  | _ => false

/-- The task will use the connection again once `control_shutdown` has fired: neither over nor in
the gap in which the firing passes it by. -/
def needsConnection (task : ControlTask) : Bool :=
  match task.phase with
  | .announcing | .announced | .parked .waiting | .ended _ => false
  | _ => true

/-- The registration RPC has succeeded and the unregister call is not over. -/
def isRegistered (task : ControlTask) : Bool :=
  match task.phase with
  | .announcing | .announced | .parked _ | .unregistering .. => true
  | _ => false

/-- `control_shutdown` has not reached the task. -/
def isUnwoken (task : ControlTask) : Bool :=
  match task.phase with
  | .parked .woken | .unregistering .. | .ended (some _) => false
  | _ => true

/-! ## What a step can do -/

inductive Steps (grace now : Nat) :
    ControlTask → ControlLabel → ControlTask → List Chunk → Prop
  | respond (r : Registration) :
      Steps grace now ⟨.responding, r⟩ .respond ⟨.registering false, r⟩ [⟨now⟩]
  | respondFailed (r : Registration) (message : String) :
      Steps grace now ⟨.responding, r⟩ (.respondFailed message)
        ⟨.ended none, .sent (.error (.h2 message))⟩ []
  | queueRegistering (r : Registration) :
      Steps grace now ⟨.registering false, r⟩ .queue ⟨.registering false, r⟩ [⟨now⟩]
  | queueUnregistering (r : Registration) (deadline : Nat) (heard : Bool) :
      Steps grace now ⟨.unregistering deadline false heard, r⟩ .queue
        ⟨.unregistering deadline false heard, r⟩ [⟨now⟩]
  | awaitRegistering (r : Registration) :
      Steps grace now ⟨.registering false, r⟩ .await ⟨.registering true, r⟩ []
  | awaitUnregistering (r : Registration) (deadline : Nat) (heard : Bool) :
      Steps grace now ⟨.unregistering deadline false heard, r⟩ .await
        ⟨.unregistering deadline true heard, r⟩ []
  | registered (r : Registration) :
      Steps grace now ⟨.registering false, r⟩ .registered ⟨.announcing, r⟩ []
  | registrationFailed (r : Registration) (awaiting : Bool) (error : Error) :
      Steps grace now ⟨.registering awaiting, r⟩ (.registrationFailed error)
        ⟨.ended none, .sent (.error error)⟩ []
  | announce (r : Registration) :
      Steps grace now ⟨.announcing, r⟩ .announce ⟨.announced, .sent (.ok ())⟩ []
  | park (r : Registration) :
      Steps grace now ⟨.announced, r⟩ .park ⟨.parked .waiting, r⟩ []
  | unpark (r : Registration) :
      Steps grace now ⟨.parked .woken, r⟩ .unpark
        ⟨.unregistering (now + grace) false false, r⟩ []
  | answered (r : Registration) (deadline : Nat) :
      Steps grace now ⟨.unregistering deadline false true, r⟩ .answered
        ⟨.ended (some .answered), r⟩ []
  | unregisterFailed (r : Registration) (deadline : Nat) (awaiting heard : Bool) :
      Steps grace now ⟨.unregistering deadline awaiting heard, r⟩ .unregisterFailed
        ⟨.ended (some .failed), r⟩ []
  | unregisterElapsed (r : Registration) {deadline : Nat} (awaiting heard : Bool)
      (h : deadline ≤ now) :
      Steps grace now ⟨.unregistering deadline awaiting heard, r⟩ .unregisterElapsed
        ⟨.ended (some .elapsed), r⟩ []
  | panicked (task : ControlTask) (h : task.isEnded = false) :
      Steps grace now task .panicked
        ⟨.ended none, if task.registration = .pending then .dropped else task.registration⟩ []

theorem steps_of_step {grace now : Nat} {task task' : ControlTask} {label : ControlLabel}
    {chunks : List Chunk} (h : task.step grace now label = some (task', chunks)) :
    Steps grace now task label task' chunks := by
  obtain ⟨phase, registration⟩ := task
  cases label with
  | unregisterElapsed =>
      cases phase <;> simp only [step, reduceCtorEq] at h
      obtain ⟨helapsed, h⟩ := Option.ite_none_right_eq_some.mp h
      cases h
      exact .unregisterElapsed _ _ _ helapsed
  | panicked =>
      cases phase <;> simp only [step, reduceCtorEq] at h <;> cases h <;> exact .panicked _ rfl
  | _ =>
      simp only [step] at h
      split at h <;> cases h <;> constructor

end ControlTask

end Libcfd.Edge.H2
