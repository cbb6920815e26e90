/-!
# One-shot events

`Event` is an `AtomicBool` next to a tokio `Notify`. `Notify::notify_waiters` wakes the `Notified`
futures that exist at that moment and stores nothing, so a `Notified` is one of two things: still
waiting, or woken. It belongs to the future that awaits it, and the models of those futures hold
it; `notify_waiters` wakes all of them in one step.
-/

namespace Libcfd.Edge

/-- A `Notified` future. -/
inductive Notified where
  | waiting
  | woken
  deriving DecidableEq, Repr

/-- `Notify::notify_waiters`, as seen by one `Notified`. -/
def Notified.wake (_ : Notified) : Notified := .woken

def Notified.isReady : Notified → Bool
  | .waiting => false
  | .woken => true

theorem eq_woken_of_isReady {notified : Notified} (h : notified.isReady = true) :
    notified = .woken := by
  cases notified with
  | waiting => cases h
  | woken => rfl

/-- The flag of `EventInner`. -/
structure Event where
  fired : Bool
  deriving DecidableEq, Repr

namespace Event

def new : Event := ⟨false⟩

/-- The first half of `fire`; `notify_waiters` is the second. -/
def store (_ : Event) : Event := ⟨true⟩

def isFired (event : Event) : Bool := event.fired

/-- `notified` hands out a fresh `Notify::notified()`. It does not look at the flag. -/
def notified (_ : Event) : Notified := .waiting

end Event

end Libcfd.Edge
