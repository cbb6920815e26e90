import Libcfd.Edge.H2.Serve

/-!
# What becomes of the unregister call

A registered connection that `serve` leaves through its shutdown branch is given its unregister
call: unless the call itself breaks off, `serve` is over only after the edge has answered it or a
whole grace period has passed since the shutdown fired.
-/

namespace Libcfd.Edge.H2

open Libcfd.Machine

/-! ## The control task -/

namespace ControlTask

/-- From `control_shutdown` on: the unregister call is still to come, in progress with a timeout
not before `due`, answered, or given up no sooner than `due`. -/
def Unregisters (due now : Nat) (task : ControlTask) : Prop :=
  match task.phase with
  | .announcing | .announced | .parked _ | .ended (some .answered) => True
  | .unregistering deadline _ _ => due ≤ deadline
  | .ended (some .elapsed) => due ≤ now
  | _ => False

/-- The labels that break the call off. -/
def breaksOff : ControlLabel → Bool
  | .unregisterFailed | .panicked => true
  | _ => false

theorem Unregisters.mono {due now now' : Nat} {task : ControlTask} (h : task.Unregisters due now)
    (hnow : now ≤ now') : task.Unregisters due now' := by
  obtain ⟨phase, registration⟩ := task
  cases phase with
  | ended unregistration =>
      rcases unregistration with _ | answered | failed | elapsed
      · exact h
      · exact h
      · exact h
      · exact Nat.le_trans h hnow
  | _ => exact h

theorem unregisters_of_isRegistered {due now : Nat} {task : ControlTask}
    (hregistered : task.isRegistered = true) (hunwoken : task.isUnwoken = true) :
    task.wake.Unregisters due now := by
  obtain ⟨phase, registration⟩ := task
  cases phase with
  | announcing | announced | parked => trivial
  | unregistering => cases hunwoken
  | responding | registering | ended => cases hregistered

theorem Unregisters.step {grace due now : Nat} {task task' : ControlTask} {label : ControlLabel}
    {chunks : List Chunk} (h : task.Unregisters due now) (hdue : due ≤ now + grace)
    (hlabel : task.isRegistered = true → breaksOff label = false)
    (hstep : task.step grace now label = some (task', chunks)) : task'.Unregisters due now := by
  cases steps_of_step hstep with
  | announce | park | answered => trivial
  | queueUnregistering | awaitUnregistering => exact h
  | unpark => exact hdue
  | unregisterElapsed _ _ _ helapsed => exact Nat.le_trans h helapsed
  | unregisterFailed => cases hlabel rfl
  | panicked task hended =>
      obtain ⟨phase, registration⟩ := task
      cases phase with
      | responding | registering => cases h
      | announcing | announced | parked | unregistering => cases hlabel rfl
      | ended => cases hended
  | respond | respondFailed | queueRegistering | awaitRegistering | registered
  | registrationFailed => cases h

theorem isUnwoken_step {grace now : Nat} {task task' : ControlTask} {label : ControlLabel}
    {chunks : List Chunk} (h : task.isUnwoken = true)
    (hstep : task.step grace now label = some (task', chunks)) : task'.isUnwoken = true := by
  cases steps_of_step hstep with
  | unpark | queueUnregistering | awaitUnregistering | answered | unregisterFailed
  | unregisterElapsed => cases h
  | _ => rfl

/-- A registered task stays registered until its unregister call or its panic. -/
theorem isRegistered_step {grace now : Nat} {task task' : ControlTask} {label : ControlLabel}
    {chunks : List Chunk} (hregistered : task.isRegistered = true)
    (hunwoken : task.isUnwoken = true) (hlabel : breaksOff label = false)
    (hstep : task.step grace now label = some (task', chunks)) : task'.isRegistered = true := by
  cases steps_of_step hstep with
  | announce | park => rfl
  | unpark | queueUnregistering | awaitUnregistering | answered | unregisterFailed
  | unregisterElapsed => cases hunwoken
  | panicked => cases hlabel
  | respond | respondFailed | queueRegistering | awaitRegistering | registered
  | registrationFailed => cases hregistered

theorem isRegistered_deliver {task task' : ControlTask} (hunwoken : task.isUnwoken = true)
    (hdeliver : task.deliver = some task') :
    task'.isRegistered = task.isRegistered ∧ task'.isUnwoken = true := by
  obtain ⟨phase, registration⟩ := task
  unfold deliver at hdeliver
  split at hdeliver
  · next hp =>
      cases hdeliver
      cases hp
      exact ⟨rfl, rfl⟩
  · next hp =>
      cases hp
      cases hunwoken
  · cases hdeliver

end ControlTask

/-! ## The connection before the shutdown -/

namespace Serve

/-- A dropped `JoinSet` holds no tasks. -/
def DropsTasks (s : Serve) : Prop := s.phase.isOver = true → s.streamTasks = []

theorem isOver_wake (s : Serve) : s.wake.phase.isOver = s.phase.isOver := by
  unfold wake
  split
  · rfl
  · cases hp : s.phase <;> rfl

@[simp] theorem streamTasks_wake (s : Serve) : s.wake.streamTasks = s.streamTasks := by
  unfold wake
  split <;> rfl

@[simp] theorem controlTask_wake (s : Serve) : s.wake.controlTask = s.controlTask := by
  unfold wake
  split <;> rfl

@[simp] theorem now_wake (s : Serve) : s.wake.now = s.now := by
  unfold wake
  split <;> rfl

theorem dropsTasks_wake {s : Serve} (h : s.DropsTasks) : s.wake.DropsTasks := by
  intro hover
  rw [isOver_wake] at hover
  rw [streamTasks_wake, h hover]

theorem dropsTasks_abort {s : Serve} (h : s.DropsTasks) : s.abort.DropsTasks := by
  unfold abort
  split
  · exact h
  · exact fun _ => rfl

theorem isOver_abort (s : Serve) : s.abort.phase.isOver = true := by
  unfold abort
  split
  · assumption
  · rfl

theorem dropsTasks_step {grace : Nat} {s t : Serve} {l : Label} (h : s.DropsTasks)
    (hstep : s.step grace l = some t) : t.DropsTasks := by
  cases steps_of_step hstep with
  | fire => exact dropsTasks_wake h
  | elapse | control => exact h
  | stream index label htask =>
      intro hover
      rw [h hover] at htask
      cases htask
  | leave | controlJoined | controlElapsed => exact fun _ => rfl
  | streamsJoined | streamsElapsed =>
      unfold drainControl
      split
      · exact fun _ => rfl
      · intro hover
        cases hover
  | select | acceptControl | rejectControl | acceptStream | registered | shutdown =>
      intro hover
      cases hover
  | flush _ hp | deliverControl hp | deliverStream _ hp =>
      intro hover
      simp [hp, Phase.isOver] at hover

/-- `serve` is over: nothing brings it back. -/
theorem isOver_step {grace : Nat} {s t : Serve} {l : Label} (h : s.phase.isOver = true)
    (hstep : s.step grace l = some t) : t.phase.isOver = true := by
  cases steps_of_step hstep with
  | fire => rw [isOver_wake, h]
  | elapse | control | stream => exact h
  | leave | controlJoined | controlElapsed => rfl
  | select hp | acceptControl hp | rejectControl hp | acceptStream _ hp | registered hp
  | shutdown hp | flush _ hp | deliverControl hp | deliverStream _ hp | streamsJoined hp
  | streamsElapsed hp => simp [hp, Phase.isOver] at h

/-- What holds as long as the shutdown event has not fired: `serve` is over or in its accept loop,
its shutdown branch is not ready and the control task has not been woken. -/
structure IsUnfired (s : Serve) : Prop where
  firedAt : s.firedAt = none
  loop : s.phase.isOver = false → s.phase.isPolling = true
  notified : ∀ entered, s.phase ≠ .selecting entered .woken
  control : s.phase.isOver = false →
    ∀ task, s.controlTask = some task → task.isUnwoken = true

theorem isUnfired_of_isOver {s : Serve} (hfired : s.firedAt = none)
    (h : s.phase.isOver = true) : s.IsUnfired where
  firedAt := hfired
  loop := fun hover => by simp [h] at hover
  notified := fun entered hp => by simp [hp, Phase.isOver] at h
  control := fun hover => by simp [h] at hover

/-- Only the firing sets the instant of the firing. -/
theorem firedAt_step {grace : Nat} {s t : Serve} {l : Label} (hl : l ≠ .fire)
    (hstep : s.step grace l = some t) : t.firedAt = s.firedAt := by
  cases steps_of_step hstep with
  | fire => exact absurd rfl hl
  | streamsJoined | streamsElapsed =>
      unfold drainControl
      split <;> rfl
  | _ => rfl

theorem isUnfired_step {grace : Nat} {s t : Serve} {l : Label} (h : s.IsUnfired) (hl : l ≠ .fire)
    (hstep : s.step grace l = some t) : t.IsUnfired := by
  have hfired : t.firedAt = none := (firedAt_step hl hstep).trans h.firedAt
  cases hover : s.phase.isOver with
  | true => exact isUnfired_of_isOver hfired (isOver_step hover hstep)
  | false =>
      have hpolling := h.loop hover
      have hcontrol := h.control hover
      cases steps_of_step hstep with
      | fire => exact absurd rfl hl
      | elapse | flush | deliverStream | stream => exact ⟨hfired, h.loop, h.notified, h.control⟩
      | select | rejectControl | acceptStream | registered =>
          exact ⟨hfired, fun _ => rfl, fun _ => by simp, fun _ => hcontrol⟩
      | acceptControl =>
          refine ⟨hfired, fun _ => rfl, fun _ => by simp, ?_⟩
          rintro _ _ ⟨⟩
          rfl
      | leave | controlJoined | controlElapsed => exact isUnfired_of_isOver hfired rfl
      | shutdown hp => exact absurd hp (h.notified _)
      | streamsJoined hp | streamsElapsed hp => simp [hp, Phase.isPolling] at hpolling
      | deliverControl _ htask hdeliver =>
          refine ⟨hfired, h.loop, h.notified, ?_⟩
          rintro _ _ ⟨⟩
          exact (ControlTask.isRegistered_deliver (hcontrol _ htask) hdeliver).2
      | control label htask htaskStep =>
          refine ⟨hfired, h.loop, h.notified, ?_⟩
          rintro _ _ ⟨⟩
          exact ControlTask.isUnwoken_step (hcontrol _ htask) htaskStep

/-! ## From the firing to the end -/

/-- The registered attempt: its accept loop or its drain is on, and the control task has registered
and is not done with its unregister call. -/
def isRegistered (s : Serve) : Bool :=
  !s.phase.isOver && s.controlTask.any (·.isRegistered)

/-- The unregister call was answered, or the grace period has elapsed since the shutdown fired. -/
def Unregistered (grace : Nat) (s : Serve) : Prop :=
  (∃ task, s.controlTask = some task ∧ task.phase = .ended (some .answered)) ∨
    ∃ firedAt, s.firedAt = some firedAt ∧ firedAt + grace ≤ s.now

/-- A registered connection after the shutdown has fired: first `serve` is in its accept loop with
the control task not yet woken, then in its drain with the unregister call coming, and at last over
with the call answered or the grace period elapsed. -/
inductive Heeds (grace : Nat) (s : Serve) : Prop
  | polling {firedAt : Nat} {task : ControlTask} (hpolling : s.phase.isPolling = true)
      (hfired : s.firedAt = some firedAt) (hnow : firedAt ≤ s.now)
      (hcontrol : s.controlTask = some task) (hregistered : task.isRegistered = true)
      (hunwoken : task.isUnwoken = true)
  | draining {firedAt deadline : Nat} {task : ControlTask}
      (hp : s.phase = .drainingStreams deadline ∨ s.phase = .drainingControl deadline)
      (hfired : s.firedAt = some firedAt) (hnow : firedAt ≤ s.now)
      (hcontrol : s.controlTask = some task) (hdeadline : firedAt + grace ≤ deadline)
      (htask : task.Unregisters (firedAt + grace) s.now)
  | «over» (hover : s.phase.isOver = true) (hunregistered : s.Unregistered grace)

/-- A label that breaks the shutdown sequence off: the connection or its registration fails, or
the unregister call does. -/
def breaksOff (s : Serve) (l : Label) : Bool :=
  s.leavesLoop l || match l with
    | .control label => ControlTask.breaksOff label
    | _ => false

theorem heeds_wake {grace : Nat} {s : Serve} (h : s.IsUnfired)
    (hregistered : s.isRegistered = true) : s.wake.Heeds grace := by
  simp only [isRegistered, Bool.and_eq_true, Bool.not_eq_true', Option.any_eq_true] at hregistered
  obtain ⟨hover, task, hcontrol, htask⟩ := hregistered
  have hpolling : s.wake.phase.isPolling = true := by
    have hp := h.loop hover
    simp only [wake, hover]
    cases hphase : s.phase <;> simp_all [Phase.wake, Phase.isPolling]
  have hfired : s.wake.firedAt = some s.now := by simp [wake, hover, h.firedAt]
  exact .polling hpolling hfired (by simp) (by simpa using hcontrol) htask
    (h.control hover task hcontrol)

theorem Heeds.unregistered {grace : Nat} {s : Serve} (h : s.Heeds grace)
    (hover : s.phase.isOver = true) : s.Unregistered grace := by
  cases h with
  | polling hpolling => cases hp : s.phase <;> simp_all [Phase.isPolling, Phase.isOver]
  | draining hp => rcases hp with hp | hp <;> simp [hp, Phase.isOver] at hover
  | «over» _ hunregistered => exact hunregistered

theorem isOver_of_isPolling {s : Serve} (h : s.phase.isPolling = true) :
    s.phase.isOver = false := by
  cases hp : s.phase <;> simp_all [Phase.isPolling, Phase.isOver]

theorem isRegistered_of_control {s : Serve} {task : ControlTask}
    (hcontrol : s.controlTask = some task) (hover : s.phase.isOver = false)
    (htask : task.isRegistered = true) : s.isRegistered = true := by
  simp [isRegistered, hcontrol, hover, htask]

theorem heeds_step_of_polling {grace firedAt : Nat} {s t : Serve} {task : ControlTask} {l : Label}
    (hpolling : s.phase.isPolling = true) (hfired : s.firedAt = some firedAt)
    (hnow : firedAt ≤ s.now) (hcontrol : s.controlTask = some task)
    (hregistered : task.isRegistered = true) (hunwoken : task.isUnwoken = true) (hl : l ≠ .fire)
    (hbreaks : s.isRegistered = true → s.breaksOff l = false)
    (hstep : s.step grace l = some t) : t.Heeds grace := by
  have hkeeps : s.breaksOff l = false :=
    hbreaks (isRegistered_of_control hcontrol (isOver_of_isPolling hpolling) hregistered)
  cases steps_of_step hstep with
  | fire => exact absurd rfl hl
  | elapse nanos =>
      exact .polling hpolling hfired (Nat.le_add_right_of_le hnow) hcontrol hregistered hunwoken
  | select | rejectControl | acceptStream | registered =>
      exact .polling rfl hfired hnow hcontrol hregistered hunwoken
  | flush | deliverStream | stream =>
      exact .polling hpolling hfired hnow hcontrol hregistered hunwoken
  | acceptControl _ hnone => simp [hnone] at hcontrol
  | leave _ _ hleaves => simp [breaksOff, hleaves] at hkeeps
  | shutdown =>
      exact .draining (Or.inl rfl) hfired hnow (by simp [wakeControl, hcontrol])
        (Nat.add_le_add_right hnow grace)
        (ControlTask.unregisters_of_isRegistered hregistered hunwoken)
  | deliverControl _ hother hdeliver =>
      cases hcontrol.symm.trans hother
      obtain ⟨hregistered', hunwoken'⟩ := ControlTask.isRegistered_deliver hunwoken hdeliver
      exact .polling hpolling hfired hnow rfl (hregistered'.trans hregistered) hunwoken'
  | control label hother htaskStep =>
      cases hcontrol.symm.trans hother
      have hlabel : ControlTask.breaksOff label = false := by
        simpa [breaksOff, leavesLoop] using hkeeps
      exact .polling hpolling hfired hnow rfl
        (ControlTask.isRegistered_step hregistered hunwoken hlabel htaskStep)
        (ControlTask.isUnwoken_step hunwoken htaskStep)
  | streamsJoined hp | streamsElapsed hp | controlJoined hp | controlElapsed hp =>
      simp [hp, Phase.isPolling] at hpolling

theorem heeds_step_of_draining {grace firedAt deadline : Nat} {s t : Serve} {task : ControlTask}
    {l : Label} (hp : s.phase = .drainingStreams deadline ∨ s.phase = .drainingControl deadline)
    (hfired : s.firedAt = some firedAt) (hnow : firedAt ≤ s.now)
    (hcontrol : s.controlTask = some task) (hdeadline : firedAt + grace ≤ deadline)
    (htask : task.Unregisters (firedAt + grace) s.now) (hl : l ≠ .fire)
    (hbreaks : s.isRegistered = true → s.breaksOff l = false)
    (hstep : s.step grace l = some t) : t.Heeds grace := by
  have hover : s.phase.isOver = false := by rcases hp with hp | hp <;> simp [hp, Phase.isOver]
  have hpolling : s.phase.isPolling = false := by
    rcases hp with hp | hp <;> simp [hp, Phase.isPolling]
  have hdue : firedAt + grace ≤ s.now + grace := Nat.add_le_add_right hnow grace
  have hdrained : (s.drainControl grace).Heeds grace := by
    unfold drainControl
    split
    · simp_all
    · exact .draining (Or.inr rfl) hfired hnow hcontrol hdue htask
  cases steps_of_step hstep with
  | fire => exact absurd rfl hl
  | elapse nanos =>
      have hlater : s.now ≤ s.now + nanos := Nat.le_add_right _ _
      exact .draining hp hfired (Nat.le_trans hnow hlater) hcontrol hdeadline (htask.mono hlater)
  | stream => exact .draining hp hfired hnow hcontrol hdeadline htask
  | streamsJoined | streamsElapsed => exact hdrained
  | controlJoined _ hother hended =>
      cases hcontrol.symm.trans hother
      refine .over rfl ?_
      cases hphase : task.phase with
      | ended unregistration =>
          rcases unregistration with _ | answered | failed | elapsed
          · simp [ControlTask.Unregisters, hphase] at htask
          · exact Or.inl ⟨task, hcontrol, hphase⟩
          · simp [ControlTask.Unregisters, hphase] at htask
          · have hlate : firedAt + grace ≤ s.now := by
              simpa [ControlTask.Unregisters, hphase] using htask
            exact Or.inr ⟨firedAt, hfired, hlate⟩
      | _ => simp [ControlTask.isEnded, hphase] at hended
  | controlElapsed hp' helapsed =>
      refine .over rfl (Or.inr ⟨firedAt, hfired, ?_⟩)
      rcases hp with hp | hp
      · cases hp.symm.trans hp'
      · cases hp.symm.trans hp'
        exact Nat.le_trans hdeadline helapsed
  | control label hother htaskStep =>
      cases hcontrol.symm.trans hother
      refine .draining hp hfired hnow rfl hdeadline (htask.step hdue (fun hreg => ?_) htaskStep)
      have hkeeps := hbreaks (isRegistered_of_control hcontrol hover hreg)
      simpa [breaksOff, leavesLoop] using hkeeps
  | select hp' | acceptControl hp' | rejectControl hp' | acceptStream _ hp' | registered hp'
  | leave _ hp' | shutdown hp' | flush _ hp' | deliverControl hp' | deliverStream _ hp' =>
      simp [hp', Phase.isPolling] at hpolling

/-- An answered call stays answered, and elapsed time stays elapsed. -/
theorem Unregistered.step {grace : Nat} {s t : Serve} {l : Label} (h : s.Unregistered grace)
    (hover : s.phase.isOver = true) (hstep : s.step grace l = some t) : t.Unregistered grace := by
  cases steps_of_step hstep with
  | fire => simpa [wake, hover] using h
  | elapse nanos =>
      refine h.imp id ?_
      rintro ⟨firedAt, hfired, hlate⟩
      exact ⟨firedAt, hfired, Nat.le_add_right_of_le hlate⟩
  | stream => exact h
  | control label hcontrol htaskStep =>
      rcases h with ⟨task, hother, hended⟩ | hlate
      · cases hcontrol.symm.trans hother
        cases ControlTask.steps_of_step htaskStep <;>
          simp_all [ControlTask.isEnded]
      · exact Or.inr hlate
  | select hp | acceptControl hp | rejectControl hp | acceptStream _ hp | registered hp
  | leave _ hp | shutdown hp | flush _ hp | deliverControl hp | deliverStream _ hp
  | streamsJoined hp | streamsElapsed hp | controlJoined hp | controlElapsed hp =>
      simp [hp, Phase.isOver] at hover

theorem Heeds.step {grace : Nat} {s t : Serve} {l : Label} (h : s.Heeds grace) (hl : l ≠ .fire)
    (hbreaks : s.isRegistered = true → s.breaksOff l = false)
    (hstep : s.step grace l = some t) : t.Heeds grace := by
  cases h with
  | polling hpolling hfired hnow hcontrol hregistered hunwoken =>
      exact heeds_step_of_polling hpolling hfired hnow hcontrol hregistered hunwoken hl hbreaks
        hstep
  | draining hp hfired hnow hcontrol hdeadline htask =>
      exact heeds_step_of_draining hp hfired hnow hcontrol hdeadline htask hl hbreaks hstep
  | «over» hover hunregistered =>
      exact .over (isOver_step hover hstep) (hunregistered.step hover hstep)

/-! ### The handle of the serve task -/

/-- Whoever waits for `serve` until `due` has waited out the grace period by then. -/
def GivenUntil (grace due : Nat) (s : Serve) : Prop :=
  s.phase.isOver = true ∨ ∃ firedAt, s.firedAt = some firedAt ∧ firedAt + grace ≤ due

theorem Heeds.givenUntil {grace : Nat} {s : Serve} (h : s.Heeds grace) :
    s.GivenUntil grace (s.now + grace) := by
  cases h with
  | polling _ hfired hnow => exact Or.inr ⟨_, hfired, Nat.add_le_add_right hnow grace⟩
  | draining _ hfired hnow => exact Or.inr ⟨_, hfired, Nat.add_le_add_right hnow grace⟩
  | «over» hover => exact Or.inl hover

theorem givenUntil_step {grace due : Nat} {s t : Serve} {l : Label} (h : s.GivenUntil grace due)
    (hl : l ≠ .fire) (hstep : s.step grace l = some t) : t.GivenUntil grace due := by
  rcases h with hover | ⟨firedAt, hfired, hdue⟩
  · exact Or.inl (isOver_step hover hstep)
  · exact Or.inr ⟨firedAt, (firedAt_step hl hstep).trans hfired, hdue⟩

theorem heeds_abort {grace due : Nat} {s : Serve} (h : s.Heeds grace)
    (hgiven : s.GivenUntil grace due) (helapsed : due ≤ s.now) : s.abort.Heeds grace := by
  cases hover : s.phase.isOver with
  | true => simpa [abort, hover] using h
  | false =>
      obtain ⟨firedAt, hfired, hdue⟩ := hgiven.resolve_left (by simp [hover])
      refine .over (isOver_abort s) (Or.inr ⟨firedAt, ?_, ?_⟩)
      · simp [abort, hover, hfired]
      · simpa [abort, hover] using Nat.le_trans hdue helapsed

end Serve

end Libcfd.Edge.H2
