import Libcfd.Edge.H2.Serve

/-!
# Who drives the connection during the drain?

Once `serve` has taken its shutdown branch it awaits the stream tasks and the control task, and
nobody polls the h2 connection any more. The drain is harmless just in case nothing is left that
needs the connection at that moment; this file proves both directions.
-/

namespace Libcfd.Edge.H2

open Libcfd.Machine

namespace Serve

/-! ## The property -/

/-- A stream task or the control task has bytes queued for the edge or waits for bytes from it. -/
def IsBusy (s : Serve) : Prop :=
  s.outbox ≠ [] ∨ (∃ task ∈ s.streamTasks, task.awaiting = true) ∨
    ∃ task, s.controlTask = some task ∧ task.isAwaiting = true

/-- Everything still queued became ready after the grace period. -/
def IsLate (grace : Nat) (s : Serve) : Prop :=
  ∀ firedAt, s.firedAt = some firedAt → ∀ chunk ∈ s.outbox, firedAt + grace < chunk.readyAt

/-- What a shutdown promises the tasks of the connection. -/
structure Driven (grace : Nat) (s : Serve) : Prop where
  -- from the firing to the return
  polled : s.firedAt.isSome = true → s.phase.isOver = false → s.IsBusy → s.phase.isPolling = true
  delivered : ∀ result, s.phase = .returned result → s.IsLate grace

/-- Nothing is left that needs the connection. -/
structure IsQuiet (s : Serve) : Prop where
  streamTasks : s.streamTasks = []
  outbox : s.outbox = []
  controlTask : ∀ task, s.controlTask = some task → task.needsConnection = false

/-- The condition on a step: the shutdown branch is taken when nothing that `control_shutdown`
leaves running needs the connection, and a branch that returns from the loop is taken when nothing
is queued that became ready in time. -/
def LeavesQuiet (grace : Nat) (s : Serve) (l : Label) : Prop :=
  (l = .shutdown → s.wakeControl.IsQuiet) ∧ (s.leavesLoop l = true → s.IsLate grace)

/-- Firing does not take `serve` out of its loop or into it. -/
theorem isPolling_wake (s : Serve) : s.wake.phase.isPolling = s.phase.isPolling := by
  unfold wake
  split
  · rfl
  · cases hp : s.phase <;> rfl

/-! ## Bytes move in the accept loop and nowhere else -/

/-- Out of it nothing is written, now or later. -/
theorem wire_step {grace : Nat} {s t : Serve} {l : Label} (h : s.phase.isPolling = false)
    (hstep : s.step grace l = some t) : t.wire = s.wire ∧ t.phase.isPolling = false := by
  cases steps_of_step hstep with
  | fire hover => exact ⟨by simp [wake, hover], (isPolling_wake s).trans h⟩
  | elapse | control | stream => exact ⟨rfl, h⟩
  | select hp | acceptControl hp | rejectControl hp | acceptStream _ hp | registered hp
  | leave _ hp | shutdown hp | flush _ hp | deliverControl hp | deliverStream _ hp =>
      simp [hp, Phase.isPolling] at h
  | streamsJoined | streamsElapsed =>
      unfold drainControl
      split <;> exact ⟨rfl, rfl⟩
  | controlJoined | controlElapsed => exact ⟨rfl, rfl⟩

/-! ## The drain with nothing to drain -/

end Serve

theorem ControlTask.step_of_needsConnection_eq_false {grace now : Nat} {task task' : ControlTask}
    {label : ControlLabel} {chunks : List Chunk} (h : task.needsConnection = false)
    (hstep : task.step grace now label = some (task', chunks)) :
    task'.needsConnection = false ∧ chunks = [] := by
  obtain ⟨phase, registration⟩ := task
  -- the task is past its registration and not woken: it announces, parks or panics
  cases phase with
  | announcing | announced | ended =>
      cases label <;> simp only [step, reduceCtorEq, Option.some.injEq, Prod.mk.injEq] at hstep <;>
        obtain ⟨rfl, rfl⟩ := hstep <;> exact ⟨rfl, rfl⟩
  | parked controlShutdown =>
      cases controlShutdown with
      | woken => cases h
      | waiting =>
          cases label <;>
            simp only [step, reduceCtorEq, Option.some.injEq, Prod.mk.injEq] at hstep <;>
            obtain ⟨rfl, rfl⟩ := hstep <;> exact ⟨rfl, rfl⟩
  | responding | registering | unregistering => cases h

theorem ControlTask.isAwaiting_of_needsConnection_eq_false {task : ControlTask}
    (h : task.needsConnection = false) : task.isAwaiting = false := by
  obtain ⟨phase, registration⟩ := task
  cases phase with
  | announcing | announced | parked | ended => rfl
  | responding | registering | unregistering => cases h

namespace Serve

/-- Out of the accept loop with nothing lost and nothing to lose. -/
structure IsCalm (grace : Nat) (s : Serve) : Prop where
  polling : s.phase.isPolling = false
  streamTasks : s.streamTasks = []
  late : s.IsLate grace
  quiet : s.phase.isOver = false → s.IsQuiet

theorem IsQuiet.not_isBusy {s : Serve} (h : s.IsQuiet) : ¬ s.IsBusy := by
  rintro (hout | ⟨task, hmem, _⟩ | ⟨task, hcontrol, hawaiting⟩)
  · exact hout h.outbox
  · rw [h.streamTasks] at hmem
    cases hmem
  · rw [ControlTask.isAwaiting_of_needsConnection_eq_false (h.controlTask task hcontrol)]
      at hawaiting
    cases hawaiting

theorem IsCalm.driven {grace : Nat} {s : Serve} (h : s.IsCalm grace) : s.Driven grace where
  polled := fun _ hover hbusy => absurd hbusy (h.quiet hover).not_isBusy
  delivered := fun _ _ => h.late

theorem driven_of_isPolling {grace : Nat} {s : Serve} (h : s.phase.isPolling = true) :
    s.Driven grace where
  polled := fun _ _ _ => h
  delivered := fun _ hp => by simp [hp, Phase.isPolling] at h

theorem isLate_of_outbox_eq_nil {grace : Nat} {s : Serve} (h : s.outbox = []) :
    s.IsLate grace := by
  intro firedAt _ chunk hmem
  rw [h] at hmem
  cases hmem

theorem isCalm_finish {grace : Nat} {s : Serve} (result : Except Error Unit)
    (h : s.IsLate grace) : (s.finish result).IsCalm grace :=
  ⟨rfl, rfl, h, fun hover => by cases hover⟩

theorem isCalm_drainControl {grace : Nat} {s : Serve} (h : s.IsQuiet) :
    (s.drainControl grace).IsCalm grace := by
  have hlate : s.IsLate grace := isLate_of_outbox_eq_nil h.outbox
  unfold drainControl
  split
  · exact isCalm_finish _ hlate
  · exact ⟨rfl, h.streamTasks, hlate, fun _ => ⟨h.streamTasks, h.outbox, h.controlTask⟩⟩

/-- What `serve` may still do after its accept loop keeps a calm state calm. -/
theorem IsCalm.step {grace : Nat} {s t : Serve} {l : Label} (h : s.IsCalm grace)
    (hstep : s.step grace l = some t) : t.IsCalm grace := by
  have hpolling := h.polling
  cases steps_of_step hstep with
  | fire hover =>
      have hq := h.quiet hover
      have hwake : s.wake.streamTasks = s.streamTasks ∧ s.wake.outbox = s.outbox ∧
          s.wake.controlTask = s.controlTask := by simp [wake, hover]
      have hout : s.wake.outbox = [] := hwake.2.1.trans hq.outbox
      refine ⟨(wire_step hpolling hstep).2, hwake.1.trans h.streamTasks,
        isLate_of_outbox_eq_nil hout, fun _ => ?_⟩
      exact ⟨hwake.1.trans hq.streamTasks, hout, hwake.2.2 ▸ hq.controlTask⟩
  | elapse nanos =>
      refine ⟨hpolling, h.streamTasks, h.late, fun hover => ?_⟩
      exact ⟨h.streamTasks, (h.quiet hover).outbox, (h.quiet hover).controlTask⟩
  | select hp | acceptControl hp | rejectControl hp | acceptStream _ hp | registered hp
  | leave _ hp | shutdown hp | flush _ hp | deliverControl hp | deliverStream _ hp =>
      simp [hp, Phase.isPolling] at hpolling
  | streamsJoined hp | streamsElapsed hp =>
      exact isCalm_drainControl (h.quiet (by simp [hp, Phase.isOver]))
  | controlJoined | controlElapsed => exact isCalm_finish _ h.late
  | @control task task' chunks label hcontrol htask hopen =>
      have hchunks : chunks = [] := by
        cases hover : s.phase.isOver with
        | true => exact hopen hover
        | false =>
            have hneeds := (h.quiet hover).controlTask task hcontrol
            exact (ControlTask.step_of_needsConnection_eq_false hneeds htask).2
      subst hchunks
      refine ⟨hpolling, h.streamTasks, by simpa [IsLate] using h.late, fun hover => ?_⟩
      have hneeds := (h.quiet hover).controlTask task hcontrol
      refine ⟨h.streamTasks, by simp [(h.quiet hover).outbox], ?_⟩
      rintro _ ⟨⟩
      exact (ControlTask.step_of_needsConnection_eq_false hneeds htask).1
  | stream index label htask =>
      rw [h.streamTasks] at htask
      cases htask

theorem IsCalm.run {grace : Nat} {s t : Serve} {ls : List Label} (h : s.IsCalm grace)
    (hrun : Machine.run (Serve.step grace) s ls = some t) : t.IsCalm grace :=
  run_invariant (IsCalm grace) (fun _ _ _ hcalm hstep => hcalm.step hstep) h hrun

/-! ## The shutdown branch -/

/-- A step of the accept loop stays in it, or it leaves for a calm state if it may. -/
theorem isCalm_of_leavesQuiet {grace : Nat} {s t : Serve} {l : Label}
    (hpolling : s.phase.isPolling = true) (hl : s.LeavesQuiet grace l)
    (hstep : s.step grace l = some t) : t.phase.isPolling = true ∨ t.IsCalm grace := by
  cases steps_of_step hstep with
  | fire => exact Or.inl ((isPolling_wake s).trans hpolling)
  | elapse | control | stream => exact Or.inl hpolling
  | select | acceptControl | rejectControl | acceptStream | registered => exact Or.inl rfl
  | flush _ hp | deliverControl hp | deliverStream _ hp => exact Or.inl hpolling
  | leave result hp hleaves => exact Or.inr (isCalm_finish result (hl.2 hleaves))
  | shutdown hp =>
      have hq := hl.1 rfl
      refine Or.inr ⟨rfl, hq.streamTasks, isLate_of_outbox_eq_nil hq.outbox, fun _ => ?_⟩
      exact ⟨hq.streamTasks, hq.outbox, hq.controlTask⟩
  | streamsJoined hp | streamsElapsed hp | controlJoined hp | controlElapsed hp =>
      simp [hp, Phase.isPolling] at hpolling

/-- The event has fired by the time the shutdown branch is ready. -/
def FiredIfWoken (s : Serve) : Prop :=
  ∀ entered, s.phase = .selecting entered .woken → s.firedAt.isSome = true

theorem firedIfWoken_step {grace : Nat} {s t : Serve} {l : Label} (h : s.FiredIfWoken)
    (hstep : s.step grace l = some t) : t.FiredIfWoken := by
  intro entered hp
  cases steps_of_step hstep with
  | fire hover => simp [wake, hover]
  | elapse | control | stream | flush | deliverControl | deliverStream => exact h entered hp
  | select | acceptControl | rejectControl | acceptStream | registered | leave | shutdown
  | controlJoined | controlElapsed => cases hp
  | streamsJoined | streamsElapsed =>
      unfold drainControl at hp
      split at hp <;> cases hp

/-- The drain goes wrong as soon as a task queues something or waits for something. -/
theorem IsBusy.not_driven {grace deadline : Nat} {s : Serve} (h : s.IsBusy)
    (hfired : s.firedAt.isSome = true) (hp : s.phase = .drainingStreams deadline) :
    ¬ s.Driven grace := by
  intro hdriven
  have hpolling := hdriven.polled hfired (by simp [hp, Phase.isOver]) h
  simp [hp, Phase.isPolling] at hpolling

theorem step_control_of_draining (grace : Nat) {deadline : Nat} {s : Serve} {task task' : ControlTask}
    {label : ControlLabel} {chunks : List Chunk} (hp : s.phase = .drainingStreams deadline)
    (hcontrol : s.controlTask = some task)
    (htask : task.step grace s.now label = some (task', chunks)) :
    s.step grace (.control label) =
      some { s with controlTask := some task', outbox := s.outbox ++ chunks } := by
  refine step_control hcontrol htask fun hover => ?_
  simp [hp, Phase.isOver] at hover

/-- A control task that needs the connection comes to queue something, if it is not waiting. -/
theorem exists_control_queues (grace : Nat) {deadline : Nat} {s : Serve} {task : ControlTask}
    (hp : s.phase = .drainingStreams deadline) (hcontrol : s.controlTask = some task)
    (hneeds : task.needsConnection = true) (hawaiting : task.isAwaiting = false) :
    ∃ ls t, run (step grace) s ls = some t ∧ t.outbox ≠ [] ∧ t.firedAt = s.firedAt ∧
      t.phase = .drainingStreams deadline := by
  obtain ⟨phase, registration⟩ := task
  have hone : ∀ label task' chunks, chunks ≠ [] →
      ControlTask.step grace s.now ⟨phase, registration⟩ label = some (task', chunks) →
      ∃ ls t, run (step grace) s ls = some t ∧ t.outbox ≠ [] ∧ t.firedAt = s.firedAt ∧
        t.phase = .drainingStreams deadline := by
    intro label task' chunks hchunks htask
    refine ⟨[.control label], _, run_cons_eq_some.mpr ⟨_, step_control_of_draining grace hp hcontrol htask, rfl⟩, ?_⟩
    exact ⟨by simp [hchunks], rfl, hp⟩
  cases phase with
  | announcing | announced | ended => cases hneeds
  | responding => exact hone .respond _ _ (List.cons_ne_nil _ _) rfl
  | registering awaiting =>
      cases (hawaiting : awaiting = false)
      exact hone .queue _ _ (List.cons_ne_nil _ _) rfl
  | unregistering due awaiting heard =>
      cases (hawaiting : awaiting = false)
      exact hone .queue _ _ (List.cons_ne_nil _ _) rfl
  | parked controlShutdown =>
      cases controlShutdown with
      | waiting => cases hneeds
      | woken =>
          let due := s.now + grace
          let unparked : Serve :=
            { s with controlTask := some ⟨.unregistering due false false, registration⟩
                     outbox := s.outbox ++ [] }
          have hunpark : s.step grace (.control .unpark) = some unparked :=
            step_control_of_draining grace hp hcontrol rfl
          have hcall : ControlTask.step grace s.now ⟨.unregistering due false false, registration⟩
              .queue = some (⟨.unregistering due false false, registration⟩, [⟨s.now⟩]) := rfl
          have hqueue := step_control_of_draining grace (s := unparked) hp rfl hcall
          refine ⟨[.control .unpark, .control .queue], _,
            run_cons_eq_some.mpr ⟨_, hunpark, run_cons_eq_some.mpr ⟨_, hqueue, rfl⟩⟩, ?_⟩
          exact ⟨by simp, rfl, hp⟩

/-- **The drain with something to drain** can always come to a state in which a task depends on
the connection and nobody polls it. -/
theorem exists_not_driven (grace : Nat) {deadline : Nat} {s : Serve} (hfired : s.firedAt.isSome = true)
    (hp : s.phase = .drainingStreams deadline) (hquiet : ¬ s.IsQuiet) :
    ∃ ls t, run (step grace) s ls = some t ∧ ¬ t.Driven grace := by
  by_cases hbusy : s.IsBusy
  · exact ⟨[], s, rfl, hbusy.not_driven hfired hp⟩
  have hout : s.outbox = [] := Decidable.byContradiction fun h => hbusy (Or.inl h)
  cases htasks : s.streamTasks with
  | cons task rest =>
      have hawaiting : task.awaiting = false := by
        cases h : task.awaiting with
        | false => rfl
        | true => exact absurd (Or.inr (Or.inl ⟨task, by simp [htasks], h⟩)) hbusy
      have hqueue : s.step grace (.stream 0 .queue) =
          some { s with streamTasks := s.streamTasks.set 0 task, outbox := s.outbox ++ [⟨s.now⟩] } := by
        simp [step, htasks, streamStep, hawaiting, replaceStream]
      refine ⟨[.stream 0 .queue], _, run_cons_eq_some.mpr ⟨_, hqueue, rfl⟩, ?_⟩
      exact IsBusy.not_driven (Or.inl (by simp)) hfired hp
  | nil =>
      -- only the control task is left to need the connection
      cases hcontrol : s.controlTask with
      | none => exact absurd ⟨htasks, hout, by simp [hcontrol]⟩ hquiet
      | some task =>
          have hneeds : task.needsConnection = true := by
            cases h : task.needsConnection with
            | true => rfl
            | false =>
                refine absurd ⟨htasks, hout, fun other hother => ?_⟩ hquiet
                cases hcontrol.symm.trans hother
                exact h
          have hawaiting : task.isAwaiting = false := by
            cases h : task.isAwaiting with
            | false => rfl
            | true => exact absurd (Or.inr (Or.inr ⟨task, hcontrol, h⟩)) hbusy
          obtain ⟨ls, t, hrun, htout, htfired, htp⟩ :=
            exists_control_queues grace hp hcontrol hneeds hawaiting
          exact ⟨ls, t, hrun, IsBusy.not_driven (Or.inl htout) (htfired ▸ hfired) htp⟩

/-- A step out of the accept loop: every state that can follow is driven just in case the step was
taken with nothing left to drain. -/
theorem leavesQuiet_iff_forall_driven {grace : Nat} {s t : Serve} {l : Label}
    (hwoken : s.FiredIfWoken) (hpolling : s.phase.isPolling = true)
    (hstep : s.step grace l = some t) (hleft : t.phase.isPolling = false) :
    s.LeavesQuiet grace l ↔
      ∀ ls u, run (step grace) t ls = some u → u.Driven grace := by
  constructor
  · intro hl ls u hrun
    rcases isCalm_of_leavesQuiet hpolling hl hstep with hstill | hcalm
    · rw [hleft] at hstill
      cases hstill
    · exact (hcalm.run hrun).driven
  · intro hall
    cases steps_of_step hstep with
    | leave result hp hleaves =>
        refine ⟨?_, fun _ => (hall [] _ rfl).delivered result rfl⟩
        rintro rfl
        cases hleaves
    | @shutdown entered hp =>
        refine ⟨fun _ => ?_, fun hleaves => by cases hleaves⟩
        by_cases hquiet : s.wakeControl.IsQuiet
        · exact hquiet
        · obtain ⟨ls, u, hrun, hnot⟩ := exists_not_driven grace
            (s := { s.wakeControl with phase := .drainingStreams (s.now + grace) })
            (hwoken entered hp) rfl (fun h => hquiet ⟨h.1, h.2, h.3⟩)
          exact absurd (hall ls u hrun) hnot
    | fire hover =>
        rw [isPolling_wake, hpolling] at hleft
        cases hleft
    | elapse | control | stream | flush | deliverControl | deliverStream =>
        rw [hpolling] at hleft
        cases hleft
    | select | acceptControl | rejectControl | acceptStream | registered => cases hleft
    | streamsJoined hp | streamsElapsed hp | controlJoined hp | controlElapsed hp =>
        simp [hp, Phase.isPolling] at hpolling

/-- **When the drain is driven.** In every run that leaves the accept loop with nothing left to
drain, the connection is polled whenever a task depends on it, and what becomes ready within the
grace period is on the wire at the return. The condition is exact: a step that leaves the loop
otherwise can be followed by a state that is not driven. -/
theorem driven_iff_leavesQuiet {grace : Nat} {ls : List Label} {s : Serve}
    (hrun : run (step grace) init ls = some s)
    (hC : Always (step grace) (LeavesQuiet grace) init ls) :
    s.Driven grace ∧
      ∀ l t, s.phase.isPolling = true → s.step grace l = some t → t.phase.isPolling = false →
        (s.LeavesQuiet grace l ↔
          ∀ more u, run (step grace) t more = some u → u.Driven grace) := by
  have hwoken : s.FiredIfWoken :=
    run_invariant FiredIfWoken (fun _ _ _ h hstep => firedIfWoken_step h hstep)
      (fun _ hp => by cases hp) hrun
  have hloop : s.phase.isPolling = true ∨ s.IsCalm grace := by
    refine run_invariant_of_always (fun v => v.phase.isPolling = true ∨ v.IsCalm grace)
      (fun v l w hv hl hstep => ?_) (Or.inl rfl) hrun hC
    rcases hv with hpolling | hcalm
    · exact isCalm_of_leavesQuiet hpolling hl hstep
    · exact Or.inr (hcalm.step hstep)
  refine ⟨?_, fun l t hpolling hstep hleft =>
    leavesQuiet_iff_forall_driven hwoken hpolling hstep hleft⟩
  rcases hloop with hpolling | hcalm
  · exact driven_of_isPolling hpolling
  · exact hcalm.driven

/-- A request that is answered before the shutdown fires. -/
def answeredBefore : List Label :=
  [.select, .acceptStream 3, .stream 0 .dispatch, .stream 0 .queue, .stream 0 .finish, .select,
   .flush 0, .fire, .shutdown, .streamsJoined]

theorem driven_answeredBefore :
    ∃ s, run (step 30) init answeredBefore = some s ∧ s.Driven 30 := by
  have hrun : run (step 30) init answeredBefore =
      some ⟨0, some 0, .returned (.ok ()), false, none, [], [], [⟨0⟩]⟩ := rfl
  refine ⟨_, hrun, (driven_iff_leavesQuiet hrun ?_).1⟩
  simp only [answeredBefore, always_cons, always_nil, LeavesQuiet, leavesLoop, reduceCtorEq,
    false_implies, true_and, implies_true, and_true, forall_const]
  rintro _ ⟨⟩ _ ⟨⟩ _ ⟨⟩ _ ⟨⟩ _ ⟨⟩ _ ⟨⟩ _ ⟨⟩ _ ⟨⟩
  exact ⟨rfl, rfl, fun _ h => by cases h⟩

/-- A registered connection with one request in flight when the shutdown fires. Both its answer
and the unregister call are ready at once. -/
def inFlight : List Label :=
  [.select, .acceptControl, .control .respond, .select, .flush 0, .control .registered,
   .control .announce, .control .park, .registrationRead, .select, .acceptStream 3,
   .stream 0 .dispatch, .select, .fire, .shutdown, .stream 0 .queue, .control .unpark,
   .control .queue]

/-- The rest of that run: nothing moves until both waits have timed out. -/
def timedOut : List Label :=
  [.elapse 30, .streamsElapsed, .elapse 30, .controlElapsed]

theorem not_driven_inFlight :
    ∃ s t, run (step 30) init inFlight = some s ∧
      (s.phase.isOver = false ∧ s.phase.isPolling = false ∧ s.outbox = [⟨0⟩, ⟨0⟩]) ∧
      ¬ s.Driven 30 ∧
      run (step 30) s timedOut = some t ∧ t.phase = .returned (.ok ()) ∧
      ¬ t.Driven 30 := by
  refine ⟨_, _, rfl, ⟨rfl, rfl, rfl⟩, fun h => ?_, rfl, rfl, fun h => ?_⟩
  · cases h.polled rfl rfl (Or.inl (by decide))
  · exact Nat.not_lt_zero _ (h.delivered _ rfl 0 rfl ⟨0⟩ (by decide))

end Serve

end Libcfd.Edge.H2
