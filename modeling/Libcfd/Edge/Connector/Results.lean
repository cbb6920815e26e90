import Libcfd.Edge.Connector.Shutdown

/-!
# What an attempt has got for a result

The result of an attempt comes a long way: the control task sends its error to `serve`, `serve`
returns it, the `JoinHandle` carries it, `run_h2` or `run_quic` hands it on, and each of them puts
in errors and an `Ok(())` of its own. `Attempt.Holds` says of an attempt that whatever it has got so
far is of some kind; then so is what it returns.
-/

namespace Libcfd.Edge

open Libcfd.Edge.H2 (ControlTask Serve)

section Holds

variable (Q : Except Error Unit → Prop)

/-- What it has sent to `serve`. -/
def H2.ControlTask.Holds (task : ControlTask) : Prop :=
  ∀ e, task.registration = .sent (.error e) → Q (.error e)

/-- What it has returned, or may still read from its control task. -/
structure H2.Serve.Holds (serve : Serve) : Prop where
  returned : ∀ e, serve.phase = .returned (.error e) → Q (.error e)
  control : ∀ task, serve.controlTask = some task → task.Holds Q

/-- `Ok(())` is what a shutdown comes to. -/
def H2Phase.Holds : H2Phase → Prop
  | .serving .woken | .stopping _ => Q (.ok ())
  | .finished result => Q result
  | _ => True

def H2Attempt.Holds : H2Attempt → Prop
  | .failed e => Q (.error e)
  | .running phase _ serve => phase.Holds Q ∧ serve.Holds Q
  | _ => True

def QuicPhase.Holds : QuicPhase → Prop
  | .serving .woken => Q (.ok ())
  | .unregistering served _ | .draining served _ => Q (quicResult served)
  | .finished result _ => Q result
  | _ => True

structure QuicServing.Holds (q : QuicServing) : Prop where
  phase : q.phase.Holds Q
  served : ∀ joined, q.serveTask = .ended joined → Q (quicResult (some joined))

def QuicAttempt.Holds : QuicAttempt → Prop
  | .failed e => Q (.error e)
  | .registered q => q.Holds Q
  | _ => True

def Attempt.Holds : Attempt → Prop
  | .quic attempt => attempt.Holds Q
  | .h2 attempt => attempt.Holds Q

end Holds

/-- The error that is put in from outside. -/
def AttemptLabel.error? : AttemptLabel → Option Error
  | .quic (.connectFailed e) | .quic (.registerFailed e)
  | .quic (.serveEnded (.completed (.error e))) | .h2 (.connectFailed e)
  | .h2 (.serve (.control (.registrationFailed e))) => some e
  | _ => none

/-! ## HTTP/2 -/

section Kind

-- the errors the transports make themselves are of the kind
variable {Q : Except Error Unit → Prop} (hquic : ∀ message, Q (.error (.quic message)))
  (hh2 : ∀ message, Q (.error (.h2 message)))

namespace H2

include hh2 in
theorem ControlTask.holds_step {grace now : Nat} {task task' : ControlTask} {l : ControlLabel}
    {chunks : List Chunk} (h : task.Holds Q) (hl : ∀ e, l = .registrationFailed e → Q (.error e))
    (hstep : task.step grace now l = some (task', chunks)) : task'.Holds Q := by
  cases steps_of_step hstep with
  | respondFailed r message =>
      rintro _ ⟨⟩
      exact hh2 message
  | registrationFailed r awaiting e =>
      rintro _ ⟨⟩
      exact hl e rfl
  | announce => exact nofun
  | panicked _ _ =>
      intro e he
      apply h e
      dsimp only at he
      split at he
      · cases he
      · exact he
  | _ => exact h

theorem ControlTask.holds_wake {task : ControlTask} (h : task.Holds Q) : task.wake.Holds Q := by
  unfold wake
  split <;> exact h

theorem ControlTask.holds_deliver {task task' : ControlTask} (h : task.Holds Q)
    (hdeliver : task.deliver = some task') : task'.Holds Q := by
  unfold deliver at hdeliver
  split at hdeliver <;> cases hdeliver <;> exact h

namespace Serve

variable {s t : Serve}

theorem holds_init : (Serve.init).Holds Q := ⟨fun _ => nofun, fun _ => nofun⟩

/-- It has not returned. -/
theorem holds_of_running (hphase : ∀ result, t.phase ≠ .returned result)
    (hcontrol : ∀ task, t.controlTask = some task → task.Holds Q) : t.Holds Q :=
  ⟨fun e he => absurd he (hphase (.error e)), hcontrol⟩

theorem holds_wakeControl (h : s.Holds Q) :
    ∀ task, s.wakeControl.controlTask = some task → task.Holds Q := by
  intro task htask
  obtain ⟨before, hbefore, rfl⟩ := Option.map_eq_some_iff.mp htask
  exact ControlTask.holds_wake (h.control before hbefore)

theorem holds_wake (h : s.Holds Q) : s.wake.Holds Q := by
  constructor
  · intro e he
    apply h.returned e
    unfold wake at he
    split at he
    · exact he
    · cases hp : s.phase <;> rw [hp] at he <;> cases he
      rfl
  · rw [controlTask_wake]
    exact h.control

theorem holds_abort (h : s.Holds Q) : s.abort.Holds Q := by
  unfold abort
  split
  · exact h
  · exact ⟨fun _ => nofun, h.control⟩

theorem holds_drainControl {grace : Nat} (h : s.Holds Q) : (s.drainControl grace).Holds Q := by
  unfold drainControl
  split
  · exact ⟨fun _ => nofun, h.control⟩
  · exact ⟨fun _ => nofun, h.control⟩

theorem leave_inj {result result' : Except Error Unit} :
    s.leave result = s.leave result' ↔ result = result' :=
  ⟨fun h => Phase.returned.inj (congrArg Serve.phase h), fun h => by rw [h]⟩

/-- What makes it return in its loop is a branch of the `select!`. -/
theorem step_of_leavesLoop {grace entered : Nat} {notified : Notified} {l : Label}
    (hp : s.phase = .selecting entered notified) (hl : s.leavesLoop l = true) :
    s.step grace l = s.selectStep grace entered notified l := by
  cases l with
  | connectionError | connectionClosed | registrationTimedOut | registrationRead =>
      simp only [step, hp]
  | _ => cases hl

/-- What it leaves its loop with: an error of its own, the end of the connection, or what its
control task has sent. -/
theorem result_of_leave {grace entered : Nat} {notified : Notified} {l : Label}
    {result : Except Error Unit} (hp : s.phase = .selecting entered notified)
    (hl : s.leavesLoop l = true) (hstep : s.step grace l = some (s.leave result)) :
    (∃ message, result = .error (.h2 message)) ∨ result = .ok () ∨
      ∃ task, s.controlTask = some task ∧ task.registration = .sent result := by
  rw [step_of_leavesLoop hp hl] at hstep
  cases l with
  | connectionError message =>
      obtain rfl := leave_inj.mp (Option.some.inj hstep)
      exact .inl ⟨_, rfl⟩
  | connectionClosed =>
      obtain rfl := leave_inj.mp (Option.some.inj hstep)
      exact .inr (.inl rfl)
  | registrationTimedOut =>
      obtain ⟨_, hleave⟩ := Option.ite_none_right_eq_some.mp hstep
      obtain rfl := leave_inj.mp (Option.some.inj hleave)
      exact .inl ⟨_, rfl⟩
  | registrationRead =>
      obtain ⟨_, hread⟩ := Option.ite_none_left_eq_some.mp hstep
      obtain ⟨task, hcontrol, hread⟩ := Option.bind_eq_some_iff.mp hread
      unfold readRegistration at hread
      split at hread
      · cases hread
      · next hsent =>
          simp [leavesLoop, hcontrol, hsent] at hl
      · next e hsent =>
          obtain rfl := leave_inj.mp (Option.some.inj hread)
          exact .inr (.inr ⟨task, hcontrol, hsent⟩)
      · obtain rfl := leave_inj.mp (Option.some.inj hread)
        exact .inl ⟨_, rfl⟩
  | _ => cases hl

include hh2 in
theorem holds_step {grace : Nat} {l : Label} (h : s.Holds Q)
    (hl : ∀ e, l = .control (.registrationFailed e) → Q (.error e))
    (hstep : s.step grace l = some t) : t.Holds Q := by
  cases steps_of_step hstep with
  | fire => exact holds_wake h
  | elapse | flush | stream => exact ⟨h.returned, h.control⟩
  | select | rejectControl | acceptStream | registered => exact holds_of_running nofun h.control
  | acceptControl =>
      apply holds_of_running
      · exact nofun
      · rintro _ ⟨⟩
        exact fun _ => nofun
  | leave result hp hleaves =>
      refine ⟨?_, holds_wakeControl h⟩
      rintro e ⟨⟩
      rcases result_of_leave hp hleaves hstep with ⟨message, hmessage⟩ | hok | ⟨task, htask, hsent⟩
      · cases hmessage
        exact hh2 message
      · cases hok
      · exact h.control task htask e hsent
  | shutdown => exact holds_of_running nofun (holds_wakeControl h)
  | streamsJoined | streamsElapsed => exact holds_drainControl h
  | controlJoined | controlElapsed => exact ⟨fun _ => nofun, h.control⟩
  | deliverControl hp hcontrol hdeliver =>
      refine ⟨h.returned, ?_⟩
      rintro _ ⟨⟩
      exact ControlTask.holds_deliver (h.control _ hcontrol) hdeliver
  | deliverStream => exact ⟨h.returned, h.control⟩
  | control label hcontrol htask =>
      refine ⟨h.returned, ?_⟩
      rintro _ ⟨⟩
      apply ControlTask.holds_step hh2 (h.control _ hcontrol) _ htask
      intro e he
      exact hl e (congrArg Label.control he)

end Serve

end H2

namespace H2Attempt

variable {a b : H2Attempt}

theorem holds_joined {fired : Bool} {serve : Serve} {joined : Joined} (h : serve.Holds Q)
    (hjoined : joinServe serve = some joined) (hfired : fired = true → Q (.ok ()))
    (hh2 : ∀ message, Q (.error (.h2 message))) : Q (h2Result fired joined) := by
  unfold joinServe at hjoined
  split at hjoined
  · next result hp =>
      cases hjoined
      cases result with
      | error e => exact h.returned e hp
      | ok =>
          cases fired with
          | true => exact hfired rfl
          | false => exact hh2 _
  · cases hjoined
    exact hh2 _
  · cases hjoined

theorem holds_hear {label : H2.Label} {phase : H2Phase} (h : phase.Holds Q) :
    (phase.hear label).Holds Q := by
  cases phase <;> exact h

include hh2 in
theorem holds_step {grace : Nat} {fired : Bool} {l : H2Label} (h : a.Holds Q)
    (hfired : fired = true → Q (.ok ())) (hl : ∀ e ∈ (AttemptLabel.h2 l).error?, Q (.error e))
    (hstep : a.step grace fired l = some b) : b.Holds Q := by
  cases steps_of_step hstep with
  | connected => exact ⟨trivial, H2.Serve.holds_init⟩
  | connectFailed e => exact hl e rfl
  | serve phase registeredAt label hlabel hserve =>
      refine ⟨holds_hear h.1, H2.Serve.holds_step hh2 h.2 ?_ hserve⟩
      rintro e rfl
      exact hl e rfl
  | awaitRegistered | registered | registeredElapsed => exact ⟨trivial, h.2⟩
  | shutdown => exact h
  | serveJoined shutdown registeredAt serve hjoined =>
      exact ⟨holds_joined h.2 hjoined hfired hh2, h.2⟩
  | stopped deadline registeredAt serve hjoined =>
      exact ⟨holds_joined h.2 hjoined (fun _ => h.1) hh2, h.2⟩
  | stopElapsed registeredAt serve => exact ⟨h.1, H2.Serve.holds_abort h.2⟩

theorem holds_wake (hok : Q (.ok ())) (h : a.Holds Q) : a.wake.Holds Q := by
  cases a with
  | running phase registeredAt serve =>
      have hserve : serve.wake.Holds Q := H2.Serve.holds_wake h.2
      cases phase with
      | serving => exact ⟨hok, hserve⟩
      | _ => exact ⟨h.1, hserve⟩
  | _ => exact h

end H2Attempt

/-! ## QUIC -/

namespace QuicServing

variable {q q' : QuicServing}

include hquic in
theorem holds_step {grace : Nat} {fired : Bool} {l : QuicLabel} (h : q.Holds Q)
    (hl : ∀ e ∈ (AttemptLabel.quic l).error?, Q (.error e))
    (hstep : q.step grace fired l = some q') : q'.Holds Q := by
  have hclosed : ∀ {fired served timedOut}, Q (quicResult served) →
      ∀ {q : QuicServing}, (∀ joined, q.serveTask = .ended joined → Q (quicResult (some joined))) →
        (q.close fired served timedOut).Holds Q := by
    intro fired served timedOut hserved q hended
    refine ⟨hserved, fun joined hjoined => hended joined ?_⟩
    unfold close at hjoined
    dsimp only at hjoined
    split at hjoined
    · cases hjoined
    · exact hjoined
  cases steps_of_step hstep with
  | elapse | receive | dispatch => exact ⟨h.phase, h.served⟩
  | serveEnded joined =>
      refine ⟨h.phase, ?_⟩
      rintro _ ⟨⟩
      match joined with
      | .completed (.ok ()) => exact hquic _
      | .completed (.error e) => exact hl e rfl
      | .failed message => exact hquic _
  | shutdown hp =>
      have hok := h.phase
      rw [hp] at hok
      exact ⟨hok, h.served⟩
  | serveJoined hp htask => exact ⟨h.served _ htask, h.served⟩
  | unregistered how timedOut hp =>
      have hserved := h.phase
      rw [hp] at hserved
      exact ⟨hserved, h.served⟩
  | closed how timedOut hp | drained timedOut hp =>
      have hserved := h.phase
      rw [hp] at hserved
      exact hclosed hserved h.served

end QuicServing

namespace QuicAttempt

variable {a b : QuicAttempt}

include hquic in
theorem holds_step {grace : Nat} {fired : Bool} {l : QuicLabel} (h : a.Holds Q)
    (hl : ∀ e ∈ (AttemptLabel.quic l).error?, Q (.error e))
    (hstep : a.step grace fired l = some b) : b.Holds Q := by
  unfold step at hstep
  split at hstep
  · cases hstep
    exact trivial
  · cases hstep
    exact hl _ rfl
  · cases hstep
    exact trivial
  · cases hstep
    exact ⟨trivial, fun _ => nofun⟩
  · cases hstep
    exact hl _ rfl
  · obtain ⟨_, ⟨⟩⟩ := Option.ite_none_right_eq_some.mp hstep
    exact hquic _
  · obtain ⟨q', hserving, ⟨⟩⟩ := Option.map_eq_some_iff.mp hstep
    exact QuicServing.holds_step hquic h hl hserving
  · cases hstep

theorem holds_wake (hok : Q (.ok ())) (h : a.Holds Q) : a.wake.Holds Q := by
  cases a with
  | registered q =>
      obtain ⟨_, _, phase, _⟩ := q
      cases phase with
      | serving => exact ⟨hok, h.served⟩
      | _ => exact ⟨h.phase, h.served⟩
  | _ => exact h

end QuicAttempt

/-! ## Both -/

namespace Attempt

variable {a b : Attempt}

theorem holds_start (transport : Transport) : (Attempt.start transport).Holds Q := by
  cases transport <;> exact trivial

include hquic hh2 in
/-- **A step of an attempt** puts in nothing else than its label does, and `Ok(())` only once the
shutdown has fired. -/
theorem holds_step {grace : Nat} {fired : Bool} {l : AttemptLabel} (h : a.Holds Q)
    (hfired : fired = true → Q (.ok ())) (hl : ∀ e ∈ l.error?, Q (.error e))
    (hstep : a.step grace fired l = some b) : b.Holds Q := by
  unfold step at hstep
  split at hstep
  · obtain ⟨attempt, hquicStep, ⟨⟩⟩ := Option.map_eq_some_iff.mp hstep
    exact QuicAttempt.holds_step hquic h hl hquicStep
  · obtain ⟨attempt, hh2Step, ⟨⟩⟩ := Option.map_eq_some_iff.mp hstep
    exact H2Attempt.holds_step hh2 h hfired hl hh2Step
  · cases hstep

theorem holds_wake (hok : Q (.ok ())) (h : a.Holds Q) : a.wake.Holds Q := by
  cases a with
  | quic attempt => exact QuicAttempt.holds_wake hok h
  | h2 attempt => exact H2Attempt.holds_wake hok h

/-- What it returns is of the kind. -/
theorem of_finished {outcome : ServeAttempt} (h : a.Holds Q)
    (hfinished : a.finished outcome = true) : Q outcome.result := by
  cases a with
  | quic attempt =>
      cases attempt with
      | failed e =>
          obtain rfl := of_decide_eq_true hfinished
          exact h
      | registered q =>
          have hphase := QuicServing.Holds.phase h
          unfold finished QuicAttempt.finished at hfinished
          dsimp only at hfinished
          split at hfinished
          · next hp =>
              rw [hp] at hphase
              rw [(of_decide_eq_true hfinished).1]
              exact hphase
          · cases hfinished
      | _ => cases hfinished
  | h2 attempt =>
      cases attempt with
      | failed e =>
          obtain rfl := of_decide_eq_true hfinished
          exact h
      | running phase registeredAt serve =>
          cases phase with
          | finished result =>
              rw [(of_decide_eq_true hfinished).1]
              exact h.1
          | _ => cases hfinished
      | _ => cases hfinished

end Attempt

end Kind

/-! ## Kinds that grow -/

section Mono

variable {Q Q' : Except Error Unit → Prop} (hQ : ∀ result, Q result → Q' result)

include hQ

theorem H2Phase.Holds.mono {phase : H2Phase} (h : phase.Holds Q) : phase.Holds Q' := by
  cases phase with
  | serving shutdown =>
      cases shutdown with
      | waiting => exact trivial
      | woken => exact hQ _ h
  | stopping | finished => exact hQ _ h
  | _ => exact trivial

theorem H2.Serve.Holds.mono {serve : Serve} (h : serve.Holds Q) : serve.Holds Q' :=
  ⟨fun e he => hQ _ (h.returned e he), fun task htask e he => hQ _ (h.control task htask e he)⟩

theorem QuicPhase.Holds.mono {phase : QuicPhase} (h : phase.Holds Q) : phase.Holds Q' := by
  cases phase with
  | serving shutdown =>
      cases shutdown with
      | waiting => exact trivial
      | woken => exact hQ _ h
  | unregistering | draining | finished => exact hQ _ h
  | dropped => exact trivial

theorem Attempt.Holds.mono {a : Attempt} (h : a.Holds Q) : a.Holds Q' := by
  cases a with
  | quic attempt =>
      cases attempt with
      | failed e => exact hQ _ h
      | registered q =>
          exact ⟨(QuicServing.Holds.phase h).mono hQ,
            fun joined hjoined => hQ _ (QuicServing.Holds.served h joined hjoined)⟩
      | _ => exact trivial
  | h2 attempt =>
      cases attempt with
      | failed e => exact hQ _ h
      | running phase registeredAt serve => exact ⟨h.1.mono hQ, h.2.mono hQ⟩
      | _ => exact trivial

end Mono

end Libcfd.Edge
