import Libcfd.Edge.Connector.Runtime
import Libcfd.Edge.H2.Unregister

/-!
# What `run` leaves behind

Both the reconnect loop and the attempt it waits for wait for the same event. When the loop's own
`select!` takes its shutdown branch first, the attempt is dropped: its unregister call, its drain
and its close never happen, and its serve task, detached, goes on handing requests to the origin.
This file states what a finished shutdown sequence is and proves that `run` waits for it in every
run in which that does not happen.
-/

namespace Libcfd.Edge

open Libcfd.Machine
open Libcfd.Edge.H2 (Serve rpcTimeout)

namespace QuicServing

/-- The serve task hands out nothing any more. -/
def IsSilent (q : QuicServing) : Prop :=
  q.serveTask ≠ .running ∨ (q.closed = true ∧ q.pending = 0)

def isFinished (q : QuicServing) : Bool :=
  match q.phase with
  | .finished .. => true
  | _ => false

/-- Registered with the edge, the unregister call not over. -/
def isRegistered (q : QuicServing) : Bool :=
  match q.phase with
  | .serving _ | .unregistering .. => true
  | _ => false

/-- The unregister call is over: it was answered, or the grace period has elapsed since the shutdown
fired. -/
def Unregistered (grace : Nat) (q : QuicServing) : Prop :=
  q.unregistration = some .answered ∨ q.unregistration.isSome = true ∧
    ∃ firedAt, q.firedAt = some firedAt ∧ firedAt + grace ≤ q.now

/-- The attempt on its way from the firing to its end. However the unregister call ends, a whole
grace period is slept out behind it. -/
def Heeds (grace : Nat) (q : QuicServing) : Prop :=
  match q.phase with
  | .serving _ | .unregistering .. => ∃ firedAt, q.firedAt = some firedAt ∧ firedAt ≤ q.now
  | .draining _ wakeAt => q.unregistration.isSome = true ∧
      ∃ firedAt, q.firedAt = some firedAt ∧ firedAt + grace ≤ wakeAt
  | .finished .. => q.Unregistered grace ∧ q.drained = true ∧ q.closed = true
  | .dropped => False

/-! ## What a step can do -/

inductive Steps (grace : Nat) (fired : Bool) (q : QuicServing) : QuicLabel → QuicServing → Prop
  | elapse (nanos : Nat) : Steps grace fired q (.elapse nanos) { q with now := q.now + nanos }
  | receive (h : q.closed = false) :
      Steps grace fired q .receive { q with pending := q.pending + 1 }
  | dispatch (h : q.serveTask = .running) (hpending : 0 < q.pending) :
      Steps grace fired q .dispatch { q with pending := q.pending - 1 }
  | serveEnded (joined : Joined) (h : q.serveTask = .running) :
      Steps grace fired q (.serveEnded joined) { q with serveTask := .ended joined }
  | shutdown (h : q.phase = .serving .woken) :
      Steps grace fired q .shutdown { q with phase := .unregistering none (q.now + grace) }
  | serveJoined {notified : Notified} {joined : Joined} (h : q.phase = .serving notified)
      (htask : q.serveTask = .ended joined) :
      Steps grace fired q .serveJoined
        { q with phase := .unregistering (some joined) (q.now + grace) }
  | unregistered {served : Option Joined} {deadline : Nat} (how : H2.Unregistration)
      (timedOut : Bool) (h : q.phase = .unregistering served deadline) (hfired : fired = true) :
      Steps grace fired q (.unregistered how timedOut)
        { q with unregistration := some how, phase := .draining served (q.now + grace) }
  | closed {served : Option Joined} {deadline : Nat} (how : H2.Unregistration) (timedOut : Bool)
      (h : q.phase = .unregistering served deadline) (hfired : fired = false) :
      Steps grace fired q (.unregistered how timedOut)
        (({ q with unregistration := some how } : QuicServing).close false served timedOut)
  | drained {served : Option Joined} {wakeAt : Nat} (timedOut : Bool)
      (h : q.phase = .draining served wakeAt) (helapsed : wakeAt ≤ q.now) :
      Steps grace fired q (.drained timedOut) (q.close true served timedOut)

theorem steps_of_step {grace : Nat} {fired : Bool} {q q' : QuicServing} {l : QuicLabel}
    (h : q.step grace fired l = some q') : Steps grace fired q l q' := by
  cases l with
  | elapse nanos =>
      cases h
      exact .elapse nanos
  | receive =>
      obtain ⟨hclosed, ⟨⟩⟩ := Option.ite_none_left_eq_some.mp h
      exact .receive (by simpa using hclosed)
  | dispatch =>
      obtain ⟨⟨hrunning, hpending⟩, ⟨⟩⟩ := Option.ite_none_right_eq_some.mp h
      exact .dispatch hrunning hpending
  | serveEnded joined =>
      obtain ⟨hrunning, ⟨⟩⟩ := Option.ite_none_right_eq_some.mp h
      exact .serveEnded joined hrunning
  | shutdown =>
      simp only [step] at h
      split at h <;> cases h
      exact .shutdown ‹_›
  | serveJoined =>
      simp only [step] at h
      split at h <;> cases h
      exact .serveJoined ‹_› ‹_›
  | unregistered how timedOut =>
      simp only [step] at h
      split at h
      · obtain ⟨_, h⟩ := Option.ite_none_left_eq_some.mp h
        cases fired with
        | true =>
            cases h
            exact .unregistered how timedOut ‹_› rfl
        | false =>
            cases h
            exact .closed how timedOut ‹_› rfl
      · cases h
  | drained timedOut =>
      simp only [step] at h
      split at h
      · obtain ⟨helapsed, ⟨⟩⟩ := Option.ite_none_right_eq_some.mp h
        exact .drained timedOut ‹_› helapsed
      · cases h
  | connected | connectFailed | registered | registerFailed | registerElapsed => cases h

/-- A close leaves nobody to hand out requests, unless it is the close of a shutdown that leaves
requests to a running serve task. -/
theorem isSilent_close {fired : Bool} {served : Option Joined} {timedOut : Bool} {q : QuicServing}
    (h : fired = true → q.serveTask ≠ .running ∨ q.pending = 0) :
    (q.close fired served timedOut).IsSilent := by
  by_cases hrunning : q.serveTask = .running
  · cases fired with
    | false => exact Or.inl (by simp [close, hrunning])
    | true =>
        refine Or.inr ⟨rfl, ?_⟩
        exact (h rfl).resolve_left (fun hended => hended hrunning)
  · exact Or.inl (by simp [close, hrunning])

theorem isSilent_step {grace : Nat} {fired : Bool} {q q' : QuicServing} {l : QuicLabel}
    (h : q.IsSilent) (hstep : q.step grace fired l = some q') : q'.IsSilent := by
  cases steps_of_step hstep with
  | elapse | shutdown | serveJoined | unregistered => exact h
  | receive hopen =>
      rcases h with hended | ⟨hclosed, _⟩
      · exact Or.inl hended
      · simp [hopen] at hclosed
  | dispatch hrunning hpending =>
      rcases h with hended | ⟨_, hidle⟩
      · exact absurd hrunning hended
      · omega
  | serveEnded => exact Or.inl (by simp)
  | closed => exact isSilent_close (fun hfired => by cases hfired)
  | drained => exact isSilent_close (fun _ => h.imp id And.right)

theorem not_dispatch_of_isSilent {grace : Nat} {fired : Bool} {q q' : QuicServing}
    (h : q.IsSilent) (hstep : q.step grace fired .dispatch = some q') : False := by
  cases steps_of_step hstep with
  | dispatch hrunning hpending =>
      rcases h with hended | ⟨_, hidle⟩
      · exact hended hrunning
      · omega

/-- A finished attempt is silent if its close left nobody anything to hand out. -/
theorem isSilent_of_isFinished_step {grace : Nat} {fired : Bool} {q q' : QuicServing}
    {l : QuicLabel} (h : q.isFinished = true → q.IsSilent)
    (hidle : (∃ timedOut, l = .drained timedOut) → q.serveTask ≠ .running ∨ q.pending = 0)
    (hstep : q.step grace fired l = some q') (hfinished : q'.isFinished = true) :
    q'.IsSilent := by
  cases steps_of_step hstep with
  | elapse | receive | dispatch | serveEnded => exact isSilent_step (h hfinished) hstep
  | shutdown | serveJoined | unregistered => cases hfinished
  | closed => exact isSilent_close (fun hfired => by cases hfired)
  | drained timedOut => exact isSilent_close (fun _ => hidle ⟨timedOut, rfl⟩)

theorem Unregistered.elapse {grace : Nat} {q : QuicServing} (h : q.Unregistered grace)
    (nanos : Nat) : ({ q with now := q.now + nanos } : QuicServing).Unregistered grace := by
  refine h.imp id ?_
  rintro ⟨hsome, firedAt, hfired, hlate⟩
  exact ⟨hsome, firedAt, hfired, Nat.le_add_right_of_le hlate⟩

theorem Heeds.step {grace : Nat} {q q' : QuicServing} {l : QuicLabel} (h : q.Heeds grace)
    (hstep : q.step grace true l = some q') : q'.Heeds grace := by
  cases steps_of_step hstep with
  | elapse nanos =>
      unfold Heeds at h ⊢
      cases hp : q.phase with
      | serving | unregistering =>
          simp only [hp] at h ⊢
          obtain ⟨firedAt, hfired, hnow⟩ := h
          exact ⟨firedAt, hfired, Nat.le_add_right_of_le hnow⟩
      | draining =>
          simp only [hp] at h ⊢
          exact h
      | finished =>
          simp only [hp] at h ⊢
          exact ⟨h.1.elapse nanos, h.2⟩
      | dropped => simp [hp] at h
  | receive | dispatch | serveEnded => exact h
  | shutdown hp | serveJoined hp =>
      simp only [Heeds, hp] at h
      exact h
  | @unregistered served deadline how timedOut hp =>
      simp only [Heeds, hp] at h
      obtain ⟨firedAt, hfired, hnow⟩ := h
      exact ⟨rfl, firedAt, hfired, Nat.add_le_add_right hnow grace⟩
  | closed _ _ _ hfired => cases hfired
  | @drained served wakeAt timedOut hp helapsed =>
      simp only [Heeds, hp] at h
      obtain ⟨hsome, firedAt, hfired, hdue⟩ := h
      exact ⟨.inr ⟨hsome, firedAt, hfired, Nat.le_trans hdue helapsed⟩, rfl, rfl⟩

end QuicServing

namespace H2Attempt

inductive Steps (grace : Nat) (fired : Bool) : H2Attempt → H2Label → H2Attempt → Prop
  | connected : Steps grace fired .connecting .connected (.running .spawned false .init)
  | connectFailed (error : Error) :
      Steps grace fired .connecting (.connectFailed error) (.failed error)
  | serve (phase : H2Phase) (registeredAt : Bool) {serve serve' : Serve} (label : H2.Label)
      (hlabel : label ≠ .fire) (hstep : serve.step grace label = some serve') :
      Steps grace fired (.running phase registeredAt serve) (.serve label)
        (.running (phase.hear label) registeredAt serve')
  | awaitRegistered (registeredAt : Bool) (serve : Serve) :
      Steps grace fired (.running .spawned registeredAt serve) .awaitRegistered
        (.running (.waitingRegistered .waiting (serve.now + rpcTimeout)) registeredAt serve)
  | registered (deadline : Nat) (registeredAt : Bool) (serve : Serve) :
      Steps grace fired (.running (.waitingRegistered .woken deadline) registeredAt serve)
        .registered (.running (.serving .waiting) true serve)
  | registeredElapsed (registered : Notified) (deadline : Nat) (registeredAt : Bool)
      (serve : Serve) :
      Steps grace fired (.running (.waitingRegistered registered deadline) registeredAt serve)
        .registeredElapsed (.running (.serving .waiting) registeredAt serve)
  | shutdown (registeredAt : Bool) (serve : Serve) :
      Steps grace fired (.running (.serving .woken) registeredAt serve) .shutdown
        (.running (.stopping (serve.now + grace)) registeredAt serve)
  | serveJoined {joined : Joined} (shutdown : Notified) (registeredAt : Bool) (serve : Serve)
      (hjoined : joinServe serve = some joined) :
      Steps grace fired (.running (.serving shutdown) registeredAt serve) .serveJoined
        (.running (.finished (h2Result fired joined)) registeredAt serve)
  | stopped {joined : Joined} (deadline : Nat) (registeredAt : Bool) (serve : Serve)
      (hjoined : joinServe serve = some joined) :
      Steps grace fired (.running (.stopping deadline) registeredAt serve) .stopped
        (.running (.finished (h2Result true joined)) registeredAt serve)
  | stopElapsed {deadline : Nat} (registeredAt : Bool) (serve : Serve)
      (helapsed : deadline ≤ serve.now) :
      Steps grace fired (.running (.stopping deadline) registeredAt serve) .stopElapsed
        (.running (.finished (.ok ())) registeredAt serve.abort)

theorem steps_of_step {grace : Nat} {fired : Bool} {a b : H2Attempt} {l : H2Label}
    (h : a.step grace fired l = some b) : Steps grace fired a l b := by
  unfold step at h
  split at h
  · cases h
    exact .connected
  · cases h
    exact .connectFailed _
  · obtain ⟨hlabel, h⟩ := Option.ite_none_left_eq_some.mp h
    obtain ⟨serve', hstep, ⟨⟩⟩ := Option.map_eq_some_iff.mp h
    exact .serve _ _ _ hlabel hstep
  · cases h
    exact .awaitRegistered _ _
  · cases h
    exact .registered _ _ _
  · obtain ⟨_, ⟨⟩⟩ := Option.ite_none_right_eq_some.mp h
    exact .registeredElapsed _ _ _ _
  · cases h
    exact .shutdown _ _
  · obtain ⟨joined, hjoined, ⟨⟩⟩ := Option.map_eq_some_iff.mp h
    exact .serveJoined _ _ _ hjoined
  · obtain ⟨joined, hjoined, ⟨⟩⟩ := Option.map_eq_some_iff.mp h
    exact .stopped _ _ _ hjoined
  · obtain ⟨helapsed, ⟨⟩⟩ := Option.ite_none_right_eq_some.mp h
    exact .stopElapsed _ _ helapsed
  · cases h

theorem isOver_of_joinServe {serve : Serve} {joined : Joined}
    (h : joinServe serve = some joined) : serve.phase.isOver = true := by
  unfold joinServe at h
  split at h
  · next hp => simp [hp, H2.Phase.isOver]
  · next hp => simp [hp, H2.Phase.isOver]
  · cases h

/-- A finished attempt has left no serve task running. -/
def JoinsServe : H2Attempt → Prop
  | .running (.finished _) _ serve => serve.DropsTasks ∧ serve.phase.isOver = true
  | .running _ _ serve => serve.DropsTasks
  | _ => True

theorem JoinsServe.dropsTasks {phase : H2Phase} {registeredAt : Bool} {serve : Serve}
    (h : JoinsServe (.running phase registeredAt serve)) : serve.DropsTasks := by
  cases phase with
  | finished => exact h.1
  | _ => exact h

theorem JoinsServe.step {grace : Nat} {fired : Bool} {a b : H2Attempt} {l : H2Label}
    (h : a.JoinsServe) (hstep : a.step grace fired l = some b) : b.JoinsServe := by
  cases steps_of_step hstep with
  | connected => exact fun _ => rfl
  | connectFailed => trivial
  | serve phase registeredAt label hlabel hserve =>
      have hdrops := Serve.dropsTasks_step h.dropsTasks hserve
      cases phase with
      | finished => exact ⟨hdrops, Serve.isOver_step h.2 hserve⟩
      | _ => exact hdrops
  | awaitRegistered | registered | registeredElapsed | shutdown => exact h
  | serveJoined _ _ _ hjoined | stopped _ _ _ hjoined => exact ⟨h, isOver_of_joinServe hjoined⟩
  | stopElapsed => exact ⟨Serve.dropsTasks_abort h, Serve.isOver_abort _⟩

end H2Attempt

/-! ## Attempts -/

/-- Before the registration RPC has returned. -/
def QuicAttempt.isDialing : QuicAttempt → Bool
  | .connecting | .registering .. => true
  | _ => false

namespace AttemptLabel

/-- A request is handed to an origin handler. -/
def dispatches : AttemptLabel → Bool
  | .quic .dispatch | .h2 (.serve (.stream _ .dispatch)) => true
  | _ => false

end AttemptLabel

namespace Attempt

/-- The attempt hands nothing to the origin any more. -/
def IsSilent : Attempt → Prop
  | .quic (.registered q) => q.IsSilent
  | .h2 (.running _ _ serve) => serve.phase.isOver = true ∧ serve.streamTasks = []
  | .quic (.failed _) | .quic .abandoned | .h2 (.failed _) | .h2 .abandoned => True
  | _ => False

/-- The attempt has spawned its serve task and has not returned. -/
def isUnderway : Attempt → Bool
  | .quic (.registered q) => !q.isFinished
  | .h2 (.running (.finished _) _ _) => false
  | .h2 (.running ..) => true
  | _ => false

/-- Registered with the edge, the unregister call not over. -/
def isRegistered : Attempt → Bool
  | .quic (.registered q) => q.isRegistered
  | .h2 (.running _ _ serve) => serve.isRegistered
  | _ => false

/-- The connection fails under the shutdown sequence, which over QUIC takes its time all the
same. -/
def breaksOff : Attempt → AttemptLabel → Bool
  | .h2 (.running _ _ serve), .h2 (.serve label) => serve.breaksOff label
  | _, _ => false

/-- The sleep of the QUIC drain is over, and requests that came in are still to be handed out. -/
def ClosesOnRequests : Attempt → AttemptLabel → Prop
  | .quic (.registered q), .quic (.drained _) => q.serveTask = .running ∧ q.pending ≠ 0
  | _, _ => False

/-- An attempt that has returned is silent. -/
def EndsSilent : Attempt → Prop
  | .quic (.registered q) => q.isFinished = true → q.IsSilent
  | .h2 attempt => attempt.JoinsServe
  | _ => True

/-- What holds of an attempt as long as the shutdown event has not fired. -/
def IsUnfired : Attempt → Prop
  | .quic (.registered q) => q.firedAt = none
  | .h2 (.running phase _ serve) =>
      serve.IsUnfired ∧ phase ≠ .serving .woken ∧ phase ≠ .dropped ∧ ∀ due, phase ≠ .stopping due
  | _ => True

/-- A registered attempt from the firing to its end. -/
def Heeds (grace : Nat) : Attempt → Prop
  | .quic (.registered q) => q.Heeds grace
  | .h2 (.running phase _ serve) =>
      serve.Heeds grace ∧
        match phase with
        | .stopping due => serve.GivenUntil grace due
        | .dropped => False
        | _ => True
  | _ => False

/-- The shutdown sequence is complete: the unregister call has been answered or the grace period
has elapsed, the drain has ended, the connection is closed. -/
def IsCompleted (grace : Nat) : Attempt → Prop
  | .quic (.registered q) =>
      q.isFinished = true ∧ q.Unregistered grace ∧ q.drained = true ∧ q.closed = true
  | .h2 (.running _ _ serve) =>
      serve.Unregistered grace ∧ serve.streamTasks = [] ∧ serve.phase.isOver = true
  | _ => False

/-! ### What a step can do -/

inductive Steps (grace : Nat) (fired : Bool) : Attempt → AttemptLabel → Attempt → Prop
  -- dialing and the registration RPC
  | dial {a b : QuicAttempt} (l : QuicLabel) (ha : a.isDialing = true)
      (hb : b.isDialing = true ∨ ∃ error, b = .failed error) :
      Steps grace fired (.quic a) (.quic l) (.quic b)
  | register {a : QuicAttempt} (now pending : Nat) (ha : a.isDialing = true) :
      Steps grace fired (.quic a) (.quic (.registered pending))
        (.quic (.registered ⟨now, none, .serving .waiting, .running, pending, none, false, false⟩))
  | serving {q q' : QuicServing} (l : QuicLabel) (hstep : q.step grace fired l = some q') :
      Steps grace fired (.quic (.registered q)) (.quic l) (.quic (.registered q'))
  | h2 {a b : H2Attempt} (l : H2Label) (hstep : a.step grace fired l = some b) :
      Steps grace fired (.h2 a) (.h2 l) (.h2 b)

theorem steps_of_step {grace : Nat} {fired : Bool} {a b : Attempt} {l : AttemptLabel}
    (h : a.step grace fired l = some b) : Steps grace fired a l b := by
  unfold step at h
  split at h
  · next attempt label =>
      obtain ⟨attempt', hquic, ⟨⟩⟩ := Option.map_eq_some_iff.mp h
      unfold QuicAttempt.step at hquic
      split at hquic
      · cases hquic
        exact .dial _ rfl (Or.inl rfl)
      · cases hquic
        exact .dial _ rfl (Or.inr ⟨_, rfl⟩)
      · cases hquic
        exact .dial _ rfl (Or.inl rfl)
      · cases hquic
        exact .register _ _ rfl
      · cases hquic
        exact .dial _ rfl (Or.inr ⟨_, rfl⟩)
      · obtain ⟨_, ⟨⟩⟩ := Option.ite_none_right_eq_some.mp hquic
        exact .dial _ rfl (Or.inr ⟨_, rfl⟩)
      · obtain ⟨q', hstep, ⟨⟩⟩ := Option.map_eq_some_iff.mp hquic
        exact .serving _ hstep
      · cases hquic
  · obtain ⟨attempt', hstep, ⟨⟩⟩ := Option.map_eq_some_iff.mp h
    exact .h2 _ hstep
  · cases h

/-! ### Silence -/

theorem not_isSilent_of_isDialing {a : QuicAttempt} (h : a.isDialing = true) :
    ¬ (quic a).IsSilent := by
  cases a with
  | connecting | registering => exact id
  | failed | abandoned | registered => cases h

theorem isSilent_step {grace : Nat} {fired : Bool} {a b : Attempt} {l : AttemptLabel}
    (h : a.IsSilent) (hstep : a.step grace fired l = some b) : b.IsSilent := by
  cases steps_of_step hstep with
  | dial _ ha | register _ _ ha => exact absurd h (not_isSilent_of_isDialing ha)
  | serving l hserving => exact QuicServing.isSilent_step h hserving
  | h2 l hh2 =>
      cases H2Attempt.steps_of_step hh2 with
      | connected | connectFailed => cases h
      | serve phase registeredAt label hlabel hserve =>
          have hover := Serve.isOver_step h.1 hserve
          exact ⟨hover, Serve.dropsTasks_step (fun _ => h.2) hserve hover⟩
      | stopElapsed _ serve =>
          exact ⟨Serve.isOver_abort serve,
            Serve.dropsTasks_abort (fun _ => h.2) (Serve.isOver_abort serve)⟩
      | _ => exact h

theorem not_dispatches_of_isSilent {grace : Nat} {fired : Bool} {a b : Attempt} {l : AttemptLabel}
    (h : a.IsSilent) (hstep : a.step grace fired l = some b) : l.dispatches = false := by
  cases steps_of_step hstep with
  | dial _ ha | register _ _ ha => exact absurd h (not_isSilent_of_isDialing ha)
  | serving l hserving =>
      cases l with
      | dispatch => exact (QuicServing.not_dispatch_of_isSilent h hserving).elim
      | _ => rfl
  | h2 l hh2 =>
      cases H2Attempt.steps_of_step hh2 with
      | serve phase registeredAt label hlabel hserve =>
          cases H2.Serve.steps_of_step hserve with
          | stream index label htask =>
              -- the `JoinSet` is empty
              rw [h.2] at htask
              cases htask
          | leave _ _ hleaves => cases label <;> first | rfl | cases hleaves
          | _ => rfl
      | _ => rfl

theorem isSilent_wake {a : Attempt} (h : a.IsSilent) : a.wake.IsSilent := by
  cases a with
  | quic attempt => cases attempt <;> exact h
  | h2 attempt =>
      cases attempt with
      | running phase registeredAt serve =>
          have hwoken : serve.wake.phase.isOver = true ∧ serve.wake.streamTasks = [] :=
            ⟨(Serve.isOver_wake serve).trans h.1, (Serve.streamTasks_wake serve).trans h.2⟩
          cases phase <;> exact hwoken
      | _ => exact h

theorem endsSilent_step {grace : Nat} {fired : Bool} {a b : Attempt} {l : AttemptLabel}
    (h : a.EndsSilent) (hidle : ¬ a.ClosesOnRequests l)
    (hstep : a.step grace fired l = some b) : b.EndsSilent := by
  cases steps_of_step hstep with
  | dial l ha hb =>
      rcases hb with hb | ⟨error, rfl⟩
      · rename_i b
        cases b <;> trivial
      · trivial
  | register =>
      intro hfinished
      cases hfinished
  | @serving q _ l hserving =>
      refine QuicServing.isSilent_of_isFinished_step h ?_ hserving
      rintro ⟨timedOut, rfl⟩
      by_cases hrunning : q.serveTask = .running
      · exact Or.inr (Decidable.byContradiction fun hpending => hidle ⟨hrunning, hpending⟩)
      · exact Or.inl hrunning
  | h2 l hh2 => exact H2Attempt.JoinsServe.step h hh2

theorem endsSilent_wake {a : Attempt} (h : a.EndsSilent) : a.wake.EndsSilent := by
  cases a with
  | quic attempt =>
      cases attempt with
      | registered q =>
          intro hfinished
          cases hp : q.phase <;> simp_all [QuicServing.isFinished, EndsSilent, QuicServing.IsSilent]
      | _ => exact h
  | h2 attempt =>
      cases attempt with
      | running phase registeredAt serve =>
          have hdrops := Serve.dropsTasks_wake (H2Attempt.JoinsServe.dropsTasks h)
          cases phase with
          | finished => exact ⟨hdrops, (Serve.isOver_wake serve).trans h.2⟩
          | _ => exact hdrops
      | _ => exact h

/-- What a returned attempt leaves in the background is silent, and so is what is dropped before
its serve task is spawned. -/
theorem isSilent_abandon {a : Attempt} (h : a.EndsSilent) (hover : a.isUnderway = false) :
    a.abandon.IsSilent := by
  cases a with
  | quic attempt =>
      cases attempt with
      | registered q =>
          have hfinished : q.isFinished = true := by simpa [isUnderway] using hover
          exact h hfinished
      | _ => trivial
  | h2 attempt =>
      cases attempt with
      | running phase registeredAt serve =>
          cases phase with
          | finished => exact ⟨h.2, h.1 h.2⟩
          | _ => cases hover
      | _ => trivial

theorem not_isUnderway_of_finished {a : Attempt} {outcome : ServeAttempt}
    (h : a.finished outcome = true) : a.isUnderway = false := by
  cases a with
  | quic attempt =>
      cases attempt with
      | registered q =>
          cases hp : q.phase <;> simp_all [finished, QuicAttempt.finished, isUnderway,
            QuicServing.isFinished]
      | _ => rfl
  | h2 attempt =>
      cases attempt with
      | running phase registeredAt serve =>
          cases phase with
          | finished => rfl
          | _ => cases h
      | _ => rfl

/-! ### From the firing to the end -/

theorem isUnfired_step {grace : Nat} {fired : Bool} {a b : Attempt} {l : AttemptLabel}
    (h : a.IsUnfired) (hstep : a.step grace fired l = some b) : b.IsUnfired := by
  cases steps_of_step hstep with
  | dial l ha hb =>
      rcases hb with hb | ⟨error, rfl⟩
      · rename_i b
        cases b with
        | registered => cases hb
        | _ => trivial
      · trivial
  | register => rfl
  | serving l hserving => cases QuicServing.steps_of_step hserving <;> exact h
  | h2 l hh2 =>
      cases H2Attempt.steps_of_step hh2 with
      | connected => exact ⟨⟨rfl, fun _ => rfl, by simp [Serve.init], by simp [Serve.init]⟩, by simp⟩
      | connectFailed => trivial
      | serve phase registeredAt label hlabel hserve =>
          refine ⟨Serve.isUnfired_step h.1 hlabel hserve, ?_⟩
          cases phase with
          | waitingRegistered => simp [H2Phase.hear]
          | _ => exact h.2
      | awaitRegistered | registered | registeredElapsed => exact ⟨h.1, by simp⟩
      | shutdown => exact absurd rfl h.2.1
      | serveJoined => exact ⟨h.1, by simp⟩
      | stopped due | stopElapsed => exact absurd rfl (h.2.2.2 _)

theorem heeds_wake {grace : Nat} {a : Attempt} (h : a.IsUnfired)
    (hregistered : a.isRegistered = true) : a.wake.Heeds grace := by
  cases a with
  | quic attempt =>
      cases attempt with
      | registered q =>
          have hfired : q.firedAt = none := h
          cases hp : q.phase <;> simp_all [isRegistered, QuicServing.isRegistered, wake,
            QuicAttempt.wake, Heeds, QuicServing.Heeds]
      | _ => cases hregistered
  | h2 attempt =>
      cases attempt with
      | running phase registeredAt serve =>
          have hserve := @Serve.heeds_wake grace _ h.1 hregistered
          cases phase with
          | stopping due => exact absurd rfl (h.2.2.2 due)
          | dropped => exact absurd rfl h.2.2.1
          | _ => exact ⟨hserve, trivial⟩
      | _ => cases hregistered

theorem Heeds.step {grace : Nat} {a b : Attempt} {l : AttemptLabel} (h : a.Heeds grace)
    (hbreaks : a.isRegistered = true → a.breaksOff l = false)
    (hstep : a.step grace true l = some b) : b.Heeds grace := by
  cases steps_of_step hstep with
  | @dial a _ _ ha | @register a _ _ ha =>
      cases a with
      | connecting | registering => cases h
      | failed | abandoned | registered => cases ha
  | serving l hserving => exact QuicServing.Heeds.step h hserving
  | h2 l hh2 =>
      cases H2Attempt.steps_of_step hh2 with
      | connected | connectFailed => cases h
      | serve phase registeredAt label hlabel hserve =>
          have hkept := Serve.Heeds.step h.1 hlabel hbreaks hserve
          cases phase with
          | stopping due => exact ⟨hkept, Serve.givenUntil_step h.2 hlabel hserve⟩
          | dropped => exact absurd h.2 id
          | _ => exact ⟨hkept, trivial⟩
      | awaitRegistered | registered | registeredElapsed | serveJoined | stopped =>
          exact ⟨h.1, trivial⟩
      | shutdown => exact ⟨h.1, h.1.givenUntil⟩
      | stopElapsed registeredAt serve helapsed =>
          exact ⟨Serve.heeds_abort h.1 h.2 helapsed, trivial⟩

/-- An attempt that heeds the shutdown is dropped only after it has returned, and then its
shutdown sequence is complete. -/
theorem isCompleted_of_heeds {grace : Nat} {a : Attempt} (h : a.Heeds grace)
    (hends : a.EndsSilent) (hover : a.isUnderway = false) : a.abandon.IsCompleted grace := by
  cases a with
  | quic attempt =>
      cases attempt with
      | registered q =>
          have hfinished : q.isFinished = true := by simpa [isUnderway] using hover
          cases hp : q.phase <;> simp_all [QuicServing.isFinished, Heeds, QuicServing.Heeds,
            IsCompleted, abandon, QuicAttempt.abandon, QuicServing.Unregistered]
      | _ => cases h
  | h2 attempt =>
      cases attempt with
      | running phase registeredAt serve =>
          cases phase with
          | finished => exact ⟨h.1.unregistered hends.2, hends.1 hends.2, hends.2⟩
          | _ => cases hover
      | _ => cases h

theorem isCompleted_step {grace : Nat} {fired : Bool} {a b : Attempt} {l : AttemptLabel}
    (h : a.IsCompleted grace) (hstep : a.step grace fired l = some b) : b.IsCompleted grace := by
  cases steps_of_step hstep with
  | @dial a _ _ ha | @register a _ _ ha =>
      cases a with
      | connecting | registering => cases h
      | failed | abandoned | registered => cases ha
  | serving l hserving =>
      obtain ⟨hfinished, hrest⟩ := h
      cases QuicServing.steps_of_step hserving with
      | elapse nanos => exact ⟨hfinished, hrest.1.elapse nanos, hrest.2⟩
      | receive | dispatch | serveEnded => exact ⟨hfinished, hrest⟩
      | shutdown hp | serveJoined hp | unregistered _ _ hp | closed _ _ hp | drained _ hp =>
          simp [QuicServing.isFinished, hp] at hfinished
  | h2 l hh2 =>
      cases H2Attempt.steps_of_step hh2 with
      | connected | connectFailed => cases h
      | serve phase registeredAt label hlabel hserve =>
          obtain ⟨hunregistered, htasks, hover⟩ := h
          have hover' := Serve.isOver_step hover hserve
          exact ⟨hunregistered.step hover hserve,
            Serve.dropsTasks_step (fun _ => htasks) hserve hover', hover'⟩
      | stopElapsed _ serve =>
          have hsame : serve.abort = serve := by simp [Serve.abort, h.2.2]
          rw [hsame]
          exact h
      | _ => exact h

end Attempt

/-! ## Runs -/

/-- The attempt `run` is waiting for. -/
def Phase.current {Address : Type} {A : AttemptModel Address} : Phase A → Option A.Future
  | .attempting _ _ _ _ future => some future
  | _ => none

section Runs

variable {Address : Type} {opts : EdgeOptions}

/-- The condition on a step: `run` takes the shutdown branch of its `select!` only when the attempt
it drops has no serve task, or has returned; the connection of a registered HTTP/2 attempt does not
fail once the shutdown has fired; and no QUIC attempt closes its connection on requests that are
still to be handed out. -/
def KeepsAttempts (s : Run (edgeAttempts opts Address)) : Label (edgeAttempts opts Address) → Prop
  | .shutdown => ∀ a : Attempt, s.phase.current = some a → a.isUnderway = false
  | .attemptStep label => ∀ a : Attempt, s.phase.current = some a →
      (s.fireTask = .done → a.isRegistered = true → a.breaksOff label = false) ∧
        ¬ a.ClosesOnRequests label
  | _ => True

theorem keepsAttempts_attemptStep {s : Run (edgeAttempts opts Address)} {a : Attempt}
    {label : AttemptLabel} (hcurrent : s.phase.current = some a)
    (hbreaks : a.breaksOff label = false) (hidle : ¬ a.ClosesOnRequests label) :
    KeepsAttempts s (.attemptStep label) := by
  intro b hb
  cases hcurrent.symm.trans hb
  exact ⟨fun _ _ => hbreaks, hidle⟩

/-- A request is handed to an origin handler. -/
def Label.dispatches : Label (edgeAttempts opts Address) → Bool
  | .attemptStep label | .backgroundStep _ label => AttemptLabel.dispatches label
  | _ => false

structure RunInv (s : Run (edgeAttempts opts Address)) : Prop where
  fired : s.fireTask ≠ .pending → s.event.fired = true
  ends : ∀ a : Attempt, s.phase.current = some a → a.EndsSilent
  unfired : s.fireTask ≠ .done → ∀ a : Attempt, s.phase.current = some a → a.IsUnfired
  background : ∀ a : Attempt, a ∈ s.background → a.IsSilent

theorem endsSilent_start (transport : Transport) : (Attempt.start transport).EndsSilent := by
  cases transport <;> trivial

theorem isUnfired_start (transport : Transport) : (Attempt.start transport).IsUnfired := by
  cases transport <;> trivial

theorem current_wake {A : AttemptModel Address} (phase : Phase A) :
    phase.wake.current = phase.current.map A.wake := by
  cases phase <;> rfl

theorem current_afterAttempt {A : AttemptModel Address} {transport : Transport}
    {rest : List Address} {quicBroken : Bool} {outcome : ServeAttempt} {s : Run A} :
    (Run.afterAttempt opts transport rest quicBroken outcome s).phase.current = none ∧
      (Run.afterAttempt opts transport rest quicBroken outcome s).background = s.background ∧
      (Run.afterAttempt opts transport rest quicBroken outcome s).fireTask = s.fireTask ∧
      (Run.afterAttempt opts transport rest quicBroken outcome s).event = s.event := by
  unfold Run.afterAttempt
  split
  · exact ⟨rfl, rfl, rfl, rfl⟩
  · exact ⟨rfl, rfl, rfl, rfl⟩
  · split <;> exact ⟨rfl, rfl, rfl, rfl⟩

theorem runInv_of_current_eq_none {s t : Run (edgeAttempts opts Address)} (h : RunInv s)
    (hevent : t.event = s.event) (hfire : t.fireTask = s.fireTask)
    (hcurrent : t.phase.current = none) (hbackground : ∀ a : Attempt, a ∈ t.background → a.IsSilent) :
    RunInv t where
  fired := by rw [hevent, hfire]; exact h.fired
  ends := fun _ ha => by simp [hcurrent] at ha
  unfired := fun _ _ ha => by simp [hcurrent] at ha
  background := hbackground

theorem runInv_step {s t : Run (edgeAttempts opts Address)} {l : Label (edgeAttempts opts Address)}
    (h : RunInv s) (hC : KeepsAttempts s l) (hstep : step opts s l = some t) : RunInv t := by
  cases steps_of_step hstep with
  | storeFired hpending =>
      exact ⟨fun _ => rfl, h.ends, fun _ => h.unfired (by simp [hpending]), h.background⟩
  | notifyWaiters hstored =>
      refine ⟨fun _ => h.fired (by simp [hstored]), ?_, fun hdone => absurd rfl hdone, ?_⟩
      · intro a ha
        rw [current_wake] at ha
        obtain ⟨b, hb, rfl⟩ := Option.map_eq_some_iff.mp ha
        exact Attempt.endsSilent_wake (h.ends b hb)
      · intro a ha
        obtain ⟨b, hb, rfl⟩ := List.mem_map.mp ha
        exact Attempt.isSilent_wake (h.background b hb)
  | discovered | discoveryFailed | endRound | beginSleep | slept | stopped =>
      exact runInv_of_current_eq_none h rfl rfl rfl h.background
  | beginAttempt =>
      refine ⟨h.fired, ?_, fun _ => ?_, h.background⟩
      · rintro _ ⟨⟩
        exact endsSilent_start _
      · rintro _ ⟨⟩
        exact isUnfired_start _
  | @attemptStep _ _ _ _ future _ label hp hattempt =>
      have hcurrent : s.phase.current = some future := by rw [hp]; rfl
      refine ⟨h.fired, ?_, fun hdone => ?_, h.background⟩
      · rintro _ ⟨⟩
        exact Attempt.endsSilent_step (h.ends _ hcurrent) (hC _ hcurrent).2 hattempt
      · rintro _ ⟨⟩
        exact Attempt.isUnfired_step (h.unfired hdone _ hcurrent) hattempt
  | @attempted _ _ _ _ future outcome hp hfinished =>
      have hcurrent : s.phase.current = some future := by rw [hp]; rfl
      obtain ⟨hnone, hbackground, hfire, hevent⟩ := current_afterAttempt
      refine runInv_of_current_eq_none h hevent hfire hnone ?_
      rw [hbackground]
      refine List.forall_mem_append.mpr ⟨h.background, List.forall_mem_singleton.mpr ?_⟩
      exact Attempt.isSilent_abandon (h.ends _ hcurrent)
        (Attempt.not_isUnderway_of_finished hfinished)
  | @abandoned _ _ _ future hp =>
      have hcurrent : s.phase.current = some future := by rw [hp]; rfl
      refine runInv_of_current_eq_none h rfl rfl rfl ?_
      refine List.forall_mem_append.mpr ⟨h.background, List.forall_mem_singleton.mpr ?_⟩
      exact Attempt.isSilent_abandon (h.ends _ hcurrent) (hC _ hcurrent)
  | backgroundStep index label hindex hattempt =>
      refine ⟨h.fired, h.ends, h.unfired, fun a ha => ?_⟩
      rcases List.mem_or_eq_of_mem_set ha with hold | rfl
      · exact h.background a hold
      · exact Attempt.isSilent_step (h.background _ (List.mem_of_getElem? hindex)) hattempt

theorem runInv_init : RunInv (Run.init opts : Run (edgeAttempts opts Address)) where
  fired := fun h => absurd rfl h
  ends := fun _ ha => by cases ha
  unfired := fun _ _ ha => by cases ha
  background := fun _ ha => by cases ha

/-- After `run` has returned only the background steps, and it is silent. -/
theorem not_dispatches_of_isReturned {s t : Run (edgeAttempts opts Address)}
    {l : Label (edgeAttempts opts Address)} (h : RunInv s) (hreturned : s.phase.isReturned = true)
    (hstep : step opts s l = some t) : l.dispatches = false := by
  cases steps_of_step hstep with
  | attemptStep label hp => simp [hp, Phase.isReturned] at hreturned
  | backgroundStep index label hindex hattempt =>
      exact Attempt.not_dispatches_of_isSilent (h.background _ (List.mem_of_getElem? hindex))
        hattempt
  | _ => rfl

/-- From the firing on: the attempt that was registered then is still under way as it should be,
or it is in the background, its shutdown sequence complete. -/
def HeedsFrom (index : Nat) (s : Run (edgeAttempts opts Address)) : Prop :=
  s.fireTask = .done ∧ s.event.fired = true ∧
    ((∃ a : Attempt, s.phase.current = some a ∧ a.Heeds opts.gracePeriod ∧ a.EndsSilent ∧
        s.background.length = index) ∨
      ∃ a : Attempt, s.background[index]? = some a ∧ a.IsCompleted opts.gracePeriod)

/-- The attempt `run` was waiting for comes to the background with its sequence complete. -/
theorem getElem?_append_abandon {index : Nat} {future : Attempt} {background : List Attempt}
    (hheeds : future.Heeds opts.gracePeriod) (hends : future.EndsSilent)
    (hover : future.isUnderway = false) (hlength : background.length = index) :
    ∃ a : Attempt, (background ++ [future.abandon])[index]? = some a ∧
      a.IsCompleted opts.gracePeriod :=
  ⟨future.abandon, by simp [← hlength], Attempt.isCompleted_of_heeds hheeds hends hover⟩

theorem heedsFrom_step {index : Nat} {s t : Run (edgeAttempts opts Address)}
    {l : Label (edgeAttempts opts Address)} (h : HeedsFrom index s) (hC : KeepsAttempts s l)
    (hstep : step opts s l = some t) : HeedsFrom index t := by
  obtain ⟨hdone, hfired, hcase⟩ := h
  -- a completed attempt stays in its place of the background
  have hkeep : ∀ u : Run (edgeAttempts opts Address), u.fireTask = s.fireTask →
      u.event = s.event → (∃ more, u.background = s.background ++ more) →
      (∃ a : Attempt, s.background[index]? = some a ∧ a.IsCompleted opts.gracePeriod) →
      HeedsFrom index u := by
    rintro u hfire hevent ⟨more, hmore⟩ ⟨a, hindex, hcompleted⟩
    refine ⟨hfire.trans hdone, (congrArg Event.fired hevent).trans hfired, Or.inr ⟨a, ?_, hcompleted⟩⟩
    rw [hmore, List.getElem?_append_left (List.getElem?_eq_some_iff.mp hindex).1, hindex]
  cases steps_of_step hstep with
  | storeFired hpending => simp [hdone] at hpending
  | notifyWaiters hstored => simp [hdone] at hstored
  | discovered _ hp | discoveryFailed _ hp | beginAttempt hp | endRound _ hp | beginSleep hp
  | slept hp | stopped hp =>
      rcases hcase with ⟨a, ha, _⟩ | hcompleted
      · simp [hp, Phase.current] at ha
      · exact hkeep _ rfl rfl ⟨[], by simp [Run.backOff, Run.loopHead]⟩ hcompleted
  | @attemptStep _ _ _ _ future future' label hp hattempt =>
      have hcurrent : s.phase.current = some future := by rw [hp]; rfl
      rcases hcase with ⟨a, ha, hheeds, hends, hlength⟩ | hcompleted
      · cases hcurrent.symm.trans ha
        obtain ⟨hbreaks, hidle⟩ := hC _ hcurrent
        rw [show s.event.isFired = true from hfired] at hattempt
        exact ⟨hdone, hfired, Or.inl ⟨future', rfl, hheeds.step (hbreaks hdone) hattempt,
          Attempt.endsSilent_step hends hidle hattempt, hlength⟩⟩
      · exact hkeep _ rfl rfl ⟨[], by simp⟩ hcompleted
  | @attempted _ _ _ _ future outcome hp hfinished =>
      have hcurrent : s.phase.current = some future := by rw [hp]; rfl
      obtain ⟨_, hbackground, hfire, hevent⟩ := current_afterAttempt
      rcases hcase with ⟨a, ha, hheeds, hends, hlength⟩ | hcompleted
      · cases hcurrent.symm.trans ha
        refine ⟨hfire.trans hdone, (congrArg Event.fired hevent).trans hfired, Or.inr ?_⟩
        rw [hbackground]
        exact getElem?_append_abandon hheeds hends
          (Attempt.not_isUnderway_of_finished hfinished) hlength
      · exact hkeep _ hfire hevent ⟨_, hbackground⟩ hcompleted
  | @abandoned _ _ _ future hp =>
      have hcurrent : s.phase.current = some future := by rw [hp]; rfl
      rcases hcase with ⟨a, ha, hheeds, hends, hlength⟩ | hcompleted
      · cases hcurrent.symm.trans ha
        exact ⟨hdone, hfired, Or.inr (getElem?_append_abandon hheeds hends (hC _ hcurrent) hlength)⟩
      · exact hkeep _ rfl rfl ⟨_, rfl⟩ hcompleted
  | @backgroundStep future future' i label hindex hattempt =>
      rcases hcase with ⟨a, ha, hheeds, hends, hlength⟩ | ⟨a, ha, hcompleted⟩
      · exact ⟨hdone, hfired, Or.inl ⟨a, ha, hheeds, hends, by simpa using hlength⟩⟩
      · refine ⟨hdone, hfired, Or.inr ?_⟩
        by_cases hi : i = index
        · subst hi
          cases hindex.symm.trans ha
          refine ⟨future', ?_, Attempt.isCompleted_step hcompleted hattempt⟩
          rw [List.getElem?_set_self (List.getElem?_eq_some_iff.mp hindex).1]
        · exact ⟨a, by rw [List.getElem?_set_ne hi, ha], hcompleted⟩

theorem heedsFrom_notifyWaiters {v w : Run (edgeAttempts opts Address)} {a : Attempt}
    (h : RunInv v) (hcurrent : v.phase.current = some a) (hregistered : a.isRegistered = true)
    (hstep : step opts v .notifyWaiters = some w) : HeedsFrom v.background.length w := by
  cases steps_of_step hstep with
  | notifyWaiters hstored =>
      have hunfired : a.IsUnfired := h.unfired (by simp [hstored]) a hcurrent
      refine ⟨rfl, h.fired (by simp [hstored]), Or.inl ⟨a.wake, ?_, ?_, ?_, by simp⟩⟩
      · rw [current_wake, hcurrent]
        rfl
      · exact Attempt.heeds_wake hunfired hregistered
      · exact Attempt.endsSilent_wake (h.ends a hcurrent)

/-- **When `run` waits for the shutdown sequence.** In every run that keeps its attempts, `run`
returns only after the attempt that was registered when the shutdown fired has completed its
shutdown sequence, and nothing is handed to the origin once `run` has returned. -/
theorem shutdown_sequence_of_keepsAttempts {ls : List (Label (edgeAttempts opts Address))}
    {s : Run (edgeAttempts opts Address)} (hrun : run (step opts) (Run.init opts) ls = some s)
    (hC : Always (step opts) KeepsAttempts (Run.init opts) ls)
    (hreturned : s.phase.isReturned = true) :
    (∀ before after v (a : Attempt), ls = before ++ .notifyWaiters :: after →
      run (step opts) (Run.init opts) before = some v → v.phase.current = some a →
      a.isRegistered = true →
      ∃ b : Attempt, s.background[v.background.length]? = some b ∧
        b.IsCompleted opts.gracePeriod) ∧
    ∀ l t, step opts s l = some t → l.dispatches = false := by
  constructor
  · rintro before after v a rfl hv hcurrent hregistered
    obtain ⟨hCbefore, hCafter⟩ := (always_append hv).mp hC
    obtain ⟨v', hv', hafter⟩ := run_append_eq_some.mp hrun
    cases hv.symm.trans hv'
    obtain ⟨w, hfire, hrest⟩ := run_cons_eq_some.mp hafter
    have hinv : RunInv v := run_invariant_of_always RunInv
      (fun _ _ _ hx hk hstep => runInv_step hx hk hstep) runInv_init hv hCbefore
    have hstart := heedsFrom_notifyWaiters hinv hcurrent hregistered hfire
    obtain ⟨_, _, hcase⟩ := run_invariant_of_always (HeedsFrom v.background.length)
      (fun _ _ _ hx hk hstep => heedsFrom_step hx hk hstep) hstart hrest (hCafter.2 w hfire)
    rcases hcase with ⟨b, hb, _⟩ | hcompleted
    · cases hp : s.phase <;> simp_all [Phase.current, Phase.isReturned]
    · exact hcompleted
  · intro l t hstep
    have hinv : RunInv s := run_invariant_of_always RunInv
      (fun _ _ _ hx hk hstep => runInv_step hx hk hstep) runInv_init hrun hC
    exact not_dispatches_of_isReturned hinv hreturned hstep

end Runs

/-! ### Two runs with one QUIC attempt -/

def shortGrace : EdgeOptions :=
  { defaultOptions with transport := .quic, gracePeriod := 30 }

/-- The attempt registers with `pending` requests already taken in, and the shutdown fires. -/
def firedWhileServing (pending : Nat) : List (Label (edgeAttempts shortGrace Unit)) :=
  [.discovered [()], .beginAttempt, .attemptStep (.quic .connected),
   .attemptStep (.quic (.registered pending)), .storeFired]

/-- The attempt hears the shutdown first and goes through its sequence. -/
def sequence : List (Label (edgeAttempts shortGrace Unit)) :=
  [.attemptStep (.quic .shutdown), .attemptStep (.quic (.unregistered .answered false)),
   .attemptStep (.quic (.elapse 30)), .attemptStep (.quic (.drained false)),
   .attempted ⟨.ok (), some 30, false⟩]

theorem shutdown_sequence_completed :
    ∃ s : Run (edgeAttempts shortGrace Unit),
      run (step shortGrace) (Run.init shortGrace)
        (firedWhileServing 0 ++ .notifyWaiters :: sequence) = some s ∧
      ∃ b : Attempt, s.background[0]? = some b ∧ b.IsCompleted 30 := by
  have hC : Always (step shortGrace) KeepsAttempts (Run.init shortGrace)
      (firedWhileServing 0 ++ .notifyWaiters :: sequence) := by
    refine ⟨trivial, ?_⟩
    rintro _ ⟨⟩
    refine ⟨trivial, ?_⟩
    rintro _ ⟨⟩
    refine ⟨keepsAttempts_attemptStep rfl rfl id, ?_⟩
    rintro _ ⟨⟩
    refine ⟨keepsAttempts_attemptStep rfl rfl id, ?_⟩
    rintro _ ⟨⟩
    refine ⟨trivial, ?_⟩
    rintro _ ⟨⟩
    refine ⟨trivial, ?_⟩
    rintro _ ⟨⟩
    refine ⟨keepsAttempts_attemptStep rfl rfl id, ?_⟩
    rintro _ ⟨⟩
    refine ⟨keepsAttempts_attemptStep rfl rfl id, ?_⟩
    rintro _ ⟨⟩
    refine ⟨keepsAttempts_attemptStep rfl rfl id, ?_⟩
    rintro _ ⟨⟩
    refine ⟨keepsAttempts_attemptStep rfl rfl (fun h => h.2 rfl), ?_⟩
    rintro _ ⟨⟩
    exact ⟨trivial, fun _ _ => trivial⟩
  refine ⟨_, rfl, ?_⟩
  exact (shutdown_sequence_of_keepsAttempts (by rfl) hC (by rfl)).1 (firedWhileServing 0) sequence
    _ _ rfl rfl rfl rfl

/-- The loop's own `select!` takes its shutdown branch first: `run` returns with the unregister
call not sent, the connection open and a request still to be handed out. -/
theorem shutdown_sequence_dropped :
    ∃ (v s t : Run (edgeAttempts shortGrace Unit)) (a : Attempt),
      run (step shortGrace) (Run.init shortGrace) (firedWhileServing 1) = some v ∧
      v.phase.current = some a ∧ a.isRegistered = true ∧
      run (step shortGrace) v [.notifyWaiters, .shutdown] = some s ∧ s.phase.isReturned = true ∧
      (∀ b : Attempt, s.background[v.background.length]? = some b → ¬ b.IsCompleted 30) ∧
      step shortGrace s (.backgroundStep 0 (.quic .dispatch)) = some t := by
  refine ⟨_, _, _, _, rfl, rfl, rfl, rfl, rfl, ?_, rfl⟩
  rintro b ⟨⟩ ⟨hfinished, _⟩
  cases hfinished

end Libcfd.Edge
