import Libcfd.Edge.H2.Drain
import Libcfd.Edge.H2.Unregister

/-!
# Is `control_shutdown` ever missed?

`serve` signals `control_shutdown` in whatever way it leaves its loop, and the control task awaits
the signal once it has registered. `notify_waiters` wakes who waits and keeps nothing for who comes
later: a control task that is still on its way to its `notified()` finds nothing there, and waits
for a second signal that never comes.
-/

namespace Libcfd.Edge.H2

open Libcfd.Machine

/-- The task may yet come to wait for `control_shutdown`. Before its response has been written, it
can only do so over a connection that is still there; once it waits for the edge, not at all, since
nobody drives the connection any more. -/
def ControlTask.mayPark (connected : Bool) (task : ControlTask) : Bool :=
  match task.phase with
  | .responding => connected
  | .registering awaiting => !awaiting
  | .announcing | .announced => true
  | .parked _ | .unregistering .. | .ended _ => false

theorem ControlTask.mayPark_of_le {task : ControlTask} (h : task.mayPark true = false)
    (connected : Bool) : task.mayPark connected = false := by
  obtain ⟨phase, registration⟩ := task
  cases phase with
  | responding => cases h
  | _ => exact h

theorem ControlTask.mayPark_wake (connected : Bool) (task : ControlTask) :
    task.wake.mayPark connected = task.mayPark connected := by
  obtain ⟨phase, registration⟩ := task
  cases phase <;> rfl

namespace Serve

/-- The step signals `control_shutdown`. -/
def Signals (s : Serve) (l : Label) : Prop := l = .shutdown ∨ s.leavesLoop l = true

/-- The control task has registered, has not begun its unregister call, and waits for
`control_shutdown` with no wake-up pending. -/
def IsStranded (s : Serve) : Prop :=
  ∃ task, s.controlTask = some task ∧ task.phase = .parked .waiting

/-- The condition on a step: a signal finds no control task that may yet come to wait for it. -/
def FindsWaiter (s : Serve) (l : Label) : Prop :=
  s.Signals l → ∀ task, s.controlTask = some task → task.mayPark (decide (l = .shutdown)) = false

/-! ## After a signal -/

/-- `serve` has signalled, and the control task does not wait and will not. -/
structure IsSettled (s : Serve) : Prop where
  polling : s.phase.isPolling = false
  task : ∀ task, s.controlTask = some task →
    task.phase ≠ .parked .waiting ∧ task.mayPark (!s.phase.isOver) = false

theorem IsSettled.not_isStranded {s : Serve} (h : s.IsSettled) : ¬ s.IsStranded :=
  fun ⟨task, hcontrol, hparked⟩ => (h.task task hcontrol).1 hparked

end Serve

theorem ControlTask.mayPark_step {grace now : Nat} {connected : Bool} {task task' : ControlTask}
    {label : ControlLabel} {chunks : List Chunk} (hparked : task.phase ≠ .parked .waiting)
    (h : task.mayPark connected = false) (hopen : connected = false → chunks = [])
    (hstep : task.step grace now label = some (task', chunks)) :
    task'.phase ≠ .parked .waiting ∧ task'.mayPark connected = false := by
  cases steps_of_step hstep with
  | respond =>
      -- the response is written, so the connection is there
      have hconnected : connected = false := h
      cases hopen hconnected
  | queueRegistering | awaitRegistering | registered | announce | park => cases h
  | respondFailed | queueUnregistering | awaitUnregistering | registrationFailed | unpark
  | answered | unregisterFailed | unregisterElapsed | panicked => exact ⟨nofun, rfl⟩

namespace Serve

/-- `serve` goes on without its loop, and does not come back from its end. -/
theorem IsSettled.frame {s t : Serve} (h : s.IsSettled) (hcontrol : t.controlTask = s.controlTask)
    (hpolling : t.phase.isPolling = false)
    (hover : s.phase.isOver = true → t.phase.isOver = true) : t.IsSettled := by
  refine ⟨hpolling, fun task htask => ?_⟩
  obtain ⟨hparked, hmay⟩ := h.task task (hcontrol ▸ htask)
  refine ⟨hparked, ?_⟩
  cases hs : s.phase.isOver with
  | true =>
      rw [hover hs]
      rw [hs] at hmay
      exact hmay
  | false =>
      rw [hs] at hmay
      exact ControlTask.mayPark_of_le hmay _

theorem isSettled_step {grace : Nat} {s t : Serve} {l : Label} (h : s.IsSettled)
    (hstep : s.step grace l = some t) : t.IsSettled := by
  have hpolling := h.polling
  cases steps_of_step hstep with
  | fire hover =>
      exact h.frame (controlTask_wake s) ((isPolling_wake s).trans hpolling)
        fun hs => (isOver_wake s).trans hs
  | elapse | stream => exact h.frame rfl hpolling id
  | streamsJoined hp | streamsElapsed hp =>
      have hover : s.phase.isOver = false := by simp [hp, Phase.isOver]
      unfold drainControl
      split
      · exact h.frame rfl rfl fun _ => rfl
      · exact h.frame rfl rfl fun hs => Bool.noConfusion (hs.symm.trans hover)
  | controlJoined | controlElapsed => exact h.frame rfl rfl fun _ => rfl
  | control label htask htaskStep hopen =>
      refine ⟨hpolling, ?_⟩
      rintro _ ⟨⟩
      obtain ⟨hparked, hmay⟩ := h.task _ htask
      exact ControlTask.mayPark_step hparked hmay (fun hover => hopen (by simpa using hover))
        htaskStep
  | select hp | acceptControl hp | rejectControl hp | acceptStream _ hp | registered hp
  | leave _ hp | shutdown hp | flush _ hp | deliverControl hp | deliverStream _ hp =>
      simp [hp, Phase.isPolling] at hpolling

theorem never_isStranded_of_isSettled {grace : Nat} {s : Serve} (h : s.IsSettled) :
    Never (step grace) IsStranded s :=
  never_of_invariant (fun _ _ _ hs hstep => isSettled_step hs hstep)
    (fun _ hs => hs.not_isStranded) h

/-! ## A signal that comes too early -/

/-- A task that may yet come to wait can: it registers, announces it and waits. -/
theorem not_never_of_mayPark {grace : Nat} {s : Serve} {task : ControlTask}
    (hcontrol : s.controlTask = some task) (hmay : task.mayPark (!s.phase.isOver) = true) :
    ¬ Never (step grace) IsStranded s := by
  have hannounced : ∀ (s : Serve) r, s.controlTask = some ⟨.announced, r⟩ →
      ¬ Never (step grace) IsStranded s := by
    intro s r hcontrol hnever
    have hpark := @step_control grace s _ ⟨.parked .waiting, r⟩ .park [] hcontrol rfl fun _ => rfl
    exact hnever.next hpark [] _ rfl ⟨_, rfl, rfl⟩
  have hannouncing : ∀ (s : Serve) r, s.controlTask = some ⟨.announcing, r⟩ →
      ¬ Never (step grace) IsStranded s := fun s r hcontrol hnever =>
    hannounced _ _ rfl (hnever.next (@step_control _ s _ _ .announce _ hcontrol rfl fun _ => rfl))
  have hregistering : ∀ (s : Serve) r, s.controlTask = some ⟨.registering false, r⟩ →
      ¬ Never (step grace) IsStranded s := fun s r hcontrol hnever =>
    hannouncing _ _ rfl (hnever.next (@step_control _ s _ _ .registered _ hcontrol rfl fun _ => rfl))
  obtain ⟨phase, registration⟩ := task
  intro hnever
  cases phase with
  | announced => exact hannounced s _ hcontrol hnever
  | announcing => exact hannouncing s _ hcontrol hnever
  | registering awaiting =>
      cases awaiting with
      | true => cases hmay
      | false => exact hregistering s _ hcontrol hnever
  | responding =>
      have hopen : s.phase.isOver = false := by simpa [ControlTask.mayPark] using hmay
      refine hregistering _ _ rfl (hnever.next (@step_control _ s _ _ .respond _ hcontrol rfl ?_))
      exact fun hover => absurd (hover.symm.trans hopen) nofun
  | parked | unregistering | ended => cases hmay

/-! ## The signal -/

theorem isSettled_of_wakeControl {s t : Serve} (hpolling : t.phase.isPolling = false)
    (hcontrol : t.controlTask = s.wakeControl.controlTask)
    (h : ∀ task, s.controlTask = some task → task.mayPark (!t.phase.isOver) = false) :
    t.IsSettled := by
  refine ⟨hpolling, fun task htask => ?_⟩
  obtain ⟨task', htask', rfl⟩ := Option.map_eq_some_iff.mp (hcontrol.symm.trans htask)
  refine ⟨?_, (ControlTask.mayPark_wake _ task').trans (h task' htask')⟩
  obtain ⟨phase, registration⟩ := task'
  cases phase <;> exact nofun

/-- **A signal is heeded if and only if it finds no control task on its way to wait for it.** -/
theorem never_isStranded_iff {grace : Nat} {s t : Serve} {l : Label} (hsignals : s.Signals l)
    (hstep : s.step grace l = some t) :
    Never (step grace) IsStranded t ↔ FindsWaiter s l := by
  have hiff : ∀ {u : Serve} {connected : Bool}, u.phase.isPolling = false →
      u.controlTask = s.wakeControl.controlTask → (!u.phase.isOver) = connected →
      (Never (step grace) IsStranded u ↔
        ∀ task, s.controlTask = some task → task.mayPark connected = false) := by
    rintro u _ hpolling hcontrol rfl
    constructor
    · intro hnever task htask
      have hwoken : u.controlTask = some task.wake := by
        rw [hcontrol, wakeControl, htask]
        rfl
      exact Bool.eq_false_iff.mpr fun hmay =>
        not_never_of_mayPark hwoken ((ControlTask.mayPark_wake _ task).trans hmay) hnever
    · exact fun h => never_isStranded_of_isSettled (isSettled_of_wakeControl hpolling hcontrol h)
  have hcondition : FindsWaiter s l ↔
      ∀ task, s.controlTask = some task → task.mayPark (decide (l = .shutdown)) = false :=
    ⟨fun h => h hsignals, fun h _ => h⟩
  rw [hcondition]
  cases steps_of_step hstep with
  | shutdown hp => exact hiff rfl rfl rfl
  | leave result hp hl =>
      refine hiff rfl rfl ?_
      symm
      refine decide_eq_false ?_
      rintro rfl
      cases hl
  | registered hp hcontrol hsent =>
      rcases hsignals with hl | hl
      · cases hl
      · simp [leavesLoop, hcontrol, hsent] at hl
  | _ => rcases hsignals with hl | hl <;> cases hl

/-- **`control_shutdown` is never missed if and only if no signal finds the control task on its way
to wait for it**: in a run whose signals do not, no state after a signal has the control task waiting
with no wake-up pending; and a signal that does can be followed by such a state. -/
theorem neverAfter_signal_iff (grace : Nat) :
    (∀ ls, Always (step grace) FindsWaiter init ls →
      NeverAfter (step grace) Signals IsStranded init ls) ∧
    ∀ past s l t, run (step grace) init past = some s → s.Signals l → s.step grace l = some t →
      (Never (step grace) IsStranded t ↔ FindsWaiter s l) := by
  refine ⟨fun ls hfinds => neverAfter_of_always ?_ hfinds, fun past s l t _ hsignals hstep =>
    never_isStranded_iff hsignals hstep⟩
  intro past s l t _ hsignals hl hstep
  exact (never_isStranded_iff hsignals hstep).mpr hl

/-- The control task waits by the time the shutdown fires. -/
theorem heard_after_parking :
    NeverAfter (step 30000000000) Signals IsStranded init
      [.select, .acceptControl, .control .respond, .control .registered, .control .announce,
        .control .park, .select, .fire, .shutdown, .control .unpark] := by
  refine (neverAfter_signal_iff 30000000000).1 _ ?_
  have hsilent : ∀ l : Label, l ≠ .shutdown → (∀ s, Serve.leavesLoop s l = false) → ∀ s,
      FindsWaiter s l := by
    intro l hl hleaves s hsignals
    rcases hsignals with hshutdown | hleave
    · exact absurd hshutdown hl
    · exact absurd ((hleaves s).symm.trans hleave) nofun
  obtain ⟨s, hrun, hcontrol⟩ : ∃ s, run (step 30000000000) init [.select, .acceptControl,
      .control .respond, .control .registered, .control .announce, .control .park, .select,
      .fire] = some s ∧ s.controlTask = some ⟨.parked .waiting, .sent (.ok ())⟩ :=
    ⟨_, rfl, rfl⟩
  have hlast : Always (step 30000000000) FindsWaiter s [.shutdown, .control .unpark] := by
    refine ⟨fun _ task htask => ?_, fun t _ => ?_⟩
    · cases hcontrol.symm.trans htask
      rfl
    · exact ⟨hsilent (.control .unpark) nofun (fun _ => rfl) t, fun _ _ => trivial⟩
  refine (always_append hrun).mpr ⟨always_of_forall_mem (fun l hl => hsilent l ?_ ?_) init, hlast⟩
  · rintro rfl
    simp at hl
  · intro s
    cases l <;> first | rfl | simp at hl

/-- The shutdown fires while the control task has its registration and has not come to wait yet. It
waits after the signal, and still does when `serve` has given up on it. -/
theorem stranded_after_shutdown :
    let ls : List Label := [.select, .acceptControl, .control .respond, .control .registered,
      .select, .fire, .shutdown, .control .announce, .control .park, .streamsJoined,
      .elapse 30000000000, .controlElapsed]
    (∃ t, run (step 30000000000) init ls = some t ∧ t.phase = .returned (.ok ())) ∧
      ¬ NeverAfter (step 30000000000) Signals IsStranded init ls := by
  intro ls
  refine ⟨⟨_, rfl, rfl⟩, fun hnever => ?_⟩
  exact hnever [.select, .acceptControl, .control .respond, .control .registered, .select, .fire]
    .shutdown [.control .announce, .control .park, .streamsJoined, .elapse 30000000000,
      .controlElapsed] [] _ _ rfl rfl (.inl rfl) rfl ⟨_, rfl, rfl⟩

end Serve

end Libcfd.Edge.H2
