import Libcfd.Edge.Error
import Libcfd.Edge.Event
import Libcfd.Foundation.Machine
import Mathlib.Algebra.Group.Nat.Defs

/-!
# `EdgeConnector::run`

The reconnect loop as a machine. A label resolves what the environment decides: what discovery
returns, how an attempt ends, which ready branch a `select!` takes, when the shutdown event fires.
Everything else (transport selection, the failure counters, the backoff bound) is computed as the
source computes it.

The attempt inside the `select!` is a parameter, `AttemptModel`: the loop only starts it, polls it
and reads its `ServeAttempt`. The tasks an attempt has spawned outlive its future, so an attempt
that has been dropped or has finished stays in `background` and goes on taking steps there.
-/

namespace Libcfd.Edge

open Libcfd.Machine

/-! ## Options and outcomes -/

inductive Transport where
  | quic
  | h2
  | auto
  deriving DecidableEq, Repr

/-- `select_transport` with both edge transports built in. -/
def selectTransport (requested : Transport) (quicFailures maximumQuicFailures : Nat) : Transport :=
  match requested with
  | .quic => .quic
  | .h2 => .h2
  | .auto => if quicFailures ≥ maximumQuicFailures then .h2 else .quic

/-- The fields of `EdgeOptions` the loop itself reads; durations are in nanoseconds. -/
structure EdgeOptions where
  transport : Transport
  backoff : Nat
  gracePeriod : Nat
  maximumQuicFailures : Fin 256
  deriving Repr

/-- What an attempt returns. `registeredFor` is `registered_at.elapsed()` when the loop asks. -/
structure ServeAttempt where
  result : Except Error Unit
  registeredFor : Option Nat
  quicTimedOut : Bool
  deriving DecidableEq, Repr

/-- `retry_delay` for the eight random bytes `draw`. -/
def retryDelay (retries base draw : Nat) : Nat :=
  let exponent := min retries 30
  let maximumNanos := min (min (base % 2 ^ 64 * 2 ^ exponent) (2 ^ 64 - 1)) (2 ^ 62)
  if maximumNanos = 0 then 0 else draw % 2 ^ 64 % maximumNanos

/-! ## The attempt as a parameter -/

/-- An attempt's future together with the tasks it spawns. -/
structure AttemptModel (Address : Type) where
  Future : Type
  Label : Type
  -- the future `run` builds for one edge, before its first poll
  start : Transport → Address → (attempt : Nat) → Future
  -- `notify_waiters` on the shutdown event
  wake : Future → Future
  -- one step of the future or of one of its tasks; the flag is `shutdown.is_fired()`
  step : (fired : Bool) → Future → Label → Option Future
  -- the future is ready with this result
  finished : Future → ServeAttempt → Bool
  -- the future is dropped; what it spawned runs on
  abandon : Future → Future

variable {Address : Type} (A : AttemptModel Address)

/-! ## The loop -/

/-- Where `run` stands. The `select!`s are `attempting` and `sleeping`; they hold the `Notified`
they were entered with. Between them `run` holds none. -/
inductive Phase where
  | discovering (transport : Transport)
  -- at the head of `for edge in &edges`
  | stepping (transport : Transport) (edges : List Address) (quicBroken : Bool)
  | attempting (transport : Transport) (rest : List Address) (quicBroken : Bool)
      (shutdown : Notified) (future : A.Future)
  -- about to enter the backoff `select!`
  | pausing (delay : Nat)
  | sleeping (delay : Nat) (shutdown : Notified)
  | returned (result : Except Error Unit)

/-- The task `run` spawns to await the caller's `shutdown` future and `fire` the event. -/
inductive FireTask where
  | pending
  -- between the store to the flag and `notify_waiters`
  | stored
  | done
  deriving DecidableEq, Repr

structure Run where
  event : Event
  fireTask : FireTask
  quicFailures : Nat
  attempt : Nat
  phase : Phase A
  background : List A.Future

inductive Label where
  -- `fire`: the flag first, then the waiters
  | storeFired
  | notifyWaiters
  | discovered (edges : List Address)
  | discoveryFailed (draw : Nat)
  | beginAttempt
  | attemptStep (label : A.Label)
  -- the attempt's branch of its `select!` is taken
  | attempted (outcome : ServeAttempt)
  | endRound (draw : Nat)
  | beginSleep
  -- the timer's branch of the backoff `select!` is taken
  | slept
  -- the shutdown branch of either `select!` is taken
  | shutdown
  | backgroundStep (index : Nat) (label : A.Label)

variable {A}

/-- The top of the loop. -/
def Run.loopHead (opts : EdgeOptions) (s : Run A) : Run A :=
  { s with phase := .discovering
             (selectTransport opts.transport s.quicFailures opts.maximumQuicFailures) }

def Run.init (opts : EdgeOptions) : Run A :=
  Run.loopHead opts
    { event := .new, fireTask := .pending, quicFailures := 0, attempt := 0, phase := .pausing 0, background := [] }

/-- `attempt.saturating_add(1)` and the delay computed from it. -/
def Run.backOff (opts : EdgeOptions) (draw : Nat) (s : Run A) : Run A :=
  let attempt := min (s.attempt + 1) (2 ^ 32 - 1)
  { s with attempt := attempt, phase := .pausing (retryDelay attempt opts.backoff draw) }

/-- The failure counter at the end of a round of attempts. -/
def countQuicFailure (opts : EdgeOptions) (transport : Transport) (quicBroken : Bool)
    (quicFailures : Nat) : Nat :=
  if transport = .quic then
    if quicBroken then max (min (quicFailures + 1) 255) opts.maximumQuicFailures
    else min (quicFailures + 1) 255
  else quicFailures

/-- What `run` does with the `ServeAttempt` its `select!` has returned. -/
def Run.afterAttempt (opts : EdgeOptions) (transport : Transport) (rest : List Address)
    (quicBroken : Bool) (outcome : ServeAttempt) (s : Run A) : Run A :=
  match outcome.result with
  | .ok () => { s with phase := .returned (.ok ()) }
  | .error (.duplicateConnection _) => { s with phase := .stepping transport rest quicBroken }
  | .error e =>
      if e.isPermanent then { s with phase := .returned (.error e) }
      else
        let healthy := match outcome.registeredFor with
          | some elapsed => decide (elapsed ≥ opts.gracePeriod)
          | none => false
        { s with
          attempt := if healthy then 0 else s.attempt
          phase := .stepping transport rest
            (quicBroken || (outcome.quicTimedOut && decide (transport = .quic))) }

/-- `notify_waiters`: the `Notified` of `run`'s own `select!` is woken, and those of every attempt. -/
def Phase.wake : Phase A → Phase A
  | .attempting transport rest quicBroken shutdown future =>
      .attempting transport rest quicBroken shutdown.wake (A.wake future)
  | .sleeping delay shutdown => .sleeping delay shutdown.wake
  | phase => phase

def step (opts : EdgeOptions) (s : Run A) : Label A → Option (Run A)
  | .storeFired =>
      if s.fireTask = .pending then some { s with event := s.event.store, fireTask := .stored }
      else none
  | .notifyWaiters =>
      if s.fireTask = .stored then
        some { s with
          fireTask := .done, phase := s.phase.wake, background := s.background.map A.wake }
      else none
  | .discovered edges =>
      match s.phase with
      | .discovering transport => some { s with phase := .stepping transport edges false }
      | _ => none
  | .discoveryFailed draw =>
      match s.phase with
      | .discovering _ => some (s.backOff opts draw)
      | _ => none
  | .beginAttempt =>
      match s.phase with
      | .stepping transport (edge :: rest) quicBroken =>
          some { s with phase := .attempting transport rest quicBroken s.event.notified
                          (A.start transport edge s.attempt) }
      | _ => none
  | .attemptStep label =>
      match s.phase with
      | .attempting transport rest quicBroken shutdown future =>
          (A.step s.event.isFired future label).map fun future' =>
            { s with phase := .attempting transport rest quicBroken shutdown future' }
      | _ => none
  | .attempted outcome =>
      match s.phase with
      | .attempting transport rest quicBroken _ future =>
          if A.finished future outcome then
            some (Run.afterAttempt opts transport rest quicBroken outcome
              { s with background := s.background ++ [A.abandon future] })
          else none
      | _ => none
  | .endRound draw =>
      match s.phase with
      | .stepping transport [] quicBroken =>
          some (Run.backOff opts draw
            { s with quicFailures := countQuicFailure opts transport quicBroken s.quicFailures })
      | _ => none
  | .beginSleep =>
      match s.phase with
      | .pausing delay => some { s with phase := .sleeping delay s.event.notified }
      | _ => none
  | .slept =>
      match s.phase with
      | .sleeping _ _ => some (s.loopHead opts)
      | _ => none
  | .shutdown =>
      match s.phase with
      | .attempting _ _ _ shutdown future =>
          if shutdown.isReady then
            some { s with phase := .returned (.ok ())
                          background := s.background ++ [A.abandon future] }
          else none
      | .sleeping _ shutdown =>
          if shutdown.isReady then some { s with phase := .returned (.ok ()) } else none
      | _ => none
  | .backgroundStep index label =>
      match s.background[index]? with
      | some future =>
          (A.step s.event.isFired future label).map fun future' =>
            { s with background := s.background.set index future' }
      | none => none

/-! ## What a step can do -/

/-- The steps of `run`, one rule for each label and `select!` it can be taken in. -/
inductive Steps (opts : EdgeOptions) (s : Run A) : Label A → Run A → Prop
  | storeFired (h : s.fireTask = .pending) :
      Steps opts s .storeFired { s with event := s.event.store, fireTask := .stored }
  | notifyWaiters (h : s.fireTask = .stored) :
      Steps opts s .notifyWaiters
        { s with fireTask := .done, phase := s.phase.wake, background := s.background.map A.wake }
  | discovered {transport : Transport} (edges : List Address)
      (h : s.phase = .discovering transport) :
      Steps opts s (.discovered edges) { s with phase := .stepping transport edges false }
  | discoveryFailed {transport : Transport} (draw : Nat) (h : s.phase = .discovering transport) :
      Steps opts s (.discoveryFailed draw) (s.backOff opts draw)
  | beginAttempt {transport : Transport} {edge : Address} {rest : List Address} {quicBroken : Bool}
      (h : s.phase = .stepping transport (edge :: rest) quicBroken) :
      Steps opts s .beginAttempt
        { s with phase := .attempting transport rest quicBroken s.event.notified
                   (A.start transport edge s.attempt) }
  | attemptStep {transport : Transport} {rest : List Address} {quicBroken : Bool}
      {shutdown : Notified} {future future' : A.Future} (label : A.Label)
      (h : s.phase = .attempting transport rest quicBroken shutdown future)
      (hstep : A.step s.event.isFired future label = some future') :
      Steps opts s (.attemptStep label)
        { s with phase := .attempting transport rest quicBroken shutdown future' }
  | attempted {transport : Transport} {rest : List Address} {quicBroken : Bool}
      {shutdown : Notified} {future : A.Future} (outcome : ServeAttempt)
      (h : s.phase = .attempting transport rest quicBroken shutdown future)
      (hfinished : A.finished future outcome = true) :
      Steps opts s (.attempted outcome)
        (Run.afterAttempt opts transport rest quicBroken outcome
          { s with background := s.background ++ [A.abandon future] })
  | endRound {transport : Transport} {quicBroken : Bool} (draw : Nat)
      (h : s.phase = .stepping transport [] quicBroken) :
      Steps opts s (.endRound draw)
        (Run.backOff opts draw
          { s with quicFailures := countQuicFailure opts transport quicBroken s.quicFailures })
  | beginSleep {delay : Nat} (h : s.phase = .pausing delay) :
      Steps opts s .beginSleep { s with phase := .sleeping delay s.event.notified }
  | slept {delay : Nat} {shutdown : Notified} (h : s.phase = .sleeping delay shutdown) :
      Steps opts s .slept (s.loopHead opts)
  | abandoned {transport : Transport} {rest : List Address} {quicBroken : Bool}
      {future : A.Future}
      (h : s.phase = .attempting transport rest quicBroken .woken future) :
      Steps opts s .shutdown
        { s with phase := .returned (.ok ()), background := s.background ++ [A.abandon future] }
  | stopped {delay : Nat} (h : s.phase = .sleeping delay .woken) :
      Steps opts s .shutdown { s with phase := .returned (.ok ()) }
  | backgroundStep {future future' : A.Future} (index : Nat) (label : A.Label)
      (h : s.background[index]? = some future)
      (hstep : A.step s.event.isFired future label = some future') :
      Steps opts s (.backgroundStep index label)
        { s with background := s.background.set index future' }

theorem steps_of_step {opts : EdgeOptions} {s t : Run A} {l : Label A}
    (h : step opts s l = some t) : Steps opts s l t := by
  cases l with
  | storeFired =>
      obtain ⟨hf, ⟨⟩⟩ := Option.ite_none_right_eq_some.mp h
      exact .storeFired hf
  | notifyWaiters =>
      obtain ⟨hf, ⟨⟩⟩ := Option.ite_none_right_eq_some.mp h
      exact .notifyWaiters hf
  | discovered edges =>
      simp only [step] at h
      split at h <;> cases h
      exact .discovered edges ‹_›
  | discoveryFailed draw =>
      simp only [step] at h
      split at h <;> cases h
      exact .discoveryFailed draw ‹_›
  | beginAttempt =>
      simp only [step] at h
      split at h <;> cases h
      exact .beginAttempt ‹_›
  | attemptStep label =>
      simp only [step] at h
      split at h
      · obtain ⟨future, hstep, ⟨⟩⟩ := Option.map_eq_some_iff.mp h
        exact .attemptStep label ‹_› hstep
      · cases h
  | attempted outcome =>
      simp only [step] at h
      split at h
      · obtain ⟨hfinished, ⟨⟩⟩ := Option.ite_none_right_eq_some.mp h
        exact .attempted outcome ‹_› hfinished
      · cases h
  | endRound draw =>
      simp only [step] at h
      split at h <;> cases h
      exact .endRound draw ‹_›
  | beginSleep =>
      simp only [step] at h
      split at h <;> cases h
      exact .beginSleep ‹_›
  | slept =>
      simp only [step] at h
      split at h <;> cases h
      exact .slept ‹_›
  | shutdown =>
      simp only [step] at h
      split at h
      · next hp =>
        obtain ⟨hready, ⟨⟩⟩ := Option.ite_none_right_eq_some.mp h
        exact .abandoned (eq_woken_of_isReady hready ▸ hp)
      · next hp =>
        obtain ⟨hready, ⟨⟩⟩ := Option.ite_none_right_eq_some.mp h
        exact .stopped (eq_woken_of_isReady hready ▸ hp)
      · cases h
  | backgroundStep index label =>
      simp only [step] at h
      split at h
      · obtain ⟨future, hstep, ⟨⟩⟩ := Option.map_eq_some_iff.mp h
        exact .backgroundStep index label ‹_› hstep
      · cases h

/-! ## Is a shutdown ever lost?

`run` holds a `Notified` only while it is inside one of its two `select!`s, and the event keeps
nothing for the next one. So the shutdown reaches `run` if it fires inside a `select!`, and even
then only if that `select!` does not complete through its other branch. -/

/-- `run` is inside one of its `select!`s. -/
def Phase.isWaiting : Phase A → Bool
  | .attempting .. | .sleeping .. => true
  | _ => false

/-- `run` is inside a `select!` whose shutdown branch is ready. -/
def Phase.isWoken : Phase A → Bool
  | .attempting _ _ _ shutdown _ => shutdown.isReady
  | .sleeping _ shutdown => shutdown.isReady
  | _ => false

def Phase.isReturned : Phase A → Bool
  | .returned _ => true
  | _ => false

/-- The step starts a connection attempt or a backoff sleep. -/
def Label.begins : Label A → Bool
  | .beginAttempt | .beginSleep => true
  | _ => false

/-- The shutdown that fired before the steps `after` is not lost: none of them starts another
attempt or sleep, `run` returns nothing but `Ok(())`, and the `select!` it is still in can return
that at once. -/
structure ShutdownHeeded (opts : EdgeOptions) (after : List (Label A)) (s : Run A) : Prop where
  begins : ∀ l ∈ after, l.begins = false
  returns : ∀ result, s.phase = .returned result → result = .ok ()
  ready : s.phase.isWaiting = true →
    ∃ t, step opts s .shutdown = some t ∧ t.phase = .returned (.ok ())

/-- The condition on a step: a `select!` whose shutdown branch is ready takes it, or the attempt it
was waiting for has itself ended with `Ok(())`. -/
def TakesShutdown (s : Run A) : Label A → Prop
  | .attempted outcome => s.phase.isWoken = true → outcome.result = .ok ()
  | .slept => s.phase.isWoken = false
  | _ => True

/-- From here on the shutdown can only be lost. -/
def Phase.isLost : Phase A → Bool
  | .discovering _ | .stepping .. | .pausing _ => true
  | .returned (.error _) => true
  | _ => false

/-- `run` has returned `Ok(())` or is about to. -/
def Phase.isStopping (phase : Phase A) : Prop := phase = .returned (.ok ()) ∨ phase.isWoken = true

theorem not_isLost_of_isStopping {phase : Phase A} (h : phase.isStopping) :
    phase.isLost = false := by
  rcases h with rfl | h
  · rfl
  · cases phase <;> first | rfl | cases h

theorem isLost_afterAttempt {opts : EdgeOptions} {transport : Transport} {rest : List Address}
    {quicBroken : Bool} {outcome : ServeAttempt} {s : Run A} (h : outcome.result ≠ .ok ()) :
    (Run.afterAttempt opts transport rest quicBroken outcome s).phase.isLost = true := by
  unfold Run.afterAttempt
  split
  · next hok => exact absurd hok h
  · rfl
  · split <;> rfl

theorem phase_afterAttempt_ok {opts : EdgeOptions} {transport : Transport} {rest : List Address}
    {quicBroken : Bool} {outcome : ServeAttempt} {s : Run A} (h : outcome.result = .ok ()) :
    (Run.afterAttempt opts transport rest quicBroken outcome s).phase = .returned (.ok ()) := by
  simp [Run.afterAttempt, h]

/-- Without a new `select!` there is no new `Notified`: a lost shutdown stays lost. -/
theorem isLost_step {opts : EdgeOptions} {s t : Run A} {l : Label A} (hlost : s.phase.isLost = true)
    (hl : l.begins = false) (h : step opts s l = some t) : t.phase.isLost = true := by
  cases steps_of_step h with
  | storeFired => exact hlost
  | notifyWaiters => cases hp : s.phase <;> simp_all [Phase.isLost, Phase.wake]
  | discovered | discoveryFailed | endRound => rfl
  | backgroundStep => exact hlost
  | beginAttempt | beginSleep => cases hl
  | attemptStep _ hp | attempted _ hp | slept hp | abandoned hp | stopped hp =>
      simp [hp, Phase.isLost] at hlost

theorem isLost_run {opts : EdgeOptions} {s t : Run A} {ls : List (Label A)}
    (hlost : s.phase.isLost = true) (hls : ∀ l ∈ ls, l.begins = false)
    (h : run (step opts) s ls = some t) : t.phase.isLost = true := by
  induction ls generalizing s with
  | nil =>
      cases h
      exact hlost
  | cons l ls ih =>
      obtain ⟨v, hv, hrest⟩ := run_cons_eq_some.mp h
      exact ih (isLost_step hlost (hls l List.mem_cons_self) hv)
        (fun l' hl' => hls l' (List.mem_cons_of_mem l hl')) hrest

theorem isStopping_wake {phase : Phase A} (h : phase.isStopping) : phase.wake.isStopping := by
  rcases h with rfl | hw
  · exact Or.inl rfl
  · cases phase with
    | attempting | sleeping => exact Or.inr rfl
    | _ => cases hw

/-- **Once the shutdown branch is ready** a step starts nothing; it keeps `run` stopping if it
takes the shutdown, and loses the shutdown if it does not. -/
theorem isStopping_step {opts : EdgeOptions} {s t : Run A} {l : Label A}
    (hstop : s.phase.isStopping) (h : step opts s l = some t) :
    l.begins = false ∧ (TakesShutdown s l → t.phase.isStopping) ∧
      (¬ TakesShutdown s l → t.phase.isLost = true) := by
  cases steps_of_step h with
  | storeFired => exact ⟨rfl, fun _ => hstop, fun hnot => absurd trivial hnot⟩
  | notifyWaiters => exact ⟨rfl, fun _ => isStopping_wake hstop, fun hnot => absurd trivial hnot⟩
  | backgroundStep => exact ⟨rfl, fun _ => hstop, fun hnot => absurd trivial hnot⟩
  | discovered _ hp | discoveryFailed _ hp | beginAttempt hp | endRound _ hp | beginSleep hp =>
      simp [hp, Phase.isStopping, Phase.isWoken] at hstop
  | attemptStep label hp =>
      refine ⟨rfl, fun _ => Or.inr ?_, fun hnot => absurd trivial hnot⟩
      simpa [hp, Phase.isStopping, Phase.isWoken] using hstop
  | attempted outcome hp =>
      have hw : s.phase.isWoken = true := by simpa [hp, Phase.isStopping] using hstop
      refine ⟨rfl, fun hC => Or.inl (phase_afterAttempt_ok (hC hw)), fun hnot => ?_⟩
      exact isLost_afterAttempt (fun hok => hnot (fun _ => hok))
  | slept hp =>
      have hw : s.phase.isWoken = true := by simpa [hp, Phase.isStopping] using hstop
      refine ⟨rfl, fun hC => ?_, fun _ => rfl⟩
      rw [show s.phase.isWoken = false from hC] at hw
      cases hw
  | abandoned hp => exact ⟨rfl, fun _ => Or.inl rfl, fun hnot => absurd trivial hnot⟩
  | stopped hp => exact ⟨rfl, fun _ => Or.inl rfl, fun hnot => absurd trivial hnot⟩

/-- In every run that goes on taking the shutdown, nothing is started and `run` stays about to
return. -/
theorem isStopping_run {opts : EdgeOptions} {s t : Run A} {ls : List (Label A)}
    (hstop : s.phase.isStopping) (h : run (step opts) s ls = some t)
    (hC : Always (step opts) TakesShutdown s ls) :
    (∀ l ∈ ls, l.begins = false) ∧ t.phase.isStopping := by
  induction ls generalizing s with
  | nil =>
      cases h
      exact ⟨by simp, hstop⟩
  | cons l ls ih =>
      obtain ⟨v, hv, hrest⟩ := run_cons_eq_some.mp h
      obtain ⟨hl, hkeep, _⟩ := isStopping_step hstop hv
      obtain ⟨hls, ht⟩ := ih (hkeep hC.1) hrest (hC.2 v hv)
      exact ⟨List.forall_mem_cons.mpr ⟨hl, hls⟩, ht⟩

/-- A run that starts nothing and ends about to return has taken the shutdown at every step. -/
theorem always_takesShutdown {opts : EdgeOptions} {s t : Run A} {ls : List (Label A)}
    (hstop : s.phase.isStopping) (h : run (step opts) s ls = some t)
    (hls : ∀ l ∈ ls, l.begins = false) (ht : t.phase.isStopping) :
    Always (step opts) TakesShutdown s ls := by
  induction ls generalizing s with
  | nil => exact trivial
  | cons l ls ih =>
      obtain ⟨v, hv, hrest⟩ := run_cons_eq_some.mp h
      obtain ⟨_, hkeep, hlose⟩ := isStopping_step hstop hv
      have hls' : ∀ l' ∈ ls, l'.begins = false := fun l' hl' => hls l' (List.mem_cons_of_mem l hl')
      have htakes : TakesShutdown s l := by
        by_cases hC : TakesShutdown s l
        · exact hC
        · have hlost := isLost_run (hlose hC) hls' hrest
          rw [not_isLost_of_isStopping ht] at hlost
          cases hlost
      refine ⟨htakes, fun w hw => ?_⟩
      cases hv.symm.trans hw
      exact ih (hkeep htakes) hrest hls'

theorem step_shutdown_of_isWoken {opts : EdgeOptions} {s : Run A} (h : s.phase.isWoken = true) :
    ∃ t, step opts s .shutdown = some t ∧ t.phase = .returned (.ok ()) := by
  cases hp : s.phase with
  | attempting transport rest quicBroken shutdown future =>
      have hready : shutdown.isReady = true := by simpa [hp, Phase.isWoken] using h
      exact ⟨_, by simp [step, hp, hready]; rfl, rfl⟩
  | sleeping delay shutdown =>
      have hready : shutdown.isReady = true := by simpa [hp, Phase.isWoken] using h
      exact ⟨_, by simp [step, hp, hready]; rfl, rfl⟩
  | _ => simp [hp, Phase.isWoken] at h

theorem isWoken_of_step_shutdown {opts : EdgeOptions} {s t : Run A}
    (h : step opts s .shutdown = some t) : s.phase.isWoken = true := by
  cases steps_of_step h with
  | abandoned hp | stopped hp => simp [hp, Phase.isWoken, Notified.isReady]

/-- A shutdown is heeded just in case nothing is started and `run` is about to return, as soon as
`run` has come to its next wait or has returned. -/
theorem shutdownHeeded_iff {opts : EdgeOptions} {after : List (Label A)} {s : Run A}
    (hsettled : s.phase.isWaiting = true ∨ s.phase.isReturned = true) :
    ShutdownHeeded opts after s ↔ (∀ l ∈ after, l.begins = false) ∧ s.phase.isStopping := by
  constructor
  · intro h
    refine ⟨h.begins, ?_⟩
    rcases hsettled with hwait | hret
    · obtain ⟨t, ht, _⟩ := h.ready hwait
      exact Or.inr (isWoken_of_step_shutdown ht)
    · cases hp : s.phase with
      | returned result => exact Or.inl (by rw [h.returns result hp])
      | _ => simp [hp, Phase.isReturned] at hret
  · rintro ⟨hbegins, hstop⟩
    refine ⟨hbegins, fun result hp => ?_, fun hwait => ?_⟩
    · rcases hstop with hok | hw
      · exact (Phase.returned.inj (hp.symm.trans hok))
      · simp [hp, Phase.isWoken] at hw
    · rcases hstop with hok | hw
      · simp [hok, Phase.isWaiting] at hwait
      · exact step_shutdown_of_isWoken hw

/-- **When a shutdown is not lost.** Let the shutdown fire in any state `v` in which `run` has not
returned, and follow `run` to one of its waits or to its return. The shutdown is heeded if and only
if it fired while `run` was inside one of its `select!`s and no `select!` after that let the other
branch win, except for an attempt that itself ended with `Ok(())`. -/
theorem shutdown_heeded_iff {opts : EdgeOptions} {after : List (Label A)} {v w s : Run A}
    (hv : v.phase.isReturned = false) (hfire : step opts v .notifyWaiters = some w)
    (hrun : run (step opts) w after = some s)
    (hsettled : s.phase.isWaiting = true ∨ s.phase.isReturned = true) :
    ShutdownHeeded opts after s ↔
      v.phase.isWaiting = true ∧ Always (step opts) TakesShutdown w after := by
  have hw : w.phase = v.phase.wake := by
    cases steps_of_step hfire
    rfl
  rw [shutdownHeeded_iff hsettled]
  cases hp : v.phase with
  | returned => simp [hp, Phase.isReturned] at hv
  | attempting | sleeping =>
      have hstop : w.phase.isStopping := Or.inr (by simp [hw, hp, Phase.wake, Phase.isWoken,
        Notified.wake, Notified.isReady])
      constructor
      · rintro ⟨hbegins, ht⟩
        exact ⟨rfl, always_takesShutdown hstop hrun hbegins ht⟩
      · rintro ⟨_, hC⟩
        exact isStopping_run hstop hrun hC
  | discovering | stepping | pausing =>
      constructor
      · rintro ⟨hbegins, ht⟩
        have hlost := isLost_run (by simp [hw, hp, Phase.wake, Phase.isLost]) hbegins hrun
        rw [not_isLost_of_isStopping ht] at hlost
        cases hlost
      · rintro ⟨hwait, _⟩
        cases hwait

/-- An attempt that hangs in its dial. -/
def hangingDial : AttemptModel Unit where
  Future := Unit
  Label := Empty
  start := fun _ _ _ => ()
  wake := id
  step := fun _ _ label => label.elim
  finished := fun _ _ => false
  abandon := id

def defaultOptions : EdgeOptions where
  transport := .auto
  backoff := 1000000000
  gracePeriod := 30000000000
  maximumQuicFailures := 5

/-- `run` after the steps `ls`, each attempt hanging. -/
def hangingRun (ls : List (Label hangingDial)) : Option (Run hangingDial) :=
  run (step defaultOptions) (Run.init defaultOptions) ls

/-- `run` waiting for its first attempt, the event fired as far as `fireTask` says. -/
def hangingWait (fireTask : FireTask) (shutdown : Notified) : Run hangingDial where
  event := ⟨true⟩
  fireTask := fireTask
  quicFailures := 0
  attempt := 0
  phase := .attempting .quic [] false shutdown ()
  background := []

/-- A shutdown that fires while `run` waits for an attempt. -/
theorem shutdown_heeded_while_attempting :
    hangingRun [.discovered [()], .beginAttempt, .storeFired] = some (hangingWait .stored .waiting) ∧
      ∃ s, run (step defaultOptions) (hangingWait .done .woken) [.shutdown] = some s ∧
        ShutdownHeeded defaultOptions [.shutdown] s := by
  have hfire : step defaultOptions (hangingWait .stored .waiting) .notifyWaiters =
      some (hangingWait .done .woken) := rfl
  refine ⟨rfl, _, rfl, (shutdown_heeded_iff rfl hfire rfl (Or.inr rfl)).mpr ⟨rfl, ?_⟩⟩
  exact ⟨trivial, fun _ _ => trivial⟩

/-- A shutdown that fires during discovery: `run` goes on to its first attempt and waits for it
with a `Notified` nobody will wake. -/
theorem shutdown_lost_while_discovering :
    ∃ v w s, hangingRun [.storeFired] = some v ∧
      step defaultOptions v .notifyWaiters = some w ∧
      run (step defaultOptions) w [.discovered [()], .beginAttempt] = some s ∧
      ¬ ShutdownHeeded defaultOptions [.discovered [()], .beginAttempt] s := by
  refine ⟨_, _, _, rfl, rfl, rfl, fun h => ?_⟩
  exact absurd (h.begins .beginAttempt (by simp)) (by decide)

end Libcfd.Edge
