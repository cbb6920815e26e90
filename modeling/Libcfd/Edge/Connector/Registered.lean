import Libcfd.Edge.Connector.Backoff

/-!
# What an attempt tells the loop

The attempts of the two transports, with the options they register with, the instant the connection
was registered, and the instant the loop will be told. `run_quic` registers by itself, so the two
instants are one. `run_h2` leaves it to `serve` and waits for a signal, at most `RPC_TIMEOUT`; the
timeout of `serve` starts again with every stream it accepts, so the signal can come later than that,
and then nobody hears it.
-/

namespace Libcfd.Edge

open Libcfd.Machine Program Libcfd.Rpc

/-! ## The attempts -/

/-- The clock of an attempt, as far as it has one. -/
def Attempt.now : Attempt → Nat
  | .quic (.registering now _) => now
  | .quic (.registered serving) => serving.now
  | .h2 (.running _ _ serve) => serve.now
  | _ => 0

/-- The edge has accepted the registration. -/
def AttemptLabel.registers : AttemptLabel → Bool
  | .quic (.registered _) | .h2 (.serve (.control .registered)) => true
  | _ => false

/-- `registered_at` is set. -/
def AttemptLabel.notes : AttemptLabel → Bool
  | .quic (.registered _) | .h2 .registered => true
  | _ => false

structure Registering where
  attempt : Attempt
  options : Control.RegistrationOptions
  registeredAt : Option Nat
  notedAt : Option Nat

namespace Registering

variable {Address : Type}

/-- `RegistrationOptions { origin_local_ip, number_previous_attempts, ..Default::default() }`. -/
def start (originLocalIp : Transport → Address → List UInt8) (transport : Transport)
    (edge : Address) (attempt : Nat) : Registering where
  attempt := Attempt.start transport
  options :=
    { originLocalIp := originLocalIp transport edge
      numberPreviousAttempts := UInt8.ofNat (min attempt 255) }
  registeredAt := none
  notedAt := none

def step (grace : Nat) (fired : Bool) (r : Registering) (label : AttemptLabel) :
    Option Registering :=
  (r.attempt.step grace fired label).map fun attempt =>
    { r with
      attempt := attempt
      registeredAt := if label.registers then some attempt.now else r.registeredAt
      notedAt := if label.notes then some attempt.now else r.notedAt }

def wake (r : Registering) : Registering := { r with attempt := r.attempt.wake }

/-- `registered_at.elapsed()` is read off the same clock. -/
def finished (r : Registering) (outcome : ServeAttempt) : Bool :=
  r.attempt.finished outcome &&
    decide (outcome.registeredFor = r.notedAt.map (r.attempt.now - ·))

def abandon (r : Registering) : Registering := { r with attempt := r.attempt.abandon }

/-- The connection has been registered for the grace period. -/
def isHealthy (grace : Nat) (r : Registering) : Bool :=
  r.registeredAt.any fun at' => decide (at' + grace ≤ r.attempt.now)

/-- The loop will be told that it has been registered for the grace period. -/
def isNoted (grace : Nat) (r : Registering) : Bool :=
  r.notedAt.any fun at' => decide (at' + grace ≤ r.attempt.now)

end Registering

/-- The attempts of `edgeAttempts`, with what they tell. -/
abbrev registeringAttempts (opts : EdgeOptions) {Address : Type}
    (originLocalIp : Transport → Address → List UInt8) : AttemptModel Address where
  Future := Registering
  Label := AttemptLabel
  start := Registering.start originLocalIp
  wake := Registering.wake
  step := Registering.step opts.gracePeriod
  finished := Registering.finished
  abandon := Registering.abandon

section Connector

variable {Address : Type} {opts : EdgeOptions} {originLocalIp : Transport → Address → List UInt8}
  {s t : Run (registeringAttempts opts originLocalIp)}
  {l : Label (registeringAttempts opts originLocalIp)}

/-- The attempt `run` waits for. -/
def Run.attempting? (s : Run (registeringAttempts opts originLocalIp)) : Option Registering :=
  match s.phase with
  | .attempting _ _ _ _ future => some future
  | _ => none

def Run.isHealthy (s : Run (registeringAttempts opts originLocalIp)) : Bool :=
  s.attempting?.any (·.isHealthy opts.gracePeriod)

def Run.isNoted (s : Run (registeringAttempts opts originLocalIp)) : Bool :=
  s.attempting?.any (·.isNoted opts.gracePeriod)

/-! ## The number that is sent -/

/-- A call that registers says so many attempts were made before. -/
def SaysAttempts {E : Signature} (number : Nat) : (wire E).Op → Prop
  | .write (.call _ _ interfaceId methodId params) =>
      interfaceId = registrationServerInterfaceId → methodId = methodRegisterConnection →
        ∃ auth tunnelIdentifier index options,
          params = ⟨.registerConnectionParams auth tunnelIdentifier index options, []⟩ ∧
            options.numberPreviousAttempts.toNat = number
  | _ => True

/-- Whatever is registered with these options, over whatever stream. -/
def Control.RegistrationOptions.Say (options : Control.RegistrationOptions) (number : Nat) : Prop :=
  ∀ (E : Signature) parseStr connector tunnel configurationJson,
    (Control.registerOnStream (E := E) parseStr connector tunnel options
      configurationJson).Requests (SaysAttempts number)

theorem say_number (options : Control.RegistrationOptions) :
    options.Say options.numberPreviousAttempts.toNat := by
  intro E parseStr connector tunnel configurationJson
  apply Control.requests_registerOnStream
  · exact trivial
  · exact fun _ => trivial
  · exact fun _ _ => trivial
  · exact trivial
  · intro question tunnelIdentifier _ _
    exact ⟨_, _, _, _, rfl, rfl⟩
  · intro question _ hmethod
    exact absurd hmethod (by decide)

/-- `attempt.min(u8::MAX as u32) as u8` loses nothing. -/
theorem toNat_min (attempt : Nat) : (UInt8.ofNat (min attempt 255)).toNat = min attempt 255 := by
  apply UInt8.toNat_ofNat_of_lt
  show min attempt 255 < 256
  omega

/-- The attempt `run` waits for registers with the counter as it was when the attempt began. -/
def SaysStarted (w : Run (registeringAttempts opts originLocalIp) × Tally) : Prop :=
  ∀ future, w.1.attempting? = some future →
    future.options.numberPreviousAttempts = UInt8.ofNat (min w.2.started 255)

theorem attempting?_afterAttempt (transport : Transport) (rest : List Address) (quicBroken : Bool)
    (outcome : ServeAttempt) :
    (Run.afterAttempt opts transport rest quicBroken outcome s).attempting? = none := by
  unfold Run.afterAttempt
  split
  · rfl
  · rfl
  · split <;> rfl

theorem options_step {grace : Nat} {fired : Bool} {r r' : Registering} {label : AttemptLabel}
    (h : r.step grace fired label = some r') : r'.options = r.options := by
  obtain ⟨attempt, _, rfl⟩ := Option.map_eq_some_iff.mp h
  rfl

theorem saysStarted_step {healthy : Run (registeringAttempts opts originLocalIp) → Bool}
    {w w' : Run (registeringAttempts opts originLocalIp) × Tally} (hw : SaysStarted w)
    (h : tallied opts healthy w l = some w') : SaysStarted w' := by
  obtain ⟨s, tally⟩ := w
  obtain ⟨t, tally'⟩ := w'
  obtain ⟨hstep, hrecord⟩ := withHistory_eq_some.mp h
  dsimp only at hstep hrecord
  subst hrecord
  cases steps_of_step hstep with
  | storeFired | backgroundStep => exact hw
  | notifyWaiters =>
      intro future hfuture
      cases hp : s.phase with
      | attempting transport rest quicBroken shutdown before =>
          have hsome : s.attempting? = some before := by
            unfold Run.attempting?
            rw [hp]
          simp only [Run.attempting?, hp, Phase.wake] at hfuture
          cases hfuture
          exact hw before hsome
      | _ =>
          simp only [Run.attempting?, hp, Phase.wake] at hfuture
          cases hfuture
  | beginAttempt hp =>
      rintro future ⟨⟩
      rfl
  | @attemptStep _ _ _ _ before _ label hp hfuture =>
      rintro future ⟨⟩
      have hsome : s.attempting? = some before := by
        unfold Run.attempting?
        rw [hp]
      rw [options_step hfuture]
      exact hw before hsome
  | attempted outcome hp =>
      intro future hfuture
      cases (attempting?_afterAttempt ..).symm.trans hfuture
  | discovered | discoveryFailed | endRound | beginSleep | slept | abandoned | stopped =>
      rintro future ⟨⟩

/-! ## The delay -/

def ServeAttempt.isDuplicate (outcome : ServeAttempt) : Bool :=
  match outcome.result with
  | .error (.duplicateConnection _) => true
  | _ => false

/-- A connection that has been registered for the grace period is noted to have been, and does not
end as a duplicate; or `run` returns with its end. -/
def NotesHealthy (w : Run (registeringAttempts opts originLocalIp) × Tally) :
    Label (registeringAttempts opts originLocalIp) → Prop
  | .attempted outcome =>
      w.1.isHealthy = true →
        outcome.returns = true ∨ (w.1.isNoted = true ∧ outcome.isDuplicate = false)
  | _ => True

theorem resets_of_isNoted {grace : Nat} {r : Registering} {outcome : ServeAttempt}
    (hfinished : r.finished outcome = true) (hnoted : r.isNoted grace = true)
    (hduplicate : outcome.isDuplicate = false) : outcome.resets grace = true := by
  obtain ⟨_, hfor⟩ := Bool.and_eq_true_iff.mp hfinished
  obtain ⟨notedAt, hsome, hlong⟩ := (Option.any_eq_true ..).mp hnoted
  have hregistered : outcome.registeredFor = some (r.attempt.now - notedAt) := by
    rw [of_decide_eq_true hfor, hsome]
    rfl
  have helapsed : r.attempt.now - notedAt ≥ grace :=
    Nat.le_sub_of_add_le' (of_decide_eq_true hlong)
  unfold ServeAttempt.resets
  unfold ServeAttempt.isDuplicate at hduplicate
  rw [hregistered]
  cases hresult : outcome.result with
  | ok => exact decide_eq_true helapsed
  | error e =>
      cases e with
      | duplicateConnection cause =>
          rw [hresult] at hduplicate
          cases hduplicate
      | _ => exact decide_eq_true helapsed

theorem countsHealthy_of_notesHealthy {tally : Tally} (h : step opts s l = some t)
    (hC : NotesHealthy (s, tally) l) : CountsHealthy opts Run.isHealthy (s, tally) l := by
  cases steps_of_step h with
  | @attempted _ _ _ _ future outcome hp hfinished =>
      intro hhealthy
      rcases hC hhealthy with hreturns | ⟨hnoted, hduplicate⟩
      · exact .inl hreturns
      · right
        have hfuture : future.isNoted opts.gracePeriod = true := by
          simpa [Run.isNoted, Run.attempting?, hp] using hnoted
        exact resets_of_isNoted hfinished hfuture hduplicate
  | _ => exact trivial

/-- The delay is below its limit and every registration is sent with its number. -/
structure ReconnectSound (opts : EdgeOptions) (originLocalIp : Transport → Address → List UInt8)
    (w : Run (registeringAttempts opts originLocalIp) × Tally) : Prop
    extends BackoffSound opts w where
  number : ∀ future, w.1.attempting? = some future → future.options.Say (min w.2.started 255)

/-- **Backoff.** In every run whose healthy connections are noted, the delay after a round is drawn
below its limit, nothing overflows, and an attempt says how many there were before it. -/
theorem throughout_reconnectSound (opts : EdgeOptions)
    (originLocalIp : Transport → Address → List UInt8)
    (ls : List (Label (registeringAttempts opts originLocalIp)))
    (hnotes : Always (tallied opts Run.isHealthy) NotesHealthy (Run.init opts, Tally.start) ls) :
    Throughout (tallied opts Run.isHealthy) (ReconnectSound opts originLocalIp)
      (Run.init opts, Tally.start) ls := by
  refine throughout_of_always (fun w => Counted opts w ∧ SaysStarted w) ?_ ?_ ?_ hnotes
  · rintro w ⟨hcounted, hstarted⟩
    refine ⟨hcounted.sound, fun future hfuture => ?_⟩
    have hsay := say_number future.options
    rwa [hstarted future hfuture, toNat_min] at hsay
  · rintro w l w' ⟨hcounted, hstarted⟩ hC h
    have hstep := (withHistory_eq_some.mp h).1
    exact ⟨counted_step hcounted (countsHealthy_of_notesHealthy hstep hC) h,
      saysStarted_step hstarted h⟩
  · exact ⟨counted_init, fun future hfuture => nomatch hfuture⟩

end Connector

/-! ## Two connections of one minute -/

def h2Options : EdgeOptions := { defaultOptions with transport := .h2 }

/-- The attempts of `h2Options`. -/
abbrev h2Attempts : AttemptModel Unit := registeringAttempts h2Options fun _ _ => []

/-- Two discoveries have failed before there is an edge to connect to. -/
def twoFailures : List (Label h2Attempts) :=
  [.discoveryFailed 0, .beginSleep, .slept, .discoveryFailed 0, .beginSleep, .slept,
    .discovered [()], .beginAttempt]

/-- The control stream is accepted at the second and registered some time later; a minute after that
the edge closes the connection. -/
def minute (waiting noting : List H2Label) : List H2Label :=
  ([.connected, .awaitRegistered, .serve .select, .serve (.elapse 1000000000),
    .serve .acceptControl, .serve (.control .respond), .serve .select] : List H2Label) ++ waiting ++
  ([.serve (.elapse 500000000), .serve (.control .registered)] : List H2Label) ++ noting ++
  ([.serve (.control .announce), .serve (.control .park), .serve .registrationRead, .serve .select,
    .serve (.elapse 60000000000), .serve .connectionClosed, .serveJoined] : List H2Label)

def closed : Except Error Unit := .error (.h2 "edge closed the connection")

/-- Registered half a second later. -/
def heardAttempt : List (Label h2Attempts) :=
  twoFailures ++ (minute [] [.registered]).map fun label => .attemptStep (.h2 label)

/-- Registered four seconds and a half later, when `run_h2` has waited five for it. -/
def unheardAttempt : List (Label h2Attempts) :=
  twoFailures ++ (minute [.serve (.elapse 4000000000), .registeredElapsed] []).map
    fun label => .attemptStep (.h2 label)

theorem throughout_reconnectSound_heard :
    let ls : List (Label h2Attempts) :=
      heardAttempt ++ [.attempted ⟨closed, some 60000000000, false⟩, .endRound 1500000000]
    (∃ w, run (tallied h2Options Run.isHealthy) (Run.init h2Options, Tally.start) ls = some w) ∧
      Throughout (tallied h2Options Run.isHealthy) (ReconnectSound h2Options fun _ _ => [])
        (Run.init h2Options, Tally.start) ls := by
  intro ls
  refine ⟨Option.isSome_iff_exists.mp (by decide +kernel), ?_⟩
  apply throughout_reconnectSound
  have hnoted : (run (tallied h2Options Run.isHealthy) (Run.init h2Options, Tally.start)
      heardAttempt).map (fun w => w.1.isNoted) = some true := by decide +kernel
  obtain ⟨w, hrun, hnoted⟩ := Option.map_eq_some_iff.mp hnoted
  refine (always_append hrun).mpr ⟨always_of_forall_mem ?_ _, ?_⟩
  · intro l hl w
    cases l with
    | attempted outcome => simp [heardAttempt, twoFailures, minute] at hl
    | _ => exact trivial
  · exact ⟨fun _ => .inr ⟨hnoted, rfl⟩, fun _ _ => ⟨trivial, fun _ _ => trivial⟩⟩

/-- The third round ends with a delay of seven seconds, where two are the limit. -/
theorem not_throughout_reconnectSound_unheard :
    let ls : List (Label h2Attempts) :=
      unheardAttempt ++ [.attempted ⟨closed, none, false⟩, .endRound 7000000000]
    (∃ w, run (tallied h2Options Run.isHealthy) (Run.init h2Options, Tally.start) ls = some w) ∧
      ¬ Throughout (tallied h2Options Run.isHealthy) (ReconnectSound h2Options fun _ _ => [])
        (Run.init h2Options, Tally.start) ls := by
  intro ls
  have hlast : (run (tallied h2Options Run.isHealthy) (Run.init h2Options, Tally.start) ls).map
      (fun w => (w.1.phase.delay?, w.2.rounds)) = some (some 7000000000, 1) := by decide +kernel
  obtain ⟨w, hrun, hw⟩ := Option.map_eq_some_iff.mp hlast
  obtain ⟨hdelay, hrounds⟩ := Prod.mk.inj hw
  refine ⟨⟨w, hrun⟩, fun hsound => ?_⟩
  have hlt := (hsound ls [] w (List.append_nil _).symm hrun).delay_lt (by decide) _ hdelay
  rw [hrounds] at hlt
  exact absurd hlt (by decide)

end Libcfd.Edge
