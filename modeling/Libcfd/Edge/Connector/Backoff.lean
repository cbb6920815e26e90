import Libcfd.Edge.Connector.IdleTimeout
import Libcfd.Edge.Connector.Runtime
import Libcfd.Edge.Control
import Libcfd.Foundation.History

/-!
# The reconnect delay

The delay is drawn below a limit that doubles with each round, and the counter of rounds starts over
after a round with a connection that had been registered for the grace period. The loop learns that
from `registered_at`. `run_h2` sets it when it hears of the registration, for which it waits
`RPC_TIMEOUT`; `serve` may wait longer. A connection that registers after that is not heard of, and
the counter goes on as if it had never been.
-/

namespace Libcfd.Edge

open Libcfd.Machine

/-! ## One delay -/

/-- What the delay of a base after so many rounds stays below. -/
def delayLimit (base rounds : Nat) : Nat := min (base * 2 ^ min rounds 30) (2 ^ 62)

theorem delayLimit_mono {base rounds rounds' : Nat} (h : rounds ≤ rounds') :
    delayLimit base rounds ≤ delayLimit base rounds' := by
  have hexponent : min rounds 30 ≤ min rounds' 30 := by omega
  have hpow : 2 ^ min rounds 30 ≤ 2 ^ min rounds' 30 := Nat.pow_le_pow_right (by decide) hexponent
  have hmul : base * 2 ^ min rounds 30 ≤ base * 2 ^ min rounds' 30 := Nat.mul_le_mul_left base hpow
  unfold delayLimit
  omega

theorem retryDelay_zero (retries draw : Nat) : retryDelay retries 0 draw = 0 := by
  simp [retryDelay]

theorem retryDelay_lt {base : Nat} (hbase : base ≠ 0) (retries draw : Nat) :
    retryDelay retries base draw < delayLimit base retries := by
  have hpow : 0 < 2 ^ min retries 30 := Nat.two_pow_pos _
  have htruncated : base % 2 ^ 64 * 2 ^ min retries 30 ≤ base * 2 ^ min retries 30 :=
    Nat.mul_le_mul_right _ (Nat.mod_le ..)
  have hpos : 0 < base * 2 ^ min retries 30 := Nat.mul_pos (Nat.pos_of_ne_zero hbase) hpow
  unfold retryDelay delayLimit
  dsimp only
  split
  · omega
  · next hmaximum =>
      have hlt := Nat.mod_lt (draw % 2 ^ 64) (Nat.pos_of_ne_zero hmaximum)
      omega

/-! ## Machine arithmetic -/

/-- `<<` on a `u64`, which panics on 64 and more. -/
def shiftLeft (a n : Nat) : Option Nat := if n < 64 then some (a * 2 ^ n % 2 ^ 64) else none

/-- `%`, which panics on zero. -/
def remainder (a b : Nat) : Option Nat := if b = 0 then none else some (a % b)

def saturatingMul (a b : Nat) : Nat := min (a * b) (2 ^ 64 - 1)

/-- `retry_delay` as it computes on `u64`; `none` is a panic. -/
def checkedRetryDelay (retries base draw : Nat) : Option Nat := do
  let exponent := min retries 30
  let factor ← shiftLeft 1 exponent
  let limit ← shiftLeft 1 62
  let maximumNanos := min (saturatingMul (base % 2 ^ 64) factor) limit
  if maximumNanos = 0 then return 0
  remainder (draw % 2 ^ 64) maximumNanos

/-- Nothing overflows and nothing is divided by zero. -/
theorem checkedRetryDelay_eq (retries base draw : Nat) :
    checkedRetryDelay retries base draw = some (retryDelay retries base draw) := by
  have hexponent : min retries 30 < 64 := by omega
  have hpow : 2 ^ min retries 30 < 2 ^ 64 := Nat.pow_lt_pow_right (by decide) hexponent
  have hfactor : shiftLeft 1 (min retries 30) = some (2 ^ min retries 30) := by
    rw [shiftLeft, if_pos hexponent, Nat.one_mul, Nat.mod_eq_of_lt hpow]
  have hlimit : shiftLeft 1 62 = some (2 ^ 62) := rfl
  simp only [checkedRetryDelay, hfactor, hlimit, Option.bind_eq_bind, Option.bind_some]
  unfold retryDelay saturatingMul
  dsimp only
  split
  · rfl
  · next hmaximum => rw [remainder, if_neg hmaximum]

/-! ## Rounds -/

/-- What has happened in a run: the rounds ended since the start, or since and with the last one that
had a healthy connection; if the round has had one; the counter when the last attempt began. -/
structure Tally where
  rounds : Nat
  healthy : Bool
  started : Nat
  deriving DecidableEq, Repr

namespace Tally

def start : Tally := ⟨0, false, 0⟩

def endRound (tally : Tally) : Tally :=
  { tally with rounds := if tally.healthy then 1 else tally.rounds + 1, healthy := false }

/-- What `attempt` can be at most. -/
def bound (tally : Tally) : Nat := if tally.healthy then 0 else min tally.rounds (2 ^ 32 - 1)

theorem succ_bound_le (tally : Tally) :
    min (tally.bound + 1) (2 ^ 32 - 1) ≤ min tally.endRound.rounds (2 ^ 32 - 1) := by
  unfold bound endRound
  dsimp only
  split <;> omega

end Tally

/-- The counter starts over after the outcome, unless `run` returns with it. -/
def ServeAttempt.resets (gracePeriod : Nat) (outcome : ServeAttempt) : Bool :=
  match outcome.result, outcome.registeredFor with
  | .error (.duplicateConnection _), _ => false
  | _, some elapsed => decide (elapsed ≥ gracePeriod)
  | _, none => false

section Rounds

variable {Address : Type} {A : AttemptModel Address} {opts : EdgeOptions}
  {healthy : Run A → Bool} {s t : Run A} {tally : Tally} {l : Label A}

/-- `healthy` says whether the connection of the attempt that ends is a healthy one. -/
def recordTally (healthy : Run A → Bool) (s : Run A) (l : Label A) (tally : Tally) : Tally :=
  match l with
  | .beginAttempt => { tally with started := s.attempt }
  | .attempted _ => { tally with healthy := tally.healthy || healthy s }
  | .discoveryFailed _ | .endRound _ => tally.endRound
  | _ => tally

/-- `run` with its tally. -/
def tallied (opts : EdgeOptions) (healthy : Run A → Bool) :
    Run A × Tally → Label A → Option (Run A × Tally) :=
  withHistory (step opts) (recordTally healthy)

/-- The end of a healthy connection starts the counter over, or ends the run. -/
def CountsHealthy (opts : EdgeOptions) (healthy : Run A → Bool) (w : Run A × Tally) :
    Label A → Prop
  | .attempted outcome =>
      healthy w.1 = true → outcome.returns = true ∨ outcome.resets opts.gracePeriod = true
  | _ => True

/-- The delay `run` sleeps or is about to sleep. -/
def Phase.delay? : Phase A → Option Nat
  | .pausing delay | .sleeping delay _ => some delay
  | _ => none

/-- The delay after a failed round is below its limit, and the counters are what they would be
without a bound to their type. -/
structure BackoffSound (opts : EdgeOptions) (w : Run A × Tally) : Prop where
  delay_zero : opts.backoff = 0 → ∀ delay, w.1.phase.delay? = some delay → delay = 0
  delay_lt : opts.backoff ≠ 0 → ∀ delay, w.1.phase.delay? = some delay →
    delay < delayLimit opts.backoff (min w.2.rounds (2 ^ 32 - 1))
  attempt_lt : w.1.attempt < 2 ^ 32
  quicFailures_lt : w.1.quicFailures < 256
  arithmetic : ∀ draw, checkedRetryDelay w.1.attempt opts.backoff draw =
    some (retryDelay w.1.attempt opts.backoff draw)

/-- The counter does not run ahead of the rounds, and a delay is drawn for a number of rounds that
has been counted. -/
structure Counted (opts : EdgeOptions) (w : Run A × Tally) : Prop where
  attempt_le : w.1.phase.isReturned = true ∨ w.1.attempt ≤ w.2.bound
  delay_eq : ∀ delay, w.1.phase.delay? = some delay →
    ∃ retries draw, retries ≤ min w.2.rounds (2 ^ 32 - 1) ∧
      delay = retryDelay retries opts.backoff draw
  attempt_lt : w.1.attempt < 2 ^ 32
  quicFailures_le : w.1.quicFailures ≤ 255

theorem Counted.sound {w : Run A × Tally} (h : Counted opts w) : BackoffSound opts w where
  delay_zero hbase delay hdelay := by
    obtain ⟨retries, draw, _, rfl⟩ := h.delay_eq delay hdelay
    rw [hbase, retryDelay_zero]
  delay_lt hbase delay hdelay := by
    obtain ⟨retries, draw, hle, rfl⟩ := h.delay_eq delay hdelay
    exact Nat.lt_of_lt_of_le (retryDelay_lt hbase retries draw) (delayLimit_mono hle)
  attempt_lt := h.attempt_lt
  quicFailures_lt := Nat.lt_succ_of_le h.quicFailures_le
  arithmetic draw := checkedRetryDelay_eq ..

/-! ### One step -/

section AfterAttempt

variable (transport : Transport) (rest : List Address) (quicBroken : Bool) (outcome : ServeAttempt)
  (s : Run A)

theorem attempt_afterAttempt :
    (Run.afterAttempt opts transport rest quicBroken outcome s).attempt =
      if outcome.returns = false ∧ outcome.resets opts.gracePeriod = true then 0
      else s.attempt := by
  unfold Run.afterAttempt ServeAttempt.returns ServeAttempt.resets
  cases hresult : outcome.result with
  | ok => simp
  | error e =>
      cases e with
      | registration failure =>
          cases failure <;> cases outcome.registeredFor <;> simp [Error.isPermanent]
      | duplicateConnection cause => simp
      | _ => cases outcome.registeredFor <;> simp [Error.isPermanent]

theorem isReturned_afterAttempt :
    (Run.afterAttempt opts transport rest quicBroken outcome s).phase.isReturned =
      outcome.returns := by
  unfold Run.afterAttempt ServeAttempt.returns
  cases hresult : outcome.result with
  | ok => rfl
  | error e =>
      cases e with
      | registration failure => cases failure <;> rfl
      | _ => rfl

theorem delay_afterAttempt :
    (Run.afterAttempt opts transport rest quicBroken outcome s).phase.delay? = none := by
  unfold Run.afterAttempt
  split
  · rfl
  · rfl
  · split <;> rfl

end AfterAttempt

theorem delay?_wake (phase : Phase A) : phase.wake.delay? = phase.delay? := by
  cases phase <;> rfl

theorem isReturned_wake (phase : Phase A) : phase.wake.isReturned = phase.isReturned := by
  cases phase <;> rfl

/-- A step that leaves the counters alone. -/
theorem Counted.frame {w : Run A × Tally} (h : Counted opts w)
    (hattempt : t.attempt = w.1.attempt) (hquic : t.quicFailures = w.1.quicFailures)
    (hrounds : tally.rounds = w.2.rounds) (hhealthy : tally.healthy = w.2.healthy)
    (hreturned : w.1.phase.isReturned = true → t.phase.isReturned = true)
    (hdelay : ∀ delay, t.phase.delay? = some delay → w.1.phase.delay? = some delay) :
    Counted opts (t, tally) where
  attempt_le := by
    have hbound : tally.bound = w.2.bound := by
      unfold Tally.bound
      rw [hrounds, hhealthy]
    rcases h.attempt_le with hret | hle
    · exact .inl (hreturned hret)
    · right
      show t.attempt ≤ tally.bound
      rwa [hattempt, hbound]
  delay_eq delay hsome := by
    show ∃ retries draw, retries ≤ min tally.rounds _ ∧ _
    rw [hrounds]
    exact h.delay_eq delay (hdelay delay hsome)
  attempt_lt := hattempt ▸ h.attempt_lt
  quicFailures_le := hquic ▸ h.quicFailures_le

theorem counted_backOff {draw : Nat} (hattempt : s.attempt ≤ tally.bound)
    (hquic : s.quicFailures ≤ 255) : Counted opts (s.backOff opts draw, tally.endRound) := by
  have hle : min (s.attempt + 1) (2 ^ 32 - 1) ≤ min tally.endRound.rounds (2 ^ 32 - 1) := by
    have hbound := tally.succ_bound_le
    omega
  constructor
  · exact .inr hle
  · rintro delay ⟨⟩
    exact ⟨_, draw, hle, rfl⟩
  · show min (s.attempt + 1) (2 ^ 32 - 1) < 2 ^ 32
    omega
  · exact hquic

theorem counted_afterAttempt {transport : Transport} {rest : List Address} {quicBroken : Bool}
    {outcome : ServeAttempt} (hattempt : s.attempt ≤ tally.bound) (hlt : s.attempt < 2 ^ 32)
    (hquic : s.quicFailures ≤ 255) (ended : Bool)
    (hended : ended = true → outcome.returns = true ∨ outcome.resets opts.gracePeriod = true) :
    Counted opts (Run.afterAttempt opts transport rest quicBroken outcome s,
      { tally with healthy := tally.healthy || ended }) := by
  constructor
  · show (Run.afterAttempt opts transport rest quicBroken outcome s).phase.isReturned = true ∨ _
    rw [isReturned_afterAttempt]
    cases hreturns : outcome.returns with
    | true => exact .inl rfl
    | false =>
        right
        show (Run.afterAttempt opts transport rest quicBroken outcome s).attempt ≤ _
        rw [attempt_afterAttempt]
        by_cases hresets : outcome.resets opts.gracePeriod = true
        · rw [if_pos ⟨hreturns, hresets⟩]
          exact Nat.zero_le _
        · have hnot : ended = false := by
            cases ended with
            | false => rfl
            | true =>
                rcases hended rfl with h | h
                · exact absurd h (ne_true_of_eq_false hreturns)
                · exact absurd h hresets
          rw [if_neg (fun h => hresets h.2), hnot, Bool.or_false]
          exact hattempt
  · intro delay hdelay
    rw [delay_afterAttempt] at hdelay
    cases hdelay
  · show (Run.afterAttempt opts transport rest quicBroken outcome s).attempt < _
    rw [attempt_afterAttempt]
    split <;> omega
  · show (Run.afterAttempt opts transport rest quicBroken outcome s).quicFailures ≤ _
    rw [quicFailures_afterAttempt]
    exact hquic

theorem counted_step {w w' : Run A × Tally} (hw : Counted opts w)
    (hC : CountsHealthy opts healthy w l) (h : tallied opts healthy w l = some w') :
    Counted opts w' := by
  obtain ⟨s, tally⟩ := w
  obtain ⟨t, tally'⟩ := w'
  obtain ⟨hstep, hrecord⟩ := withHistory_eq_some.mp h
  dsimp only at hstep hrecord
  subst hrecord
  -- where `run` has not returned the counter is within its bound
  have hle : s.phase.isReturned = false → s.attempt ≤ tally.bound := by
    intro hrunning
    rcases hw.attempt_le with hret | hle
    · exact absurd hret (ne_true_of_eq_false hrunning)
    · exact hle
  cases steps_of_step hstep with
  | storeFired | backgroundStep => exact hw.frame rfl rfl rfl rfl id fun _ => id
  | notifyWaiters =>
      refine hw.frame rfl rfl rfl rfl ?_ ?_
      · intro hret
        rwa [isReturned_wake]
      · intro delay hdelay
        rwa [delay?_wake] at hdelay
  | discovered _ hp | beginAttempt hp | attemptStep _ hp | slept hp =>
      refine hw.frame rfl rfl rfl rfl ?_ ?_
      · simp [hp, Phase.isReturned]
      · simp [Phase.delay?, Run.loopHead]
  | discoveryFailed draw hp =>
      exact counted_backOff (hle (by simp [hp, Phase.isReturned])) hw.quicFailures_le
  | endRound draw hp =>
      apply counted_backOff
      · exact hle (by simp [hp, Phase.isReturned])
      · exact countQuicFailure_le hw.quicFailures_le
  | @attempted _ _ _ _ future outcome hp =>
      have hattempt : s.attempt ≤ tally.bound := hle (by simp [hp, Phase.isReturned])
      exact counted_afterAttempt (s := { s with background := s.background ++ [A.abandon future] })
        hattempt hw.attempt_lt hw.quicFailures_le (healthy s) hC
  | beginSleep hp =>
      refine hw.frame rfl rfl rfl rfl ?_ ?_
      · simp [hp, Phase.isReturned]
      · rintro delay ⟨⟩
        simp [hp, Phase.delay?]
  | abandoned | stopped => exact hw.frame rfl rfl rfl rfl (fun _ => rfl) (by simp [Phase.delay?])

theorem counted_init : Counted opts (Run.init opts, Tally.start) (A := A) where
  attempt_le := .inr (Nat.le_refl _)
  delay_eq := nofun
  attempt_lt := Nat.two_pow_pos 32
  quicFailures_le := Nat.zero_le 255

end Rounds

end Libcfd.Edge
