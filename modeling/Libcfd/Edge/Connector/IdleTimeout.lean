import Libcfd.Edge.Connector.Fallback

/-!
# Falling back after an idle timeout

The transport is chosen at the head of a round, before the `for` over its edges, and that a QUIC
connection has timed out is counted at the end of the round. So an idle timeout keeps the attempts
that follow from using QUIC if its edge was the last of the round; with edges left the next attempt
is made with QUIC.
-/

namespace Libcfd.Edge

open Libcfd.Machine

variable {Address : Type} {A : AttemptModel Address} {opts : EdgeOptions} {s t : Run A}
  {l : Label A}

/-- `run` returns with the outcome: an `Ok(())` or a permanent failure. -/
def ServeAttempt.returns (outcome : ServeAttempt) : Bool :=
  match outcome.result with
  | .ok () => true
  | .error e => e.isPermanent

/-- The step ends an attempt over QUIC whose connection had timed out. -/
def EndsIdle (s : Run A) : Label A → Prop
  | .attempted outcome =>
      outcome.quicTimedOut = true ∧
        ∃ rest quicBroken shutdown future,
          s.phase = .attempting .quic rest quicBroken shutdown future
  | _ => False

/-- `run` is about to make an attempt over QUIC. -/
def TriesQuic (s : Run A) : Prop := ∃ address, tried s .beginAttempt = some (.quic, address)

/-- An attempt over QUIC that ends with an idle timeout ends the run, or no edge is left to its
round and the failures counted at its end reach the maximum. -/
def ClosesRound (opts : EdgeOptions) (s : Run A) : Label A → Prop
  | .attempted outcome =>
      match s.phase with
      | .attempting .quic rest quicBroken _ _ =>
          outcome.quicTimedOut = true → outcome.returns = true ∨
            rest = [] ∧ opts.maximumQuicFailures.val ≤
              countQuicFailure opts .quic (quicBroken || outcome.timedOut) s.quicFailures
      | _ => True
  | _ => True

/-! ## After the attempt -/

/-- The edges left to the round are tried whatever the attempt came to. -/
theorem phase_afterAttempt_quic (opts : EdgeOptions) (rest : List Address) (quicBroken : Bool)
    (outcome : ServeAttempt) (s : Run A) :
    (Run.afterAttempt opts .quic rest quicBroken outcome s).phase =
      if outcome.returns then .returned outcome.result
      else .stepping .quic rest (quicBroken || outcome.timedOut) := by
  unfold Run.afterAttempt ServeAttempt.returns ServeAttempt.timedOut
  cases hresult : outcome.result with
  | ok => rfl
  | error e =>
      cases e with
      | duplicateConnection cause => simp [Error.isPermanent]
      | registration failure => cases failure <;> simp [Error.isPermanent]
      | quic message => simp [Error.isPermanent]
      | h2 message => simp [Error.isPermanent]
      | other message => simp [Error.isPermanent]

/-- QUIC is behind the run: the counter has reached the maximum, or reaches it at the end of a round
that has no edge left. -/
def Fallen (opts : EdgeOptions) (s : Run A) : Prop :=
  match s.phase with
  | .discovering transport | .attempting transport _ _ _ _ =>
      transport ≠ .quic ∧ opts.maximumQuicFailures.val ≤ s.quicFailures
  | .stepping transport rest quicBroken =>
      (transport = .quic → rest = []) ∧
        opts.maximumQuicFailures.val ≤ countQuicFailure opts transport quicBroken s.quicFailures
  | .pausing _ | .sleeping _ _ => opts.maximumQuicFailures.val ≤ s.quicFailures
  | .returned _ => True

theorem countQuicFailure_of_ne {transport : Transport} (h : transport ≠ .quic)
    (quicBroken : Bool) (quicFailures : Nat) :
    countQuicFailure opts transport quicBroken quicFailures = quicFailures := if_neg h

theorem fallen_afterAttempt {transport : Transport} {rest : List Address} {quicBroken : Bool}
    {outcome : ServeAttempt} (htransport : transport ≠ .quic)
    (hcount : opts.maximumQuicFailures.val ≤ s.quicFailures) :
    Fallen opts (Run.afterAttempt opts transport rest quicBroken outcome s) := by
  have hstepping : ∀ broken, (transport = .quic → rest = []) ∧
      opts.maximumQuicFailures.val ≤ countQuicFailure opts transport broken s.quicFailures :=
    fun broken => ⟨fun h => absurd h htransport, (countQuicFailure_of_ne htransport ..) ▸ hcount⟩
  unfold Run.afterAttempt
  split
  · exact trivial
  · exact hstepping _
  · split
    · exact trivial
    · exact hstepping _

theorem fallen_step (hauto : opts.transport = .auto) (hfallen : Fallen opts s)
    (h : step opts s l = some t) : Fallen opts t := by
  unfold Fallen at hfallen
  cases steps_of_step h with
  | storeFired | backgroundStep => exact hfallen
  | notifyWaiters =>
      unfold Fallen
      cases hp : s.phase <;> rw [hp] at hfallen <;> exact hfallen
  | discovered edges hp =>
      rw [hp] at hfallen
      exact ⟨fun hquic => absurd hquic hfallen.1,
        (countQuicFailure_of_ne hfallen.1 ..) ▸ hfallen.2⟩
  | discoveryFailed draw hp =>
      rw [hp] at hfallen
      exact hfallen.2
  | beginAttempt hp =>
      rw [hp] at hfallen
      obtain ⟨hrest, hcount⟩ := hfallen
      have hne := fun hquic => List.cons_ne_nil _ _ (hrest hquic)
      rw [countQuicFailure_of_ne hne] at hcount
      exact ⟨hne, hcount⟩
  | attemptStep label hp =>
      rw [hp] at hfallen
      exact hfallen
  | attempted outcome hp =>
      rw [hp] at hfallen
      exact fallen_afterAttempt hfallen.1 hfallen.2
  | endRound draw hp =>
      rw [hp] at hfallen
      exact hfallen.2
  | beginSleep hp =>
      rw [hp] at hfallen
      exact hfallen
  | slept hp =>
      rw [hp] at hfallen
      have hselected :
          selectTransport opts.transport s.quicFailures opts.maximumQuicFailures = .h2 := by
        rw [hauto]
        exact if_pos hfallen
      exact ⟨hselected ▸ nofun, hfallen⟩
  | abandoned | stopped => exact trivial

theorem neverQuic_of_fallen (hauto : opts.transport = .auto) (hfallen : Fallen opts s) :
    Never (step opts) TriesQuic s := by
  refine never_of_invariant (fun _ _ _ hs h => fallen_step hauto hs h) ?_ hfallen
  rintro s hs ⟨address, htried⟩
  simp only [tried] at htried
  split at htried
  · next hp =>
      cases htried
      unfold Fallen at hs
      rw [hp] at hs
      exact List.cons_ne_nil _ _ (hs.1 rfl)
  · cases htried

/-! ## With edges left -/

/-- A round that has an edge left uses QUIC again at once. -/
theorem not_neverQuic_of_edge {edge : Address} {rest : List Address} {quicBroken : Bool}
    (hp : s.phase = .stepping .quic (edge :: rest) quicBroken) :
    ¬ Never (step opts) TriesQuic s :=
  fun hnever => hnever [] s rfl ⟨edge, by rw [tried, hp]⟩

/-- Nor does a round that ends below the maximum keep the next from using QUIC. -/
theorem not_neverQuic_of_lt (hauto : opts.transport = .auto) {quicBroken : Bool}
    (hp : s.phase = .stepping .quic [] quicBroken)
    (hcount : countQuicFailure opts .quic quicBroken s.quicFailures < opts.maximumQuicFailures.val)
    (address : Address) : ¬ Never (step opts) TriesQuic s := by
  intro hnever
  have hselected : selectTransport opts.transport
      (countQuicFailure opts .quic quicBroken s.quicFailures) opts.maximumQuicFailures = .quic := by
    rw [hauto]
    exact if_neg (Nat.not_le.mpr hcount)
  obtain ⟨t, hrun, hphase⟩ : ∃ t,
      run (step opts) s [.endRound 0, .beginSleep, .slept, .discovered [address]] = some t ∧
        t.phase = .stepping .quic [address] false := by
    simp [run, step, hp, Run.backOff, Run.loopHead, hselected]
  exact hnever _ t hrun ⟨address, by rw [tried, hphase]⟩

theorem neverQuic_afterAttempt_iff (hauto : opts.transport = .auto) (address : Address)
    (rest : List Address) (quicBroken : Bool) (outcome : ServeAttempt) (s : Run A) :
    Never (step opts) TriesQuic (Run.afterAttempt opts .quic rest quicBroken outcome s) ↔
      outcome.returns = true ∨ rest = [] ∧ opts.maximumQuicFailures.val ≤
        countQuicFailure opts .quic (quicBroken || outcome.timedOut) s.quicFailures := by
  have hphase := phase_afterAttempt_quic opts rest quicBroken outcome s
  by_cases hreturns : outcome.returns = true
  · rw [if_pos hreturns] at hphase
    refine iff_of_true (neverQuic_of_fallen hauto ?_) (.inl hreturns)
    unfold Fallen
    rw [hphase]
    exact trivial
  · rw [if_neg hreturns] at hphase
    constructor
    · intro hnever
      cases rest with
      | cons edge rest => exact absurd hnever (not_neverQuic_of_edge hphase)
      | nil =>
          refine .inr ⟨rfl, Nat.le_of_not_lt fun hlt => ?_⟩
          rw [← @quicFailures_afterAttempt _ A opts s .quic [] quicBroken outcome] at hlt
          exact not_neverQuic_of_lt hauto hphase hlt address hnever
    · intro hcloses
      obtain ⟨hrest, hcount⟩ := hcloses.resolve_left hreturns
      apply neverQuic_of_fallen hauto
      unfold Fallen
      rw [hphase, quicFailures_afterAttempt]
      exact ⟨fun _ => hrest, hcount⟩

/-- An attempt is made with an address. -/
def HasAddress (s : Run A) : Prop :=
  match s.phase with
  | .attempting .. => Nonempty Address
  | _ => True

theorem hasAddress_afterAttempt (transport : Transport) (rest : List Address) (quicBroken : Bool)
    (outcome : ServeAttempt) :
    HasAddress (Run.afterAttempt opts transport rest quicBroken outcome s) := by
  unfold Run.afterAttempt
  split
  · exact trivial
  · exact trivial
  · split <;> exact trivial

theorem hasAddress_step (hinv : HasAddress s) (h : step opts s l = some t) : HasAddress t := by
  unfold HasAddress at hinv
  cases steps_of_step h with
  | storeFired | backgroundStep => exact hinv
  | notifyWaiters =>
      unfold HasAddress
      cases hp : s.phase <;> rw [hp] at hinv <;> exact hinv
  | @beginAttempt transport edge rest quicBroken hp => exact ⟨edge⟩
  | attemptStep label hp =>
      rw [hp] at hinv
      exact hinv
  | attempted outcome hp => exact hasAddress_afterAttempt ..
  | discovered | discoveryFailed | endRound | beginSleep | slept | abandoned | stopped =>
      exact trivial

/-- **An idle timeout rules out QUIC if and only if it closes the round.** -/
theorem neverQuic_iff (hauto : opts.transport = .auto) {past : List (Label A)}
    (hrun : run (step opts) (Run.init opts) past = some s) (hidle : EndsIdle s l)
    (h : step opts s l = some t) : Never (step opts) TriesQuic t ↔ ClosesRound opts s l := by
  have hinv := run_invariant HasAddress (fun _ _ _ hs h => hasAddress_step hs h)
    (show HasAddress (Run.init opts) from trivial) hrun
  cases steps_of_step h with
  | @attempted transport rest quicBroken shutdown future outcome hp hfinished =>
      obtain ⟨htimed, rest', quicBroken', shutdown', future', hp'⟩ := hidle
      cases hp.symm.trans hp'
      unfold HasAddress at hinv
      rw [hp] at hinv
      obtain ⟨address⟩ := hinv
      rw [neverQuic_afterAttempt_iff hauto address]
      unfold ClosesRound
      rw [hp]
      exact ⟨fun h _ => h, fun h => h htimed⟩
  | _ => exact hidle.elim

/-- **The fallback is immediate if and only if an idle timeout closes its round**: in every run
whose idle timeouts do, no attempt after one of them uses QUIC; and wherever a run reaches one that
does not, it may go on with QUIC. -/
theorem neverAfter_idle_iff (hauto : opts.transport = .auto) :
    (∀ ls t, run (step opts) (Run.init (A := A) opts) ls = some t →
      Always (step opts) (ClosesRound opts) (Run.init opts) ls →
      NeverAfter (step opts) EndsIdle TriesQuic (Run.init opts) ls) ∧
    ∀ past (s : Run A) l t, run (step opts) (Run.init opts) past = some s → EndsIdle s l →
      step opts s l = some t → (Never (step opts) TriesQuic t ↔ ClosesRound opts s l) := by
  refine ⟨fun ls _ _ hcloses => neverAfter_of_always ?_ hcloses, fun past s l t hrun hidle h =>
    neverQuic_iff hauto hrun hidle h⟩
  intro past s l t hrun hidle hl h
  exact (neverQuic_iff hauto hrun hidle h).mpr hl

/-! ## Two edges -/

/-- Every attempt ends with the idle timeout of its connection, whatever its edge. -/
def idlingAnywhere : AttemptModel Nat where
  Future := Unit
  Label := Empty
  start := fun _ _ _ => ()
  wake := id
  step := fun _ _ label => label.elim
  finished := fun _ outcome => outcome.quicTimedOut
  abandon := id

/-- An attempt whose connection idled away. -/
def idled : ServeAttempt := ⟨.error (.quic "timed out"), none, true⟩

/-- With one edge to a round. -/
theorem neverAfter_idle_one_edge :
    NeverAfter (step defaultOptions) EndsIdle TriesQuic (Run.init defaultOptions)
      ([.discovered [1], .beginAttempt, .attempted idled, .endRound 0, .beginSleep, .slept,
        .discovered [1], .beginAttempt] : List (Label idlingAnywhere)) := by
  refine (@neverAfter_idle_iff Nat idlingAnywhere defaultOptions rfl).1 _ _ rfl ?_
  refine ⟨trivial, ?_⟩
  rintro _ ⟨⟩
  refine ⟨trivial, ?_⟩
  rintro _ ⟨⟩
  refine ⟨fun _ => .inr ⟨rfl, by decide⟩, fun t _ => ?_⟩
  -- no other attempt ends
  refine always_of_forall_mem (fun l hl u => ?_) t
  cases l with
  | attempted outcome => simp at hl
  | _ => exact trivial

/-- With two edges the second is tried over QUIC after the first has idled away. -/
theorem tries_quic_after_idle :
    let ls : List (Label idlingAnywhere) :=
      [.discovered [1, 2], .beginAttempt, .attempted idled, .beginAttempt]
    (∃ s, run (step defaultOptions) (Run.init defaultOptions) ls = some s) ∧
      ¬ NeverAfter (step defaultOptions) EndsIdle TriesQuic (Run.init defaultOptions) ls := by
  intro ls
  refine ⟨⟨_, rfl⟩, fun hnever => ?_⟩
  exact hnever [.discovered [1, 2], .beginAttempt] (.attempted idled) [] [.beginAttempt] _ _ rfl
    rfl ⟨rfl, [2], false, _, _, rfl⟩ rfl ⟨2, rfl⟩

end Libcfd.Edge
