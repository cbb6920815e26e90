import Libcfd.Edge.Connector.Outcome

/-!
# Falling back from QUIC to HTTP/2

With `Transport::Auto` the transport of a round is chosen from the failure counter alone, and the
counter changes at the end of a QUIC round alone. So the counter is a function of the rounds that
have ended, `failuresAfter`, and its closed form says for how many rounds QUIC is used.
-/

namespace Libcfd.Edge

open Libcfd.Machine

variable {Address : Type} {A : AttemptModel Address}

/-! ## The failure counter as a function of the rounds -/

/-- The attempt failed, not as a duplicate connection, and its QUIC connection had timed out. -/
def ServeAttempt.timedOut (outcome : ServeAttempt) : Bool :=
  match outcome.result with
  | .ok () => false
  | .error (.duplicateConnection _) => false
  | .error _ => outcome.quicTimedOut

/-- A round, as the outcomes of its attempts. -/
abbrev Round : Type := List ServeAttempt

def Round.isBroken (round : Round) : Bool := round.any ServeAttempt.timedOut

/-- The failure counter of `run` with `Transport::Auto` after the rounds. -/
def failuresAfter (m : Nat) (rounds : List Round) : Nat :=
  if (rounds.take m).any Round.isBroken then m else min rounds.length m

/-- The transport of the round after the rounds. -/
def transportAfter (m : Nat) (rounds : List Round) : Transport :=
  if failuresAfter m rounds ≥ m then .h2 else .quic

/-- The number of QUIC rounds: up to the first broken round among the first `m`, or all `m`. -/
def quicRounds (m : Nat) (rounds : List Round) : Nat :=
  match (rounds.take m).findIdx? Round.isBroken with
  | some i => i + 1
  | none => m

theorem quicRounds_le (m : Nat) (rounds : List Round) : quicRounds m rounds ≤ m := by
  unfold quicRounds
  split
  · next i hi =>
      obtain ⟨hlt, _⟩ := List.findIdx?_eq_some_iff_getElem.mp hi
      rw [List.length_take] at hlt
      omega
  · exact Nat.le_refl m

/-- Among the first `m` rounds the counter is still below `m` as long as none was broken. -/
theorem failuresAfter_of_length_lt {m : Nat} {rounds : List Round} (h : rounds.length < m) :
    failuresAfter m rounds = if rounds.any Round.isBroken then m else rounds.length := by
  rw [failuresAfter, List.take_of_length_le (Nat.le_of_lt h), Nat.min_eq_left (Nat.le_of_lt h)]

theorem failuresAfter_of_le_length {m : Nat} {rounds : List Round} (h : m ≤ rounds.length) :
    failuresAfter m rounds = m := by
  rw [failuresAfter, Nat.min_eq_right h, ite_self]

/-- One more round changes the counter as `run` changes it. -/
theorem failuresAfter_append {opts : EdgeOptions} (rounds : List Round) (round : Round) :
    failuresAfter opts.maximumQuicFailures (rounds ++ [round]) =
      countQuicFailure opts (transportAfter opts.maximumQuicFailures rounds) round.isBroken
        (failuresAfter opts.maximumQuicFailures rounds) := by
  have hm : opts.maximumQuicFailures.val ≤ 255 := by omega
  rcases Nat.lt_or_ge rounds.length opts.maximumQuicFailures with hlt | hge
  · rw [transportAfter, failuresAfter_of_length_lt hlt]
    by_cases hbroken : rounds.any Round.isBroken = true
    · -- a broken round has set the counter to the maximum
      have hany : ((rounds ++ [round]).take opts.maximumQuicFailures).any Round.isBroken = true := by
        rw [List.take_of_length_le (by simpa using Nat.succ_le_of_lt hlt)]
        simp [hbroken]
      rw [failuresAfter, if_pos hany, if_pos hbroken, if_pos (Nat.le_refl _)]
      rfl
    · have htake : (rounds ++ [round]).take opts.maximumQuicFailures = rounds ++ [round] :=
        List.take_of_length_le (by simpa using Nat.succ_le_of_lt hlt)
      have hany : (rounds ++ [round]).any Round.isBroken = round.isBroken := by
        rw [List.any_append, Bool.eq_false_iff.mpr hbroken]
        simp
      rw [failuresAfter, htake, hany, if_neg hbroken, if_neg (Nat.not_le.mpr hlt)]
      simp only [countQuicFailure, if_true, List.length_append, List.length_singleton]
      split <;> omega
  · have hmore : opts.maximumQuicFailures.val ≤ (rounds ++ [round]).length := by
      rw [List.length_append]
      omega
    rw [transportAfter, failuresAfter_of_le_length hge, failuresAfter_of_le_length hmore,
      if_pos (Nat.le_refl _)]
    rfl

/-- The flag matters to QUIC rounds only. -/
theorem countQuicFailure_congr {opts : EdgeOptions} {transport : Transport} {broken broken' : Bool}
    {quicFailures : Nat} (h : transport = .quic → broken = broken') :
    countQuicFailure opts transport broken quicFailures =
      countQuicFailure opts transport broken' quicFailures := by
  by_cases hquic : transport = .quic
  · rw [h hquic]
  · simp [countQuicFailure, hquic]

theorem countQuicFailure_le {opts : EdgeOptions} {transport : Transport} {quicBroken : Bool}
    {quicFailures : Nat} (h : quicFailures ≤ 255) :
    countQuicFailure opts transport quicBroken quicFailures ≤ 255 := by
  have hm : opts.maximumQuicFailures.val ≤ 255 := by omega
  unfold countQuicFailure
  split
  · split <;> omega
  · exact h

/-- The transport of a round is QUIC up to the number of QUIC rounds. -/
theorem transportAfter_take {m : Nat} (rounds : List Round) {i : Nat} (hi : i < rounds.length) :
    transportAfter m (rounds.take i) = if i < quicRounds m rounds then .quic else .h2 := by
  have hlength : (rounds.take i).length = i := by
    rw [List.length_take]
    omega
  rw [transportAfter, quicRounds]
  rcases Nat.lt_or_ge i m with hlt | hge
  · rw [failuresAfter_of_length_lt (by omega), hlength]
    cases hfirst : (rounds.take m).findIdx? Round.isBroken with
    | none =>
        have hnone : (rounds.take i).any Round.isBroken = false := by
          rw [List.any_eq_false]
          intro round hround
          have hmem : round ∈ rounds.take m := (List.take_prefix_take_left (Nat.le_of_lt hlt)).subset hround
          simp [List.findIdx?_eq_none_iff.mp hfirst round hmem]
        simp [hnone, hlt, Nat.not_le.mpr hlt]
    | some j =>
        obtain ⟨hj, hbroken, hbefore⟩ := List.findIdx?_eq_some_iff_getElem.mp hfirst
        rw [List.getElem_take] at hbroken
        have hany : (rounds.take i).any Round.isBroken = true ↔ j < i := by
          rw [List.any_eq_true]
          constructor
          · rintro ⟨round, hround, hp⟩
            obtain ⟨n, hn, rfl⟩ := List.mem_take_iff_getElem.mp hround
            apply Nat.lt_of_not_le
            intro hle
            have hlate := hbefore n (by omega)
            rw [List.getElem_take] at hlate
            exact hlate hp
          · intro hji
            exact ⟨rounds[j], List.mem_take_iff_getElem.mpr ⟨j, by omega, rfl⟩, hbroken⟩
        by_cases hji : j < i
        · simp [hany.mpr hji, Nat.not_lt.mpr hji]
        · have hnot : (rounds.take i).any Round.isBroken = false :=
            Bool.eq_false_iff.mpr (fun h => hji (hany.mp h))
          simp [hnot, Nat.not_le.mpr hlt, show i < j + 1 by omega]
  · rw [failuresAfter_of_le_length (by omega), if_pos (Nat.le_refl m)]
    have hle : quicRounds m rounds ≤ i := Nat.le_trans (quicRounds_le m rounds) hge
    exact (if_neg (Nat.not_lt.mpr hle)).symm

/-- The transports with which the rounds were begun. -/
def begunWith (m : Nat) (rounds : List Round) : List Transport :=
  (List.range rounds.length).map fun i => transportAfter m (rounds.take i)

/-- A round is begun with what the rounds before it call for, whatever becomes of it. -/
theorem begunWith_append (m : Nat) (rounds : List Round) (round : Round) :
    begunWith m (rounds ++ [round]) = begunWith m rounds ++ [transportAfter m rounds] := by
  unfold begunWith
  rw [List.length_append, List.length_singleton, List.range_succ, List.map_append, List.map_singleton,
    List.take_left]
  congr 1
  apply List.map_congr_left
  intro i hi
  rw [List.take_append_of_le_length (Nat.le_of_lt (List.mem_range.mp hi))]

/-! ## The rounds of a run -/

/-- The rounds a step adds to: discovery begins one, an attempt that has ended belongs to the last. -/
def extendRounds (rounds : List Round) : Label A → List Round
  | .discovered _ => rounds ++ [[]]
  | .attempted outcome => rounds.dropLast ++ [rounds.getLastD [] ++ [outcome]]
  | _ => rounds

/-- The rounds that have begun in a run, with the outcomes of their attempts so far. -/
def roundsOf (ls : List (Label A)) : List Round := ls.foldl extendRounds []

@[simp] theorem roundsOf_append (past : List (Label A)) (l : Label A) :
    roundsOf (past ++ [l]) = extendRounds (roundsOf past) l := by
  simp [roundsOf]

/-- The transport of the round that the step begins. -/
def begunTransport (s : Run A) : Label A → Option Transport
  | .discovered _ =>
      match s.phase with
      | .discovering transport => some transport
      | _ => none
  | _ => none

/-! ## What a run keeps -/

section Run

variable {opts : EdgeOptions} {s t : Run A} {l : Label A}

/-- The next round's transport has been selected from the counter. -/
def SelectedTransport (opts : EdgeOptions) (s : Run A) : Prop :=
  ∀ transport, s.phase = .discovering transport →
    transport = selectTransport opts.transport s.quicFailures opts.maximumQuicFailures

theorem phase_afterAttempt_ne_discovering {transport : Transport} {rest : List Address}
    {quicBroken : Bool} {outcome : ServeAttempt} {transport' : Transport} :
    (Run.afterAttempt opts transport rest quicBroken outcome s).phase ≠ .discovering transport' := by
  cases hresult : outcome.result with
  | ok => simp [phase_afterAttempt_ok hresult]
  | error e =>
      rcases phase_afterAttempt opts transport rest quicBroken s hresult with
        ⟨_, hphase⟩ | ⟨_, broken, hphase⟩
      · simp [hphase]
      · simp [hphase]

theorem selectedTransport_step (hinv : SelectedTransport opts s) (h : step opts s l = some t) :
    SelectedTransport opts t := by
  intro transport hp'
  cases steps_of_step h with
  | storeFired | backgroundStep => exact hinv transport hp'
  | notifyWaiters =>
      cases hp : s.phase with
      | discovering transport' =>
          rw [hp] at hp'
          cases hp'
          exact hinv _ hp
      | _ =>
          rw [hp] at hp'
          cases hp'
  | slept hp =>
      cases hp'
      rfl
  | attempted outcome hp => exact absurd hp' phase_afterAttempt_ne_discovering
  | _ => cases hp'

/-- What the phase says of the rounds, when the transport is chosen automatically. -/
def Phase.accounts (m : Nat) (rounds : List Round) (quicFailures : Nat) : Phase A → Prop
  | .discovering transport =>
      quicFailures = failuresAfter m rounds ∧ transport = transportAfter m rounds
  | .stepping transport _ quicBroken | .attempting transport _ quicBroken _ _ =>
      ∃ ended round, rounds = ended ++ [round] ∧ quicFailures = failuresAfter m ended ∧
        transport = transportAfter m ended ∧
        (transport = .quic → quicBroken = round.isBroken)
  | .pausing _ | .sleeping .. => quicFailures = failuresAfter m rounds
  | .returned _ => True

theorem accounts_wake {m : Nat} {rounds : List Round} {quicFailures : Nat} {phase : Phase A}
    (h : phase.accounts m rounds quicFailures) : phase.wake.accounts m rounds quicFailures := by
  cases phase <;> exact h

theorem accounts_afterAttempt {ended : List Round} {round : Round} {transport : Transport}
    {rest : List Address} {quicBroken : Bool} (outcome : ServeAttempt)
    (hcount : s.quicFailures = failuresAfter opts.maximumQuicFailures ended)
    (htransport : transport = transportAfter opts.maximumQuicFailures ended)
    (hbroken : transport = .quic → quicBroken = round.isBroken) :
    (Run.afterAttempt opts transport rest quicBroken outcome s).phase.accounts
      opts.maximumQuicFailures (ended ++ [round ++ [outcome]])
      (Run.afterAttempt opts transport rest quicBroken outcome s).quicFailures := by
  have hround : Round.isBroken (round ++ [outcome]) = (round.isBroken || outcome.timedOut) := by
    simp [Round.isBroken]
  unfold Run.afterAttempt
  split
  · exact trivial
  · next hduplicate =>
      refine ⟨ended, _, rfl, hcount, htransport, fun hquic => ?_⟩
      rw [hround, hbroken hquic]
      simp [ServeAttempt.timedOut, hduplicate]
  · next e hne herror =>
      split
      · exact trivial
      · refine ⟨ended, _, rfl, hcount, htransport, fun hquic => ?_⟩
        have htimed : outcome.timedOut = outcome.quicTimedOut := by
          cases e with
          | duplicateConnection cause => exact absurd rfl (hne cause)
          | _ => simp [ServeAttempt.timedOut, herror]
        simp [hround, hbroken hquic, htimed, hquic]

theorem accounts_step {rounds : List Round} (hauto : opts.transport = .auto)
    (hinv : s.phase.accounts opts.maximumQuicFailures rounds s.quicFailures)
    (h : step opts s l = some t) :
    t.phase.accounts opts.maximumQuicFailures (extendRounds rounds l) t.quicFailures := by
  cases steps_of_step h with
  | storeFired | backgroundStep => exact hinv
  | notifyWaiters => exact accounts_wake hinv
  | discovered edges hp =>
      rw [hp] at hinv
      exact ⟨rounds, [], rfl, hinv.1, hinv.2, fun _ => rfl⟩
  | discoveryFailed draw hp =>
      rw [hp] at hinv
      exact hinv.1
  | beginAttempt hp | attemptStep _ hp | beginSleep hp =>
      rw [hp] at hinv
      exact hinv
  | attempted outcome hp =>
      rw [hp] at hinv
      obtain ⟨ended, round, rfl, hcount, htransport, hbroken⟩ := hinv
      have hextend : extendRounds (A := A) (ended ++ [round]) (.attempted outcome) =
          ended ++ [round ++ [outcome]] := by simp [extendRounds]
      rw [hextend]
      exact accounts_afterAttempt outcome hcount htransport hbroken
  | endRound draw hp =>
      rw [hp] at hinv
      obtain ⟨ended, round, rfl, hcount, htransport, hbroken⟩ := hinv
      show countQuicFailure opts _ _ s.quicFailures = failuresAfter _ (ended ++ [round])
      rw [failuresAfter_append, ← htransport, ← hcount]
      exact countQuicFailure_congr hbroken
  | slept hp =>
      rw [hp] at hinv
      refine ⟨hinv, ?_⟩
      show selectTransport _ s.quicFailures _ = transportAfter _ rounds
      rw [hauto, transportAfter, ← hinv]
      rfl
  | abandoned | stopped => exact trivial

theorem begunWith_step {rounds : List Round} {seen : List Transport}
    (hinv : s.phase.accounts opts.maximumQuicFailures rounds s.quicFailures)
    (hseen : seen = begunWith opts.maximumQuicFailures rounds) (h : step opts s l = some t) :
    seen ++ (begunTransport s l).toList =
      begunWith opts.maximumQuicFailures (extendRounds rounds l) := by
  cases steps_of_step h with
  | discovered edges hp =>
      rw [hp] at hinv
      simp [begunTransport, hp, extendRounds, begunWith_append, hseen, hinv.2]
  | attempted outcome hp =>
      rw [hp] at hinv
      obtain ⟨ended, round, rfl, hrest⟩ := hinv
      simp [begunTransport, extendRounds, begunWith_append, hseen]
  | _ => simp [begunTransport, extendRounds, hseen]

@[simp] theorem quicFailures_afterAttempt {transport : Transport} {rest : List Address}
    {quicBroken : Bool} {outcome : ServeAttempt} :
    (Run.afterAttempt opts transport rest quicBroken outcome s).quicFailures = s.quicFailures := by
  unfold Run.afterAttempt
  split
  · rfl
  · rfl
  · split <;> rfl

/-- The counter is a `u8` and stays one. -/
theorem quicFailures_step (hinv : s.quicFailures ≤ 255) (h : step opts s l = some t) :
    t.quicFailures ≤ 255 := by
  cases steps_of_step h with
  | attempted outcome hp => simpa using hinv
  | endRound draw hp => exact countQuicFailure_le hinv
  | _ => exact hinv

/-- The attempts of a round are made with the transport the round was begun with. -/
def Phase.usesLast (seen : List Transport) : Phase A → Prop
  | .stepping transport _ _ | .attempting transport _ _ _ _ => seen.getLast? = some transport
  | _ => True

theorem usesLast_wake {seen : List Transport} {phase : Phase A} (h : phase.usesLast seen) :
    phase.wake.usesLast seen := by
  cases phase <;> exact h

theorem usesLast_step {seen : List Transport} (hinv : s.phase.usesLast seen)
    (h : step opts s l = some t) : t.phase.usesLast (seen ++ (begunTransport s l).toList) := by
  cases steps_of_step h with
  | discovered edges hp => simp [Phase.usesLast, begunTransport, hp]
  | storeFired | backgroundStep => simpa [begunTransport] using hinv
  | notifyWaiters => simpa [begunTransport] using usesLast_wake hinv
  | beginAttempt hp | attemptStep _ hp =>
      rw [hp] at hinv
      simpa [Phase.usesLast, begunTransport] using hinv
  | attempted outcome hp =>
      rw [hp] at hinv
      rw [show begunTransport s (.attempted outcome) = none from rfl, Option.toList_none,
        List.append_nil]
      unfold Run.afterAttempt
      split
      · exact trivial
      · exact hinv
      · split
        · exact trivial
        · exact hinv
  | discoveryFailed | endRound | beginSleep | slept | abandoned | stopped => exact trivial

end Run

theorem selectTransport_of_ne_auto {requested : Transport} (h : requested ≠ .auto)
    (quicFailures maximumQuicFailures : Nat) :
    selectTransport requested quicFailures maximumQuicFailures = requested := by
  cases requested with
  | quic => rfl
  | h2 => rfl
  | auto => exact absurd rfl h

theorem begun_of_requested {opts : EdgeOptions} {seen : List Transport} {s t : Run A} {l : Label A}
    (hrequested : opts.transport ≠ .auto) (hselected : SelectedTransport opts s)
    (hseen : ∀ transport ∈ seen, transport = opts.transport) (h : step opts s l = some t) :
    ∀ transport ∈ seen ++ (begunTransport s l).toList, transport = opts.transport := by
  cases steps_of_step h with
  | discovered edges hp =>
      intro transport hmem
      rcases List.mem_append.mp hmem with hold | hnew
      · exact hseen transport hold
      · rw [← selectTransport_of_ne_auto hrequested s.quicFailures opts.maximumQuicFailures]
        simp only [begunTransport, hp, Option.toList_some, List.mem_singleton] at hnew
        rw [hnew]
        exact hselected _ hp
  | _ => simpa [begunTransport] using hseen

/-- A requested transport is the transport of every round. -/
theorem transports_of_requested {opts : EdgeOptions} {ls : List (Label A)} {s : Run A}
    (hrequested : opts.transport ≠ .auto) (hrun : run (step opts) (Run.init opts) ls = some s) :
    ∀ transport ∈ observe (step opts) begunTransport (Run.init opts) ls,
      transport = opts.transport := by
  have hinit : SelectedTransport opts (Run.init (A := A) opts) ∧
      ∀ transport ∈ ([] : List Transport), transport = opts.transport := by
    refine ⟨?_, by simp⟩
    intro transport hp
    cases hp
    rfl
  have hinv := run_observe_invariant (f := begunTransport)
    (fun seen s => SelectedTransport opts s ∧ ∀ transport ∈ seen, transport = opts.transport)
    (fun seen s l t hinv _ h => ⟨selectedTransport_step hinv.1 h,
      begun_of_requested hrequested hinv.1 hinv.2 h⟩) hinit hrun
    (always_of_forall (fun _ _ => trivial) _ ls)
  exact hinv.2

/-- With `Transport::Auto` each round is begun with what the rounds before it call for. -/
theorem transports_of_auto {opts : EdgeOptions} {ls : List (Label A)} {s : Run A}
    (hauto : opts.transport = .auto) (hrun : run (step opts) (Run.init opts) ls = some s) :
    observe (step opts) begunTransport (Run.init opts) ls =
      begunWith opts.maximumQuicFailures (roundsOf ls) := by
  have hinit : (Run.init (A := A) opts).phase.accounts opts.maximumQuicFailures (roundsOf (A := A) [])
        (Run.init (A := A) opts).quicFailures ∧
      ([] : List Transport) = begunWith opts.maximumQuicFailures (roundsOf (A := A) []) := by
    refine ⟨⟨by simp [roundsOf, failuresAfter, Run.init, Run.loopHead], ?_⟩, rfl⟩
    show selectTransport _ 0 _ = transportAfter _ []
    simp [hauto, selectTransport, transportAfter, failuresAfter]
  have hinv := run_observe_induction (f := begunTransport)
    (fun seen past s => s.phase.accounts opts.maximumQuicFailures (roundsOf past) s.quicFailures ∧
      seen = begunWith opts.maximumQuicFailures (roundsOf past))
    (fun seen past s l t hinv _ h => ?_) hinit hrun (always_of_forall (fun _ _ => trivial) _ ls)
  · exact hinv.2
  · rw [roundsOf_append]
    exact ⟨accounts_step hauto hinv.1 h, begunWith_step hinv.1 hinv.2 h⟩

/-- The attempts of a round are made with the transport it was begun with. -/
theorem getLast_begun_of_tried {opts : EdgeOptions} {ls : List (Label A)} {s : Run A}
    {transport : Transport} {address : Address}
    (hrun : run (step opts) (Run.init opts) ls = some s)
    (htried : tried s .beginAttempt = some (transport, address)) :
    (observe (step opts) begunTransport (Run.init opts) ls).getLast? = some transport := by
  have hinv := run_observe_invariant (f := begunTransport) (fun seen s => s.phase.usesLast seen)
    (fun _ _ _ _ hinv _ h => usesLast_step hinv h) (show (Run.init opts).phase.usesLast [] from trivial)
    hrun (always_of_forall (fun _ _ => trivial) _ ls)
  simp only [tried] at htried
  split at htried
  · next hp =>
      cases htried
      rw [hp] at hinv
      exact hinv
  · cases htried

/-- **The transports of the rounds.** In every run: a requested transport is the transport of every
round; with `Transport::Auto` the rounds use QUIC up to the first broken round among the first
`maximum_quic_failures`, or for all of these, and HTTP/2 ever after. The attempts of a round use
the transport it was begun with, and the counter stays a `u8`. -/
theorem run_transports {opts : EdgeOptions} {ls : List (Label A)} {s : Run A}
    (hrun : run (step opts) (Run.init opts) ls = some s) :
    (opts.transport ≠ .auto → ∀ transport ∈ observe (step opts) begunTransport (Run.init opts) ls,
      transport = opts.transport) ∧
    (opts.transport = .auto →
      observe (step opts) begunTransport (Run.init opts) ls =
        (List.range (roundsOf ls).length).map fun i =>
          if i < quicRounds opts.maximumQuicFailures (roundsOf ls) then .quic else .h2) ∧
    quicRounds opts.maximumQuicFailures (roundsOf ls) ≤ opts.maximumQuicFailures ∧
    (∀ before after t transport address, ls = before ++ .beginAttempt :: after →
      run (step opts) (Run.init opts) before = some t →
      tried t .beginAttempt = some (transport, address) →
      (observe (step opts) begunTransport (Run.init opts) before).getLast? = some transport) ∧
    s.quicFailures ≤ 255 := by
  refine ⟨fun hrequested => transports_of_requested hrequested hrun, fun hauto => ?_,
    quicRounds_le _ _, fun before after t transport address _ hbefore htried => ?_, ?_⟩
  · rw [transports_of_auto hauto hrun]
    apply List.map_congr_left
    intro i hi
    exact transportAfter_take (roundsOf ls) (List.mem_range.mp hi)
  · exact getLast_begun_of_tried hbefore htried
  · exact run_invariant (fun s => s.quicFailures ≤ 255) (fun _ _ _ hs h => quicFailures_step hs h)
      (Nat.zero_le 255) hrun

/-- Every attempt ends with the idle timeout of its connection. -/
def idlingEdges : AttemptModel Unit where
  Future := Unit
  Label := Empty
  start := fun _ _ _ => ()
  wake := id
  step := fun _ _ label => label.elim
  finished := fun _ outcome => outcome.quicTimedOut
  abandon := id

/-- One idle timeout is enough to fall back, whatever `maximum_quic_failures` is left, and the
failed discovery in between changes nothing. -/
theorem run_transports_idle :
    let ls : List (Label idlingEdges) := [.discovered [()], .beginAttempt,
      .attempted ⟨.error (.quic "idle timeout"), none, true⟩, .endRound 0, .beginSleep, .slept,
      .discoveryFailed 0, .beginSleep, .slept, .discovered [()]]
    ∃ s, run (step defaultOptions) (Run.init defaultOptions) ls = some s ∧
      observe (step defaultOptions) begunTransport (Run.init defaultOptions) ls = [.quic, .h2] := by
  intro ls
  obtain ⟨s, hrun⟩ : ∃ s, run (step defaultOptions) (Run.init defaultOptions) ls = some s :=
    ⟨_, rfl⟩
  have hrounds : quicRounds defaultOptions.maximumQuicFailures (roundsOf ls) = 1 := by decide
  have htransports := (run_transports hrun).2.1 rfl
  rw [hrounds] at htransports
  exact ⟨s, hrun, htransports⟩

end Libcfd.Edge
