import Libcfd.Edge.Connector
import Libcfd.Edge.Discovery.Edges

/-!
# How `EdgeConnector::run` ends, and how it goes on

The loop ends in two ways only: with the permanent failure its last attempt returned, or with
`Ok(())` after the shutdown. Everything else that can happen to it is a setback, after which it goes
on with the next edge of the round or with the next round.
-/

namespace Libcfd.Edge

open Libcfd.Machine
open Discovery (SocketAddr discoverEdges)

variable {Address : Type} {A : AttemptModel Address}

/-! ## The two ends -/

/-- What an attempt and a discovery promise: `Ok(())` is not returned before the shutdown has fired,
and what is discovered has the addresses that `discover_edges` returns. -/
def KeepsPromises {IpAddr : Type} [DecidableEq IpAddr] (addressOf : Address → SocketAddr IpAddr)
    (s : Run A) : Label A → Prop
  | .attempted outcome => outcome.result = .ok () → s.event.isFired = true
  | .discovered edges => ∃ srv lookupHost, discoverEdges srv lookupHost = .ok (edges.map addressOf)
  | _ => True

/-- The error was returned by the last attempt that was made. -/
def FailedLast (past : List (Label A)) (e : Error) : Prop :=
  ∃ before outcome after, past = before ++ .attempted outcome :: after ∧
    outcome.result = .error e ∧ ∀ l ∈ after, l.begins = false

/-- What is known of a run that keeps the promises: a woken `Notified` has been woken by the event,
and `run` has not returned for any other reason. -/
structure Endings (past : List (Label A)) (s : Run A) : Prop where
  stored : s.fireTask ≠ .pending → s.event.isFired = true
  woken : s.phase.isWoken = true → s.event.isFired = true
  succeeded : s.phase = .returned (.ok ()) → s.event.isFired = true
  failed : ∀ e, s.phase = .returned (.error e) → e.isPermanent = true ∧ FailedLast past e

theorem FailedLast.append {past : List (Label A)} {e : Error} {l : Label A} (hl : l.begins = false)
    (h : FailedLast past e) : FailedLast (past ++ [l]) e := by
  obtain ⟨before, outcome, after, rfl, hresult, hafter⟩ := h
  refine ⟨before, outcome, after ++ [l], by simp, hresult, ?_⟩
  intro l' hl'
  rcases List.mem_append.mp hl' with hold | hnew
  · exact hafter l' hold
  · rw [List.mem_singleton.mp hnew]
    exact hl

theorem endings_init (opts : EdgeOptions) : Endings [] (Run.init (A := A) opts) where
  stored h := absurd rfl h
  woken h := by cases h
  succeeded h := by cases h
  failed _ h := by cases h

/-- The attempt's result decides what `run` does: it returns, or it is back at the `for`. -/
theorem phase_afterAttempt (opts : EdgeOptions) (transport : Transport) (rest : List Address)
    (quicBroken : Bool) (s : Run A) {outcome : ServeAttempt} {e : Error}
    (h : outcome.result = .error e) :
    (e.isPermanent = true ∧ (Run.afterAttempt opts transport rest quicBroken outcome s).phase =
        .returned (.error e)) ∨
      (e.isPermanent = false ∧ ∃ broken,
        (Run.afterAttempt opts transport rest quicBroken outcome s).phase =
          .stepping transport rest broken) := by
  unfold Run.afterAttempt
  split
  · next hok => simp [h] at hok
  · next hduplicate =>
      cases h.symm.trans hduplicate
      exact Or.inr ⟨rfl, _, rfl⟩
  · next e' _ herror =>
      cases h.symm.trans herror
      split
      · next hpermanent => exact Or.inl ⟨hpermanent, rfl⟩
      · next hretry => exact Or.inr ⟨by simpa using hretry, _, rfl⟩

@[simp] theorem fireTask_afterAttempt {opts : EdgeOptions} {transport : Transport}
    {rest : List Address} {quicBroken : Bool} {outcome : ServeAttempt} {s : Run A} :
    (Run.afterAttempt opts transport rest quicBroken outcome s).fireTask = s.fireTask := by
  unfold Run.afterAttempt
  split
  · rfl
  · rfl
  · split <;> rfl

@[simp] theorem event_afterAttempt {opts : EdgeOptions} {transport : Transport}
    {rest : List Address} {quicBroken : Bool} {outcome : ServeAttempt} {s : Run A} :
    (Run.afterAttempt opts transport rest quicBroken outcome s).event = s.event := by
  unfold Run.afterAttempt
  split
  · rfl
  · rfl
  · split <;> rfl

@[simp] theorem Phase.returned_wake {phase : Phase A} {result : Except Error Unit} :
    phase.wake = .returned result ↔ phase = .returned result := by
  cases phase <;> simp [Phase.wake]

/-- Nothing is to be shown where `run` neither waits nor has returned. -/
theorem endings_of_running {past : List (Label A)} {s : Run A}
    (hstored : s.fireTask ≠ .pending → s.event.isFired = true) (hwoken : s.phase.isWoken = false)
    (hreturned : s.phase.isReturned = false) : Endings past s where
  stored := hstored
  woken hw := by simp [hwoken] at hw
  succeeded hp := by simp [hp, Phase.isReturned] at hreturned
  failed e hp := by simp [hp, Phase.isReturned] at hreturned

theorem endings_afterAttempt {opts : EdgeOptions} {transport : Transport} {rest : List Address}
    {quicBroken : Bool} {outcome : ServeAttempt} {past : List (Label A)} {s : Run A}
    (hstored : s.fireTask ≠ .pending → s.event.isFired = true)
    (hpromise : outcome.result = .ok () → s.event.isFired = true) :
    Endings (past ++ [.attempted outcome])
      (Run.afterAttempt opts transport rest quicBroken outcome s) := by
  cases hresult : outcome.result with
  | ok =>
      have hfired := hpromise hresult
      have hphase : (Run.afterAttempt opts transport rest quicBroken outcome s).phase =
        .returned (.ok ()) := phase_afterAttempt_ok hresult
      refine ⟨by simpa using hstored, by simp [hfired], by simp [hfired], ?_⟩
      intro e he
      cases hphase.symm.trans he
  | error e =>
      rcases phase_afterAttempt opts transport rest quicBroken s hresult with
        ⟨hpermanent, hphase⟩ | ⟨_, broken, hphase⟩
      · refine ⟨by simpa using hstored, by simp [hphase, Phase.isWoken], by simp [hphase], ?_⟩
        intro e' he'
        cases hphase.symm.trans he'
        exact ⟨hpermanent, past, outcome, [], rfl, hresult, by simp⟩
      · apply endings_of_running
        · simpa using hstored
        · simp [hphase, Phase.isWoken]
        · simp [hphase, Phase.isReturned]

/-- Every step that keeps the promises keeps the endings. -/
theorem endings_step {IpAddr : Type} [DecidableEq IpAddr] {addressOf : Address → SocketAddr IpAddr}
    {opts : EdgeOptions} (past : List (Label A)) (s : Run A) (l : Label A) (t : Run A)
    (hinv : Endings past s) (hpromise : KeepsPromises addressOf s l) (h : step opts s l = some t) :
    Endings (past ++ [l]) t := by
  cases steps_of_step h with
  | storeFired hf =>
      exact ⟨fun _ => rfl, fun _ => rfl, fun _ => rfl,
        fun e he => ⟨(hinv.failed e he).1, (hinv.failed e he).2.append rfl⟩⟩
  | notifyWaiters hf =>
      have hfired : s.event.isFired = true := hinv.stored (by simp [hf])
      refine ⟨fun _ => hfired, fun _ => hfired, fun _ => hfired, fun e he => ?_⟩
      have hreturned := hinv.failed e (Phase.returned_wake.mp he)
      exact ⟨hreturned.1, hreturned.2.append rfl⟩
  | discovered _ hp | discoveryFailed _ hp | endRound _ hp | slept hp | beginAttempt hp
  | beginSleep hp => exact endings_of_running hinv.stored rfl rfl
  | attemptStep label hp hstep =>
      refine ⟨hinv.stored, fun hw => hinv.woken ?_, (fun hp' => ?_), fun e hp' => ?_⟩
      · simpa [hp, Phase.isWoken] using hw
      · cases hp'
      · cases hp'
  | attempted outcome hp hfinished => exact endings_afterAttempt hinv.stored hpromise
  | abandoned hp =>
      have hfired : s.event.isFired = true :=
        hinv.woken (by simp [hp, Phase.isWoken, Notified.isReady])
      exact ⟨fun _ => hfired, fun _ => hfired, fun _ => hfired, by intro e hp'; cases hp'⟩
  | stopped hp =>
      have hfired : s.event.isFired = true :=
        hinv.woken (by simp [hp, Phase.isWoken, Notified.isReady])
      exact ⟨fun _ => hfired, fun _ => hfired, fun _ => hfired, by intro e hp'; cases hp'⟩
  | backgroundStep index label hb hstep =>
      exact ⟨hinv.stored, hinv.woken, hinv.succeeded,
        fun e he => ⟨(hinv.failed e he).1, (hinv.failed e he).2.append rfl⟩⟩

theorem returned_step {opts : EdgeOptions} {result : Except Error Unit} {s t : Run A} {l : Label A}
    (hp : s.phase = .returned result) (h : step opts s l = some t) :
    t.phase = .returned result ∧ l.begins = false := by
  cases steps_of_step h with
  | storeFired | backgroundStep => exact ⟨hp, rfl⟩
  | notifyWaiters => exact ⟨Phase.returned_wake.mpr hp, rfl⟩
  | discovered _ hp' | discoveryFailed _ hp' | beginAttempt hp' | attemptStep _ hp'
  | attempted _ hp' | endRound _ hp' | beginSleep hp' | slept hp' | abandoned hp' | stopped hp' =>
      cases hp.symm.trans hp'

/-- Once it has returned `run` begins nothing any more. -/
theorem returned_run {opts : EdgeOptions} {result : Except Error Unit} {s t : Run A}
    {ls : List (Label A)} (hp : s.phase = .returned result)
    (h : run (step opts) s ls = some t) :
    t.phase = .returned result ∧ ∀ l ∈ ls, l.begins = false := by
  induction ls generalizing s with
  | nil =>
      cases h
      exact ⟨hp, by simp⟩
  | cons l ls ih =>
      obtain ⟨v, hv, hrest⟩ := run_cons_eq_some.mp h
      obtain ⟨hpv, hl⟩ := returned_step hp hv
      obtain ⟨hpt, hls⟩ := ih hpv hrest
      exact ⟨hpt, List.forall_mem_cons.mpr ⟨hl, hls⟩⟩

/-! ## Setbacks -/

/-- An attempt that failed and may be repeated, a duplicate connection among them, or a discovery
that failed. -/
def Label.isSetback : Label A → Prop
  | .attempted outcome => ∃ e, outcome.result = .error e ∧ e.isPermanent = false
  | .discoveryFailed _ => True
  | _ => False

/-- The next edge is tried, or the next round begins. -/
def Label.goesOn : Label A → Bool
  | .beginAttempt | .slept => true
  | _ => false

/-- `run` has had its setback in `past` and has the edges `rest` of the round left, or none, and no
shutdown is about to reach it. -/
def Phase.isBetween (rest : List Address) : Phase A → Prop
  | .stepping _ rest' _ => rest' = rest
  | .pausing _ => rest = []
  | .sleeping _ shutdown => rest = [] ∧ shutdown = .waiting
  | _ => False

/-- What comes next is the first edge of `rest` or, when there is none, another round. -/
def Phase.isNext (rest : List Address) (attempt : Nat) : Phase A → Prop
  | .attempting transport rest' _ _ future =>
      ∃ edge, rest = edge :: rest' ∧ future = A.start transport edge attempt
  | .discovering _ => rest = []
  | _ => False

/-- After a setback `run` neither returns nor waits for anything but its backoff: until it goes on
it stays between the setback and what comes next, what comes next can be reached at any time, and
it is the only thing `run` can go on with. -/
structure LeadsOn (opts : EdgeOptions) (rest : List Address) (t : Run A) : Prop where
  stays : ∀ more u, run (step opts) t more = some u → .notifyWaiters ∉ more →
    (∀ l ∈ more, l.goesOn = false) → u.phase.isBetween rest
  arrives : ∀ more u, run (step opts) t more = some u → .notifyWaiters ∉ more →
    (∀ l ∈ more, l.goesOn = false) →
    ∃ path v, run (step opts) u path = some v ∧ v.phase.isNext rest v.attempt
  goesOn : ∀ more u l v, run (step opts) t more = some u → .notifyWaiters ∉ more →
    (∀ l ∈ more, l.goesOn = false) → step opts u l = some v → l.goesOn = true →
    v.phase.isNext rest v.attempt

theorem isBetween_step {opts : EdgeOptions} {rest : List Address} {s t : Run A} {l : Label A}
    (hbetween : s.phase.isBetween rest) (hl : l ≠ .notifyWaiters) (hgoes : l.goesOn = false)
    (h : step opts s l = some t) : t.phase.isBetween rest := by
  cases steps_of_step h with
  | storeFired | backgroundStep => exact hbetween
  | notifyWaiters => exact absurd rfl hl
  | beginAttempt | slept => cases hgoes
  | endRound draw hp =>
      rw [hp] at hbetween
      exact hbetween.symm
  | beginSleep hp =>
      rw [hp] at hbetween
      exact ⟨hbetween, rfl⟩
  | stopped hp =>
      rw [hp] at hbetween
      cases hbetween.2
  | discovered _ hp | discoveryFailed _ hp | attemptStep _ hp | attempted _ hp | abandoned hp =>
      rw [hp] at hbetween
      exact hbetween.elim

theorem isBetween_run {opts : EdgeOptions} {rest : List Address} {s t : Run A}
    {ls : List (Label A)} (hbetween : s.phase.isBetween rest) (h : run (step opts) s ls = some t)
    (hls : .notifyWaiters ∉ ls) (hgoes : ∀ l ∈ ls, l.goesOn = false) : t.phase.isBetween rest := by
  induction ls generalizing s with
  | nil =>
      cases h
      exact hbetween
  | cons l ls ih =>
      obtain ⟨v, hv, hrest⟩ := run_cons_eq_some.mp h
      obtain ⟨hl, hls'⟩ := not_or.mp (fun h' => hls (List.mem_cons.mpr h'))
      obtain ⟨hgoesl, hgoes'⟩ := List.forall_mem_cons.mp hgoes
      exact ih (isBetween_step hbetween (Ne.symm hl) hgoesl hv) hrest hls' hgoes'

theorem isNext_of_goesOn {opts : EdgeOptions} {rest : List Address} {s t : Run A} {l : Label A}
    (hbetween : s.phase.isBetween rest) (hgoes : l.goesOn = true) (h : step opts s l = some t) :
    t.phase.isNext rest t.attempt := by
  cases steps_of_step h with
  | beginAttempt hp =>
      rw [hp] at hbetween
      exact ⟨_, hbetween.symm, rfl⟩
  | slept hp =>
      rw [hp] at hbetween
      exact hbetween.1
  | _ => cases hgoes

theorem exists_next_of_sleeping {opts : EdgeOptions} {s : Run A} {delay : Nat}
    {shutdown : Notified} (hp : s.phase = .sleeping delay shutdown) :
    ∃ path t, run (step opts) s path = some t ∧ t.phase.isNext [] t.attempt :=
  ⟨[.slept], s.loopHead opts, by simp [step, hp], rfl⟩

theorem exists_next_of_pausing {opts : EdgeOptions} {s : Run A} {delay : Nat}
    (hp : s.phase = .pausing delay) :
    ∃ path t, run (step opts) s path = some t ∧ t.phase.isNext [] t.attempt := by
  have hstep : step opts s .beginSleep =
      some { s with phase := .sleeping delay s.event.notified } := by simp [step, hp]
  obtain ⟨path, t, hpath, ht⟩ := exists_next_of_sleeping
    (s := { s with phase := .sleeping delay s.event.notified }) rfl
  exact ⟨.beginSleep :: path, t, run_cons_eq_some.mpr ⟨_, hstep, hpath⟩, ht⟩

/-- What comes next can always be reached. -/
theorem exists_next {opts : EdgeOptions} {rest : List Address} {s : Run A}
    (hbetween : s.phase.isBetween rest) :
    ∃ path t, run (step opts) s path = some t ∧ t.phase.isNext rest t.attempt := by
  cases hp : s.phase with
  | stepping transport rest' quicBroken =>
      rw [hp] at hbetween
      cases hbetween
      cases rest with
      | cons edge rest =>
          obtain ⟨t, hstep, hnext⟩ : ∃ t, step opts s .beginAttempt = some t ∧
              t.phase.isNext (edge :: rest) t.attempt := by
            refine ⟨_, by rw [step, hp], ?_⟩
            exact ⟨edge, rfl, rfl⟩
          exact ⟨[.beginAttempt], t, run_cons_eq_some.mpr ⟨t, hstep, rfl⟩, hnext⟩
      | nil =>
          obtain ⟨t, hstep, delay, hpausing⟩ : ∃ t, step opts s (.endRound 0) = some t ∧
              ∃ delay, t.phase = .pausing delay := ⟨_, by rw [step, hp], _, rfl⟩
          obtain ⟨path, u, hpath, hu⟩ := exists_next_of_pausing hpausing
          exact ⟨.endRound 0 :: path, u, run_cons_eq_some.mpr ⟨t, hstep, hpath⟩, hu⟩
  | pausing delay =>
      rw [hp] at hbetween
      cases hbetween
      exact exists_next_of_pausing hp
  | sleeping delay shutdown =>
      rw [hp] at hbetween
      cases hbetween.1
      exact exists_next_of_sleeping hp
  | discovering | attempting | returned =>
      rw [hp] at hbetween
      exact hbetween.elim

theorem leadsOn_of_isBetween {opts : EdgeOptions} {rest : List Address} {t : Run A}
    (hbetween : t.phase.isBetween rest) : LeadsOn opts rest t where
  stays _ _ hrun hmore hgoes := isBetween_run hbetween hrun hmore hgoes
  arrives _ _ hrun hmore hgoes := exists_next (isBetween_run hbetween hrun hmore hgoes)
  goesOn _ _ _ _ hrun hmore hgoes hstep hl :=
    isNext_of_goesOn (isBetween_run hbetween hrun hmore hgoes) hl hstep

theorem leadsOn_of_setback {opts : EdgeOptions} {s t : Run A} {l : Label A} (hl : l.isSetback)
    (h : step opts s l = some t) :
    ∃ rest, LeadsOn opts rest t ∧ (∀ transport rest' quicBroken shutdown future,
      s.phase = .attempting transport rest' quicBroken shutdown future → rest = rest') := by
  cases steps_of_step h with
  | attempted outcome hp hfinished =>
      obtain ⟨e, hresult, hretry⟩ := hl
      rename_i transport rest quicBroken shutdown future
      refine ⟨rest, leadsOn_of_isBetween ?_, ?_⟩
      · rcases phase_afterAttempt opts transport rest quicBroken
          { s with background := s.background ++ [A.abandon future] } hresult with
          ⟨hpermanent, _⟩ | ⟨_, broken, hphase⟩
        · simp [hretry] at hpermanent
        · rw [hphase]
          exact rfl
      · intro transport' rest' quicBroken' shutdown' future' hp'
        cases hp.symm.trans hp'
        rfl
  | discoveryFailed draw hp =>
      refine ⟨[], leadsOn_of_isBetween rfl, ?_⟩
      intro transport rest quicBroken shutdown future hp'
      cases hp.symm.trans hp'
  | _ => exact hl.elim

/-! ## The tries of a round -/

/-- The edge an attempt is begun for, with its transport. -/
def tried (s : Run A) : Label A → Option (Transport × Address)
  | .beginAttempt =>
      match s.phase with
      | .stepping transport (edge :: _) _ => some (transport, edge)
      | _ => none
  | _ => none

def Label.isDiscovered : Label A → Bool
  | .discovered _ => true
  | _ => false

/-- In a round over `edges` the `for` has come as far as `seen`. Once it has been left there are no
more tries. -/
def Phase.hasTried (transport : Transport) (edges : List Address)
    (seen : List (Transport × Address)) : Phase A → Prop
  | .stepping transport' rest _ | .attempting transport' rest _ _ _ =>
      transport' = transport ∧ seen ++ rest.map (transport, ·) = edges.map (transport, ·)
  | _ => seen <+: edges.map (transport, ·)

section Round

variable {opts : EdgeOptions} {transport : Transport} {edges : List Address}
  {seen : List (Transport × Address)} {s t : Run A}

theorem isPrefix_of_hasTried {phase : Phase A} (h : phase.hasTried transport edges seen) :
    seen <+: edges.map (transport, ·) := by
  cases phase with
  | stepping | attempting => exact ⟨_, h.2⟩
  | _ => exact h

theorem hasTried_wake {phase : Phase A} (h : phase.hasTried transport edges seen) :
    phase.wake.hasTried transport edges seen := by
  cases phase <;> exact h

theorem hasTried_afterAttempt {transport' : Transport} {rest : List Address} {quicBroken : Bool}
    {outcome : ServeAttempt} (h : (Phase.stepping (A := A) transport' rest quicBroken).hasTried
      transport edges seen) :
    (Run.afterAttempt opts transport' rest quicBroken outcome s).phase.hasTried
      transport edges seen := by
  cases hresult : outcome.result with
  | ok =>
      rw [phase_afterAttempt_ok hresult]
      exact isPrefix_of_hasTried h
  | error e =>
      rcases phase_afterAttempt opts transport' rest quicBroken s hresult with
        ⟨_, hphase⟩ | ⟨_, broken, hphase⟩
      · rw [hphase]
        exact isPrefix_of_hasTried h
      · rw [hphase]
        exact h

theorem hasTried_step {l : Label A} (hinv : s.phase.hasTried transport edges seen)
    (hl : l.isDiscovered = false) (h : step opts s l = some t) :
    t.phase.hasTried transport edges (seen ++ (tried s l).toList) := by
  cases steps_of_step h with
  | storeFired | backgroundStep => simpa [tried] using hinv
  | notifyWaiters => simpa [tried] using hasTried_wake hinv
  | discovered => cases hl
  | beginAttempt hp =>
      rw [hp] at hinv
      obtain ⟨rfl, hseen⟩ := hinv
      exact ⟨rfl, by simpa [tried, hp] using hseen⟩
  | attemptStep _ hp =>
      rw [hp] at hinv
      show _ ∧ (seen ++ []) ++ _ = _
      rw [List.append_nil]
      exact hinv
  | attempted outcome hp =>
      rw [hp] at hinv
      show Phase.hasTried transport edges (seen ++ []) _
      rw [List.append_nil]
      exact hasTried_afterAttempt hinv
  | discoveryFailed | endRound | beginSleep | slept | abandoned | stopped =>
      show seen ++ [] <+: _
      rw [List.append_nil]
      exact isPrefix_of_hasTried hinv

theorem hasTried_run {ls : List (Label A)} (hinv : s.phase.hasTried transport edges seen)
    (hrun : run (step opts) s ls = some t) (hls : ∀ l ∈ ls, l.isDiscovered = false) :
    t.phase.hasTried transport edges (seen ++ observe (step opts) tried s ls) := by
  have hC : Always (step opts) (fun _ l => l.isDiscovered = false) s ls :=
    always_of_forall_mem (fun l hl _ => hls l hl) s
  exact run_observe_invariant (fun seen s => s.phase.hasTried transport edges seen)
    (fun _ _ _ _ hinv hl h => hasTried_step hinv hl h) hinv hrun hC

end Round

/-- **How `run` ends and how it goes on.** In every run in which attempts and discovery keep their
promises: `run` returns an error only if it is permanent and the last attempt returned it, and
`Ok(())` only after the shutdown; once it has returned nothing is begun; every other outcome leads
on to the next edge of the round, or to the next round; and the tries of a round are a prefix of its
edges, each once and in order, all with one transport. -/
theorem run_outcome {IpAddr : Type} [DecidableEq IpAddr] {addressOf : Address → SocketAddr IpAddr}
    {opts : EdgeOptions} {ls : List (Label A)} {s : Run A}
    (hrun : run (step opts) (Run.init opts) ls = some s)
    (hpromises : Always (step opts) (KeepsPromises addressOf) (Run.init opts) ls) :
    (∀ e, s.phase = .returned (.error e) → e.isPermanent = true ∧ FailedLast ls e) ∧
    (s.phase = .returned (.ok ()) → s.event.isFired = true) ∧
    (∀ result more t, s.phase = .returned result → run (step opts) s more = some t →
      t.phase = .returned result ∧ ∀ l ∈ more, l.begins = false) ∧
    (∀ l t, step opts s l = some t → l.isSetback → ∃ rest, LeadsOn opts rest t ∧
      ∀ transport rest' quicBroken shutdown future,
        s.phase = .attempting transport rest' quicBroken shutdown future → rest = rest') ∧
    (∀ before edges after t, ls = before ++ .discovered edges :: after →
      (∀ l ∈ after, l.isDiscovered = false) → run (step opts) (Run.init opts) before = some t →
      edges.Nodup ∧ ∃ transport,
        observe (step opts) tried t (.discovered edges :: after) <+: edges.map (transport, ·)) := by
  have hendings : Endings ([] ++ ls) s :=
    run_induction_of_always Endings endings_step (endings_init opts) hrun hpromises
  refine ⟨hendings.failed, hendings.succeeded, ?_, fun l t h hl => leadsOn_of_setback hl h, ?_⟩
  · intro result more t hp hmore
    exact returned_run hp hmore
  · rintro before edges after t rfl hafter hbefore
    obtain ⟨t', ht', hrest⟩ := run_append_eq_some.mp hrun
    cases ht'.symm.trans hbefore
    obtain ⟨u, hu, hround⟩ := run_cons_eq_some.mp hrest
    have hpromise : ∃ srv lookupHost, discoverEdges srv lookupHost = .ok (edges.map addressOf) :=
      ((always_append hbefore).mp hpromises).2.1
    obtain ⟨srv, lookupHost, hdiscovered⟩ := hpromise
    have hnodup := (Discovery.discoverEdges_eq_ok hdiscovered).2.nodup
    refine ⟨List.Nodup.of_map addressOf hnodup, ?_⟩
    cases steps_of_step hu with
    | discovered _ hp =>
        rename_i transport
        refine ⟨transport, ?_⟩
        have hstart : (Phase.stepping (A := A) transport edges false).hasTried transport edges [] :=
          ⟨rfl, rfl⟩
        rw [observe_cons hu]
        exact isPrefix_of_hasTried (hasTried_run hstart hround hafter)

/-- Edge 1 answers that the connection is a duplicate, the others reject the tunnel. -/
def rejectingEdges : AttemptModel Nat where
  Future := Nat
  Label := Empty
  start := fun _ address _ => address
  wake := id
  step := fun _ _ label => label.elim
  finished := fun address outcome =>
    match outcome.result with
    | .error (.duplicateConnection _) => address = 1
    | .error (.registration (.permanent _)) => address ≠ 1
    | _ => false
  abandon := id

/-- The port is the same for all. -/
def edgeAt (address : Nat) : SocketAddr Nat := ⟨address, Discovery.fallbackEdgePort⟩

def failedAttempt (e : Error) : ServeAttempt := ⟨.error e, none, false⟩

/-- The duplicate connection leads on to the second edge, whose rejection ends `run`. -/
theorem run_outcome_rejected :
    let ls : List (Label rejectingEdges) := [.discovered [1, 2], .beginAttempt,
      .attempted (failedAttempt (.duplicateConnection "in use")), .beginAttempt,
      .attempted (failedAttempt (.registration (.permanent "no such tunnel")))]
    ∃ s, run (step defaultOptions) (Run.init defaultOptions) ls = some s ∧
      s.phase = .returned (.error (.registration (.permanent "no such tunnel"))) ∧
      FailedLast ls (.registration (.permanent "no such tunnel")) := by
  intro ls
  obtain ⟨s, hrun, hphase⟩ : ∃ s, run (step defaultOptions) (Run.init defaultOptions) ls = some s ∧
      s.phase = .returned (.error (.registration (.permanent "no such tunnel"))) :=
    ⟨_, rfl, rfl⟩
  have hpromises : Always (step defaultOptions) (KeepsPromises edgeAt)
      (Run.init defaultOptions) ls := by
    refine ⟨⟨.ok [], fun _ _ => .ok [edgeAt 1, edgeAt 2], rfl⟩, fun _ _ => ⟨trivial, ?_⟩⟩
    refine fun _ _ => ⟨?_, fun _ _ => ⟨trivial, fun _ _ => ⟨?_, ?_⟩⟩⟩
    · intro hok
      cases hok
    · intro hok
      cases hok
    · intro _ _
      trivial
  exact ⟨s, hrun, hphase, ((run_outcome hrun hpromises).1 _ hphase).2⟩

end Libcfd.Edge
