import Libcfd.Edge.Connector.Wired

/-!
# When a rejected registration is tried again

An edge that rejects a registration can ask for a delay before the next one. `register_on_stream`
returns the delay in its error, and there it stays: of the error `run` only reads whether it is
permanent. It goes on to the next edge of the round at once, and after the last one it waits for as
long as `retry_delay` says. So the delay is kept if the edge was the last of its round and the
backoff that is drawn covers it.
-/

namespace Libcfd.Edge

open Libcfd.Machine Program Libcfd.Rpc

variable {Address : Type} {opts : EdgeOptions} {R : Registrant Address}

/-- Whatever delay the edge has asked for, `run` does the same. -/
theorem afterAttempt_retryAfter {A : AttemptModel Address} (transport : Transport)
    (rest : List Address) (quicBroken : Bool) (cause : String) (retryAfter retryAfter' : Int)
    (registeredFor : Option Nat) (timedOut : Bool) (s : Run A) :
    Run.afterAttempt opts transport rest quicBroken
        ⟨.error (.registration (.retryable cause retryAfter)), registeredFor, timedOut⟩ s =
      Run.afterAttempt opts transport rest quicBroken
        ⟨.error (.registration (.retryable cause retryAfter')), registeredFor, timedOut⟩ s := rfl

/-! ## `run` with a clock -/

/-- `run`, the time, when the timer of its backoff `select!` fires, and what has passed. -/
structure Timed (opts : EdgeOptions) (R : Registrant Address) where
  run : Run (wiredAttempts opts R)
  now : Nat
  wakeAt : Nat
  log : List (Nat × Notice)

inductive TimedLabel (opts : EdgeOptions) (R : Registrant Address) where
  | elapse (nanos : Nat)
  | step (label : Label (wiredAttempts opts R))

def Phase.elapse (nanos : Nat) : Phase (wiredAttempts opts R) → Phase (wiredAttempts opts R)
  | .attempting transport rest quicBroken shutdown future =>
      .attempting transport rest quicBroken shutdown (Wired.elapse nanos future)
  | phase => phase

def Run.elapse (nanos : Nat) (s : Run (wiredAttempts opts R)) : Run (wiredAttempts opts R) :=
  { s with phase := s.phase.elapse nanos, background := s.background.map (Wired.elapse nanos) }

/-- What passes in a step of `run`. -/
def Run.notice? (s : Run (wiredAttempts opts R)) : Label (wiredAttempts opts R) → Option Notice
  | .attemptStep label => s.phase.current.bind fun w => Wired.notice? w label
  | .backgroundStep index label => s.background[index]?.bind fun w => Wired.notice? w label
  | _ => none

/-- What is added to the log. -/
def entries (now : Nat) (notice : Option Notice) : List (Nat × Notice) :=
  notice.toList.map fun notice => (now, notice)

namespace Timed

def init (opts : EdgeOptions) (R : Registrant Address) : Timed opts R := ⟨Run.init opts, 0, 0, []⟩

/-- A timer does not fire early. -/
def isEarly (s : Timed opts R) : Label (wiredAttempts opts R) → Bool
  | .slept => decide (s.now < s.wakeAt)
  | _ => false

def wakesAt (s : Timed opts R) : Label (wiredAttempts opts R) → Nat
  | .beginSleep =>
      match s.run.phase with
      | .pausing delay => s.now + delay
      | _ => s.wakeAt
  | _ => s.wakeAt

def step (s : Timed opts R) : TimedLabel opts R → Option (Timed opts R)
  | .elapse nanos => some { s with run := s.run.elapse nanos, now := s.now + nanos }
  | .step label =>
      if s.isEarly label then none
      else
        (Edge.step opts s.run label).map fun run =>
          { run := run
            now := s.now
            wakeAt := s.wakesAt label
            log := s.log ++ entries s.now (s.run.notice? label) }

end Timed

/-! ## The delays -/

/-- **Every delay is kept**: between a rejection and a registration call after it there is the time
the edge has asked for. -/
def KeepsDelays (log : List (Nat × Notice)) : Prop :=
  log.Pairwise fun x y => ∀ nanos, x.2 = .retryAfter nanos → y.2 = .call → x.1 + nanos ≤ y.1

/-- Every delay is over at that time. -/
def Over (log : List (Nat × Notice)) (time : Nat) : Prop :=
  ∀ x ∈ log, ∀ nanos, x.2 = .retryAfter nanos → x.1 + nanos ≤ time

/-- The edges left to the round. -/
def Run.rest (s : Run (wiredAttempts opts R)) : List Address :=
  match s.phase with
  | .attempting _ rest _ _ _ => rest
  | _ => []

/-- The condition on a step. An attempt that ends while a delay is not over ends the run, or no edge
is left to its round; and the backoff drawn at the end of a round covers what is left of the
delays. -/
def CoversDelays (s : Timed opts R) : TimedLabel opts R → Prop
  | .step (.attempted outcome) =>
      outcome.returns = true ∨ s.run.rest = [] ∨ Over s.log s.now
  | .step (.endRound draw) =>
      Over s.log (s.now + retryDelay (min (s.run.attempt + 1) (2 ^ 32 - 1)) opts.backoff draw)
  | _ => True

section Log

variable {log : List (Nat × Notice)} {now : Nat}

theorem Over.mono {time time' : Nat} (h : Over log time) (hle : time ≤ time') : Over log time' :=
  fun x hx nanos hnanos => Nat.le_trans (h x hx nanos hnanos) hle

theorem keepsDelays_call (h : KeepsDelays log) (hover : Over log now) :
    KeepsDelays (log ++ entries now (some .call)) := by
  refine List.pairwise_append.mpr ⟨h, List.pairwise_singleton .., ?_⟩
  intro x hx y hy nanos hnanos _
  obtain rfl := List.mem_singleton.mp hy
  exact hover x hx nanos hnanos

theorem keepsDelays_retryAfter (h : KeepsDelays log) (nanos : Nat) :
    KeepsDelays (log ++ entries now (some (.retryAfter nanos))) := by
  refine List.pairwise_append.mpr ⟨h, List.pairwise_singleton .., ?_⟩
  intro x hx y hy _ _ hcall
  obtain rfl := List.mem_singleton.mp hy
  cases hcall

theorem append_entries_none : log ++ entries now none = log := List.append_nil log

end Log

/-! ## What an attempt may still send -/

/-- The attempt registers nothing any more, or its call has been sent, or it may send it now. -/
def Wired.Fits (log : List (Nat × Notice)) (now : Nat) (w : Wired) : Prop :=
  w.attempt.isSettled = true ∨ (w.registration.Requests fun op => ¬ SendsRegistration op) ∨
    w.registration.Once SendsRegistration ∧ w.hasAsked = false ∧ Over log now

section Fits

variable {log : List (Nat × Notice)} {now : Nat} {w w' : Wired}

/-- Attempts that differ in their connection only. -/
theorem Wired.Fits.attempt (h : w.Fits log now)
    (hsettled : w.attempt.isSettled = true → w'.attempt.isSettled = true)
    (hregistration : w'.registration = w.registration) (hwritten : w'.written = w.written)
    {time : Nat} (hle : now ≤ time) : w'.Fits log time := by
  rcases h with hover | hsent | ⟨honce, hasked, hover⟩
  · exact .inl (hsettled hover)
  · exact .inr (.inl (hregistration ▸ hsent))
  · refine .inr (.inr ⟨hregistration ▸ honce, ?_, hover.mono hle⟩)
    unfold Wired.hasAsked
    rw [hwritten]
    exact hasked

theorem not_sendsRegistration_iff {message : Message} :
    ¬ SendsRegistration (.write message) ↔ isRegistration message = false :=
  Bool.eq_false_iff.symm

/-- The last thing written is the message. -/
theorem hasAsked_append (w : Wired) (message : Message)
    (registration : Program (wire noEffects) (Except Error (ConnectionDetails × TunnelClient))) :
    Wired.hasAsked
        { w with registration := registration, written := w.written ++ [message] } =
      isRegistration message := by
  show ((w.written ++ [message]).getLast?.any isRegistration) = _
  rw [List.getLast?_concat]
  rfl

/-- **A step of an attempt.** It sends its call when the delays are over, and what it reads after
that makes nobody call too early. -/
theorem fits_step {grace : Nat} {fired : Bool} {l : WiredLabel} (h : w.Fits log now)
    (hlog : KeepsDelays log) (hstep : w.step grace fired l = some w') :
    w'.Fits (log ++ entries now (w.notice? l)) now ∧
      KeepsDelays (log ++ entries now (w.notice? l)) := by
  cases Wired.steps_of_step hstep with
  | attempt label hattempt =>
      obtain ⟨attempt, ha, rfl⟩ := Option.map_eq_some_iff.mp hattempt
      rw [show w.notice? (.attempt label) = none from rfl, append_entries_none]
      refine ⟨h.attempt ?_ ?_ ?_ (Nat.le_refl _), hlog⟩
      · exact fun hsettled => Attempt.isSettled_step hsettled ha
      · rfl
      · rfl
  | @wrote message next hnext hregistering htakes =>
      have hnotice : w.notice? (.wrote (.ok ())) =
          if isRegistration message then some .call else none := by
        simp only [Wired.notice?, hnext]
      rcases h with hsettled | hsent | ⟨honce, _, hover⟩
      · cases (Attempt.not_isSettled_of_takes hregistering htakes).symm.trans hsettled
      · rw [hnext] at hsent
        rw [hnotice, not_sendsRegistration_iff.mp hsent.1]
        exact ⟨.inr (.inl (hsent.2 (.ok ()))), append_entries_none ▸ hlog⟩
      · rw [hnext] at honce
        rcases honce with ⟨hcall, hrest⟩ | ⟨hcall, hrest⟩
        · have hmessage : isRegistration message = true := hcall
          rw [hnotice, if_pos hmessage]
          exact ⟨.inr (.inl (hrest (.ok ()))), keepsDelays_call hlog hover⟩
        · have hmessage := not_sendsRegistration_iff.mp hcall
          rw [hnotice, hmessage, if_neg Bool.false_ne_true, append_entries_none]
          refine ⟨.inr (.inr ⟨hrest (.ok ()), ?_, hover⟩), hlog⟩
          exact (hasAsked_append w message _).trans hmessage
  | notWritten e hnext =>
      rw [show w.notice? (.wrote (.error e)) = none from rfl, append_entries_none]
      refine ⟨?_, hlog⟩
      rcases h with hsettled | hsent | ⟨honce, hasked, hover⟩
      · exact .inl hsettled
      · rw [hnext] at hsent
        exact .inr (.inl (hsent.2 (.error e)))
      · rw [hnext] at honce
        rcases honce with ⟨_, hrest⟩ | ⟨_, hrest⟩
        · exact .inr (.inl (hrest (.error e)))
        · exact .inr (.inr ⟨hrest (.error e), hasked, hover⟩)
  | read root hnext hregistering hdelivers =>
      rcases h with hsettled | hsent | ⟨honce, hasked, hover⟩
      · cases (Attempt.not_isSettled_of_takes hregistering
          (Attempt.takes_of_delivers hdelivers)).symm.trans hsettled
      · rw [hnext] at hsent
        refine ⟨.inr (.inl (hsent.2 (.ok root))), ?_⟩
        unfold Wired.notice?
        dsimp only
        split
        · cases retryAfter? root with
          | none => exact append_entries_none ▸ hlog
          | some nanos => exact keepsDelays_retryAfter hlog nanos
        · exact append_entries_none ▸ hlog
      · rw [hnext] at honce
        have hnotice : w.notice? (.read (.ok root)) = none := by
          unfold Wired.notice?
          dsimp only
          rw [hasked]
          rfl
        rw [hnotice, append_entries_none]
        rcases honce with ⟨hcall, _⟩ | ⟨_, hrest⟩
        · exact hcall.elim
        · exact ⟨.inr (.inr ⟨hrest (.ok root), hasked, hover⟩), hlog⟩
  | notRead e hnext =>
      rw [show w.notice? (.read (.error e)) = none from rfl, append_entries_none]
      refine ⟨?_, hlog⟩
      rcases h with hsettled | hsent | ⟨honce, hasked, hover⟩
      · exact .inl hsettled
      · rw [hnext] at hsent
        exact .inr (.inl (hsent.2 (.error e)))
      · rw [hnext] at honce
        rcases honce with ⟨hcall, _⟩ | ⟨_, hrest⟩
        · exact hcall.elim
        · exact .inr (.inr ⟨hrest (.error e), hasked, hover⟩)

end Fits

/-! ## Runs -/

/-- The delays are over, or will be when `run` goes on from where it stands. -/
def Covered (s : Timed opts R) : Prop :=
  match s.run.phase with
  | .discovering _ => Over s.log s.now
  | .stepping _ edges _ => edges = [] ∨ Over s.log s.now
  | .pausing delay => Over s.log (s.now + delay)
  | .sleeping _ _ => Over s.log s.wakeAt
  | _ => True

/-- Only the attempt `run` waits for may still register something, or when `run` has returned the one it has
dropped. -/
structure Paced (s : Timed opts R) : Prop where
  keeps : KeepsDelays s.log
  covered : Covered s
  joins : ∀ w : Wired, s.run.phase.current = some w → w.attempt.JoinsServe
  current : ∀ w : Wired, s.run.phase.current = some w → w.Fits s.log s.now
  background : ∀ w : Wired, w ∈ s.run.background → w.Fits s.log s.now
  settled : s.run.phase.isReturned = false →
    ∀ w : Wired, w ∈ s.run.background → w.attempt.isSettled = true
  one : ∃ k, ∀ (i : Nat) (w : Wired), i ≠ k → s.run.background[i]? = some w →
    w.attempt.isSettled = true

section Runs

variable {s t : Timed opts R}

theorem paced_init : Paced (Timed.init opts R) where
  keeps := List.Pairwise.nil
  covered _ hx := absurd hx List.not_mem_nil
  joins _ hw := nomatch hw
  current _ hw := nomatch hw
  background _ hw := absurd hw List.not_mem_nil
  settled _ _ hw := absurd hw List.not_mem_nil
  one := ⟨0, fun _ _ _ hw => nomatch hw⟩

/-- A step that does the same to every attempt, and nothing to what they register. -/
theorem Paced.map (h : Paced s) (f : Wired → Wired)
    (hsettled : ∀ w, w.attempt.isSettled = true → (f w).attempt.isSettled = true)
    (hjoins : ∀ w, w.attempt.JoinsServe → (f w).attempt.JoinsServe)
    (hregistration : ∀ w, (f w).registration = w.registration)
    (hwritten : ∀ w, (f w).written = w.written)
    (hcurrent : t.run.phase.current = s.run.phase.current.map f)
    (hbackground : t.run.background = s.run.background.map f)
    (hreturned : t.run.phase.isReturned = false → s.run.phase.isReturned = false)
    (hlog : t.log = s.log) (hle : s.now ≤ t.now) (hcovered : Covered t) : Paced t := by
  have hfits : ∀ w : Wired, w.Fits s.log s.now → (f w).Fits t.log t.now := by
    intro w hw
    rw [hlog]
    exact hw.attempt (hsettled w) (hregistration w) (hwritten w) hle
  constructor
  · rw [hlog]
    exact h.keeps
  · exact hcovered
  · intro w hw
    obtain ⟨before, hbefore, rfl⟩ := Option.map_eq_some_iff.mp (hcurrent.symm.trans hw)
    exact hjoins before (h.joins before hbefore)
  · intro w hw
    obtain ⟨before, hbefore, rfl⟩ := Option.map_eq_some_iff.mp (hcurrent.symm.trans hw)
    exact hfits before (h.current before hbefore)
  · intro w hw
    rw [hbackground] at hw
    obtain ⟨before, hbefore, rfl⟩ := List.mem_map.mp hw
    exact hfits before (h.background before hbefore)
  · intro hrunning w hw
    rw [hbackground] at hw
    obtain ⟨before, hbefore, rfl⟩ := List.mem_map.mp hw
    exact hsettled before (h.settled (hreturned hrunning) before hbefore)
  · obtain ⟨k, hone⟩ := h.one
    refine ⟨k, fun i w hi hw => ?_⟩
    rw [hbackground, List.getElem?_map] at hw
    obtain ⟨before, hbefore, rfl⟩ := Option.map_eq_some_iff.mp hw
    exact hsettled before (hone i before hi hbefore)

/-- A step between attempts. -/
theorem Paced.idle (h : Paced s) (hs : s.run.phase.current = none)
    (hcurrent : t.run.phase.current = none) (hbackground : t.run.background = s.run.background)
    (hreturned : t.run.phase.isReturned = false → s.run.phase.isReturned = false)
    (hlog : t.log = s.log) (hnow : t.now = s.now) (hcovered : Covered t) : Paced t := by
  refine h.map id (fun _ => id) (fun _ => id) (fun _ => rfl) (fun _ => rfl) ?_ ?_ hreturned hlog
    (Nat.le_of_eq hnow.symm) hcovered
  · rw [hs, hcurrent]
    rfl
  · rw [hbackground]
    exact (List.map_id _).symm

/-- The attempt leaves what it has spawned in the background. -/
theorem Paced.leave (h : Paced s) {w : Wired} (hs : s.run.phase.isReturned = false)
    (hcurrent : t.run.phase.current = none)
    (hbackground : t.run.background = s.run.background ++ [w]) (hw : w.Fits s.log s.now)
    (hsettled : t.run.phase.isReturned = false → w.attempt.isSettled = true)
    (hlog : t.log = s.log) (hnow : t.now = s.now) (hcovered : Covered t) : Paced t := by
  constructor
  · rw [hlog]
    exact h.keeps
  · exact hcovered
  · intro w' hw'
    cases hcurrent.symm.trans hw'
  · intro w' hw'
    cases hcurrent.symm.trans hw'
  · intro w' hw'
    rw [hlog, hnow]
    rw [hbackground] at hw'
    rcases List.mem_append.mp hw' with hold | hnew
    · exact h.background w' hold
    · obtain rfl := List.mem_singleton.mp hnew
      exact hw
  · intro hrunning w' hw'
    rw [hbackground] at hw'
    rcases List.mem_append.mp hw' with hold | hnew
    · exact h.settled hs w' hold
    · obtain rfl := List.mem_singleton.mp hnew
      exact hsettled hrunning
  · refine ⟨s.run.background.length, fun i w' hi hw' => ?_⟩
    rw [hbackground] at hw'
    have hlt : i < s.run.background.length := by
      have := (List.getElem?_eq_some_iff.mp hw').1
      rw [List.length_append, List.length_singleton] at this
      omega
    rw [List.getElem?_append_left hlt] at hw'
    exact h.settled hs w' (List.mem_of_getElem? hw')

theorem Timed.step_eq_some {l : Label (wiredAttempts opts R)}
    (h : s.step (.step l) = some t) :
    s.isEarly l = false ∧ ∃ run, Edge.step opts s.run l = some run ∧
      t = ⟨run, s.now, s.wakesAt l, s.log ++ entries s.now (s.run.notice? l)⟩ := by
  obtain ⟨hearly, h⟩ := Option.ite_none_left_eq_some.mp h
  obtain ⟨run, hrun, rfl⟩ := Option.map_eq_some_iff.mp h
  exact ⟨Bool.eq_false_iff.mpr hearly, run, hrun, rfl⟩

theorem covered_elapse (nanos : Nat) (h : Covered s) :
    Covered { s with run := s.run.elapse nanos, now := s.now + nanos } := by
  unfold Covered at h ⊢
  cases hp : s.run.phase with
  | discovering transport =>
      simp only [hp, Run.elapse, Phase.elapse] at h ⊢
      exact h.mono (Nat.le_add_right _ _)
  | stepping transport edges quicBroken =>
      simp only [hp, Run.elapse, Phase.elapse] at h ⊢
      exact h.imp_right fun hover => hover.mono (Nat.le_add_right _ _)
  | pausing delay =>
      simp only [hp, Run.elapse, Phase.elapse] at h ⊢
      exact h.mono (by omega)
  | sleeping delay shutdown =>
      simp only [hp, Run.elapse, Phase.elapse] at h ⊢
      exact h
  | attempting | returned => simp only [hp, Run.elapse, Phase.elapse]

theorem current_elapse (nanos : Nat) (phase : Phase (wiredAttempts opts R)) :
    (phase.elapse nanos).current = phase.current.map (Wired.elapse nanos) := by
  cases phase <;> rfl

theorem isReturned_elapse (nanos : Nat) (phase : Phase (wiredAttempts opts R)) :
    (phase.elapse nanos).isReturned = phase.isReturned := by
  cases phase <;> rfl

theorem paced_elapse (h : Paced s) (nanos : Nat) :
    Paced { s with run := s.run.elapse nanos, now := s.now + nanos } := by
  refine h.map (Wired.elapse nanos) (fun _ => Attempt.isSettled_elapse nanos)
    (fun _ => Attempt.joinsServe_elapse nanos) (fun _ => rfl) (fun _ => rfl)
    (current_elapse nanos _) rfl ?_ rfl (Nat.le_add_right _ _) (covered_elapse nanos h.covered)
  exact fun hrunning => (isReturned_elapse nanos _).symm.trans hrunning

theorem isReturned_of_current {phase : Phase (wiredAttempts opts R)} {w : Wired}
    (h : phase.current = some w) : phase.isReturned = false := by
  cases phase <;> first | rfl | cases h

/-- The attempt `run` waits for takes a step. -/
theorem paced_attemptStep {w w' : Wired} {label : WiredLabel} (h : Paced s)
    (hs : s.run.phase.current = some w)
    (hstep : w.step opts.gracePeriod s.run.event.isFired label = some w')
    (hcurrent : t.run.phase.current = some w') (hbackground : t.run.background = s.run.background)
    (hlog : t.log = s.log ++ entries s.now (w.notice? label)) (hnow : t.now = s.now)
    (hcovered : Covered t) : Paced t := by
  have hsettled := h.settled (isReturned_of_current hs)
  obtain ⟨hfits, hkeeps⟩ := fits_step (h.current w hs) h.keeps hstep
  constructor
  · rw [hlog]
    exact hkeeps
  · exact hcovered
  · intro v hv
    obtain rfl := Option.some.inj (hcurrent.symm.trans hv)
    exact Wired.joinsServe_step (h.joins w hs) hstep
  · intro v hv
    obtain rfl := Option.some.inj (hcurrent.symm.trans hv)
    rw [hlog, hnow]
    exact hfits
  · intro v hv
    rw [hbackground] at hv
    exact .inl (hsettled v hv)
  · intro _ v hv
    rw [hbackground] at hv
    exact hsettled v hv
  · refine ⟨0, fun i v _ hv => ?_⟩
    rw [hbackground] at hv
    exact hsettled v (List.mem_of_getElem? hv)

/-- An attempt in the background takes a step: it is settled, or the only one that is not. -/
theorem paced_backgroundStep {w w' : Wired} {index : Nat} {label : WiredLabel} (h : Paced s)
    (hs : s.run.background[index]? = some w)
    (hstep : w.step opts.gracePeriod s.run.event.isFired label = some w')
    (hphase : t.run.phase = s.run.phase)
    (hbackground : t.run.background = s.run.background.set index w')
    (hlog : t.log = s.log ++ entries s.now (w.notice? label)) (hnow : t.now = s.now)
    (hwakeAt : t.wakeAt = s.wakeAt) : Paced t := by
  obtain ⟨hfits, hkeeps⟩ := fits_step (h.background w (List.mem_of_getElem? hs)) h.keeps hstep
  cases hw : w.attempt.isSettled with
  | true =>
      obtain ⟨hw', hnotice⟩ := Wired.isSettled_step hw hstep
      rw [hnotice, append_entries_none] at hlog
      constructor
      · rw [hlog]
        exact h.keeps
      · unfold Covered
        rw [hphase, hlog, hnow, hwakeAt]
        exact h.covered
      · rw [hphase]
        exact h.joins
      · rw [hphase, hlog, hnow]
        exact h.current
      · intro v hv
        rw [hlog, hnow]
        rw [hbackground] at hv
        rcases List.mem_or_eq_of_mem_set hv with hold | rfl
        · exact h.background v hold
        · exact .inl hw'
      · intro hrunning v hv
        rw [hphase] at hrunning
        rw [hbackground] at hv
        rcases List.mem_or_eq_of_mem_set hv with hold | rfl
        · exact h.settled hrunning v hold
        · exact hw'
      · obtain ⟨k, hone⟩ := h.one
        refine ⟨k, fun i v hi hv => ?_⟩
        rw [hbackground] at hv
        by_cases hindex : index = i
        · subst hindex
          rw [List.getElem?_set_self (List.getElem?_eq_some_iff.mp hs).1] at hv
          obtain rfl := Option.some.inj hv
          exact hw'
        · rw [List.getElem?_set_ne hindex] at hv
          exact hone i v hi hv
  | false =>
      -- `run` has returned, and every other attempt is settled
      have hreturned : s.run.phase.isReturned = true := by
        cases hrunning : s.run.phase.isReturned with
        | true => rfl
        | false =>
            have hsettled := h.settled hrunning w (List.mem_of_getElem? hs)
            cases hw.symm.trans hsettled
      have hothers : ∀ (i : Nat) (v : Wired), i ≠ index → t.run.background[i]? = some v →
          v.attempt.isSettled = true := by
        intro i v hi hv
        rw [hbackground, List.getElem?_set_ne (Ne.symm hi)] at hv
        obtain ⟨k, hone⟩ := h.one
        have hk : k = index := by
          by_contra hne
          cases hw.symm.trans (hone index w (Ne.symm hne) hs)
        exact hone i v (hk ▸ hi) hv
      have hnone : t.run.phase.current = none := by
        rw [hphase]
        cases hp : s.run.phase with
        | attempting =>
            rw [hp] at hreturned
            cases hreturned
        | _ => rfl
      constructor
      · rw [hlog]
        exact hkeeps
      · unfold Covered
        rw [hphase]
        cases hp : s.run.phase with
        | returned => exact trivial
        | _ =>
            rw [hp] at hreturned
            cases hreturned
      · intro v hv
        cases hnone.symm.trans hv
      · intro v hv
        cases hnone.symm.trans hv
      · intro v hv
        obtain ⟨i, hi⟩ := List.getElem?_of_mem hv
        by_cases hindex : i = index
        · subst hindex
          rw [hbackground, List.getElem?_set_self (List.getElem?_eq_some_iff.mp hs).1] at hi
          obtain rfl := Option.some.inj hi
          rw [hlog, hnow]
          exact hfits
        · exact .inl (hothers i v hindex hi)
      · intro hrunning
        rw [hphase] at hrunning
        cases hrunning.symm.trans hreturned
      · exact ⟨index, hothers⟩

/-- `run` returns, or is at the head of its `for` with the edges that are left. -/
theorem covered_afterAttempt {transport : Transport} {rest : List Address} {quicBroken : Bool}
    {outcome : ServeAttempt} {run : Run (wiredAttempts opts R)} {now wakeAt : Nat}
    {log : List (Nat × Notice)} (h : outcome.returns = true ∨ rest = [] ∨ Over log now) :
    Covered (R := R)
      ⟨Run.afterAttempt opts transport rest quicBroken outcome run, now, wakeAt, log⟩ := by
  unfold Covered
  dsimp only
  cases hresult : outcome.result with
  | ok =>
      rw [phase_afterAttempt_ok hresult]
      exact trivial
  | error e =>
      rcases phase_afterAttempt opts transport rest quicBroken run hresult with
        ⟨_, hp⟩ | ⟨hretry, broken, hp⟩
      · rw [hp]
        exact trivial
      · rw [hp]
        have hgoes : outcome.returns = false := by
          unfold ServeAttempt.returns
          rw [hresult]
          exact hretry
        rcases h with hreturns | hcovers
        · cases hgoes.symm.trans hreturns
        · exact hcovers

theorem covered_wake (h : Covered s) (run : Run (wiredAttempts opts R))
    (hphase : run.phase = s.run.phase.wake) : Covered { s with run := run } := by
  unfold Covered at h ⊢
  dsimp only
  rw [hphase]
  cases hp : s.run.phase with
  | discovering | stepping | pausing | sleeping =>
      rw [hp] at h
      exact h
  | attempting | returned => exact trivial

theorem paced_step {l : TimedLabel opts R} (h : Paced s) (hC : CoversDelays s l)
    (hstep : s.step l = some t) : Paced t := by
  cases l with
  | elapse nanos =>
      cases hstep
      exact paced_elapse h nanos
  | step l =>
  obtain ⟨hearly, run, hrun, rfl⟩ := Timed.step_eq_some hstep
  have hcovered := h.covered
  unfold Covered at hcovered
  -- nothing passes but in the steps of an attempt
  have hquiet : ∀ {l}, s.run.notice? l = none → s.log ++ entries s.now (s.run.notice? l) = s.log := by
    intro l hnone
    rw [hnone]
    exact append_entries_none
  cases steps_of_step hrun with
  | storeFired =>
      rw [hquiet rfl]
      exact h.map id (fun _ => id) (fun _ => id) (fun _ => rfl) (fun _ => rfl) Option.map_id'.symm
        (List.map_id _).symm id rfl (Nat.le_refl _) h.covered
  | notifyWaiters =>
      rw [hquiet rfl]
      refine h.map Wired.wake (fun _ => Attempt.isSettled_wake) (fun _ => Attempt.joinsServe_wake)
        (fun _ => rfl) (fun _ => rfl) (current_wake _) rfl ?_ rfl (Nat.le_refl _)
        (covered_wake h.covered _ rfl)
      exact fun hrunning => (isReturned_wake _).symm.trans hrunning
  | discovered edges hp =>
      rw [hp] at hcovered
      rw [hquiet rfl]
      exact h.idle (by rw [hp]; rfl) rfl rfl (fun _ => by rw [hp]; rfl) rfl rfl (.inr hcovered)
  | discoveryFailed draw hp =>
      rw [hp] at hcovered
      rw [hquiet rfl]
      exact h.idle (by rw [hp]; rfl) rfl rfl (fun _ => by rw [hp]; rfl) rfl rfl
        (hcovered.mono (Nat.le_add_right _ _))
  | @beginAttempt transport edge rest quicBroken hp =>
      rw [hp] at hcovered
      have hover : Over s.log s.now := hcovered.resolve_left (List.cons_ne_nil edge rest)
      have hsettled := h.settled (by rw [hp]; rfl)
      rw [hquiet rfl]
      refine ⟨h.keeps, trivial, ?_, ?_, h.background, fun _ => hsettled, h.one⟩
      · intro w hw
        obtain rfl := Option.some.inj hw
        exact Attempt.joinsServe_start transport
      · intro w hw
        obtain rfl := Option.some.inj hw
        exact .inr (.inr ⟨once_sendsRegistration, rfl, hover⟩)
  | attemptStep label hp hattempt =>
      refine paced_attemptStep h (by rw [hp]; rfl) hattempt rfl rfl ?_ rfl trivial
      show s.log ++ entries s.now (s.run.phase.current.bind _) = _
      rw [hp]
      rfl
  | @attempted transport rest quicBroken shutdown future outcome hp hfinished =>
      rw [hquiet rfl]
      have hcurrent : s.run.phase.current = some future := by rw [hp]; rfl
      obtain ⟨hdone, _⟩ := Bool.and_eq_true_iff.mp hfinished
      have hsettled : (Wired.abandon future).attempt.isSettled = true :=
        Attempt.isSettled_of_finished (h.joins future hcurrent) hdone
      have hcovers : outcome.returns = true ∨ rest = [] ∨ Over s.log s.now := by
        have hrest : s.run.rest = rest := by
          unfold Run.rest
          rw [hp]
        exact hrest ▸ hC
      exact h.leave (by rw [hp]; rfl) current_afterAttempt.1 current_afterAttempt.2.1
        (.inl hsettled) (fun _ => hsettled) rfl rfl (covered_afterAttempt hcovers)
  | endRound draw hp =>
      rw [hquiet rfl]
      exact h.idle (by rw [hp]; rfl) rfl rfl (fun _ => by rw [hp]; rfl) rfl rfl hC
  | beginSleep hp =>
      rw [hp] at hcovered
      rw [hquiet rfl]
      refine h.idle (by rw [hp]; rfl) rfl rfl (fun _ => by rw [hp]; rfl) rfl rfl ?_
      show Over s.log (s.wakesAt .beginSleep)
      unfold Timed.wakesAt
      rw [hp]
      exact hcovered
  | slept hp =>
      rw [hp] at hcovered
      rw [hquiet rfl]
      have hle : s.wakeAt ≤ s.now := Nat.le_of_not_lt (of_decide_eq_false hearly)
      exact h.idle (by rw [hp]; rfl) rfl rfl (fun _ => by rw [hp]; rfl) rfl rfl (hcovered.mono hle)
  | @abandoned transport rest quicBroken future hp =>
      rw [hquiet rfl]
      have hcurrent : s.run.phase.current = some future := by rw [hp]; rfl
      have hfits : (Wired.abandon future).Fits s.log s.now := by
        refine (h.current future hcurrent).attempt ?_ ?_ ?_ (Nat.le_refl _)
        · exact Attempt.isSettled_abandon
        · rfl
        · rfl
      exact h.leave (by rw [hp]; rfl) rfl rfl hfits nofun rfl rfl trivial
  | stopped hp =>
      rw [hquiet rfl]
      exact h.idle (by rw [hp]; rfl) rfl rfl nofun rfl rfl trivial
  | backgroundStep index label hw hattempt =>
      refine paced_backgroundStep h hw hattempt rfl rfl ?_ rfl rfl
      show s.log ++ entries s.now (s.run.background[index]?.bind _) = _
      rw [hw]
      rfl

end Runs

/-- **Who covers the delays keeps them.** In every run in which an attempt that ends before a delay
is over is the last of its round, and the backoff drawn covers what is left of it, no registration
call is sent before the delay is over. -/
theorem throughout_keepsDelays (opts : EdgeOptions) (R : Registrant Address)
    (ls : List (TimedLabel opts R))
    (hcovers : Always Timed.step CoversDelays (Timed.init opts R) ls) :
    Throughout Timed.step (fun s => KeepsDelays s.log) (Timed.init opts R) ls :=
  throughout_of_always Paced (fun _ h => h.keeps) (fun _ _ _ => paced_step) paced_init hcovers

/-! ## An edge that asks for a second -/

/-- Nanoseconds of a delay. -/
def Notice.nanos? : Notice → Option Nat
  | .call => none
  | .retryAfter nanos => some nanos

theorem over_iff {log : List (Nat × Notice)} {time : Nat} :
    Over log time ↔ ∀ x ∈ log, ∀ nanos ∈ x.2.nanos?, x.1 + nanos ≤ time := by
  have hnanos : ∀ (notice : Notice) nanos, nanos ∈ notice.nanos? ↔ notice = .retryAfter nanos := by
    intro notice nanos
    cases notice with
    | call => exact iff_of_false nofun nofun
    | retryAfter nanos' => simp [Notice.nanos?, eq_comm]
  unfold Over
  simp only [hnanos]

instance (log : List (Nat × Notice)) (time : Nat) : Decidable (Over log time) :=
  have : ∀ x : Nat × Notice, Decidable (∀ nanos ∈ x.2.nanos?, x.1 + nanos ≤ time) := fun x =>
    match h : x.2.nanos? with
    | none => isTrue (by simp)
    | some nanos => decidable_of_iff (x.1 + nanos ≤ time) (by simp)
  have : Decidable (∀ x ∈ log, ∀ nanos ∈ x.2.nanos?, x.1 + nanos ≤ time) := List.decidableBAll _ log
  decidable_of_iff _ over_iff.symm

instance (s : Timed opts R) (l : TimedLabel opts R) : Decidable (CoversDelays s l) :=
  match l with
  | .step (.attempted _) =>
      have : Decidable (s.run.rest = []) :=
        decidable_of_iff (s.run.rest.isEmpty = true) List.isEmpty_iff
      inferInstanceAs (Decidable (_ ∨ _ ∨ _))
  | .step (.endRound _) => inferInstanceAs (Decidable (Over _ _))
  | .elapse _ | .step .storeFired | .step .notifyWaiters | .step (.discovered _)
  | .step (.discoveryFailed _) | .step .beginAttempt | .step (.attemptStep _)
  | .step .beginSleep | .step .slept | .step .shutdown | .step (.backgroundStep ..) =>
      isTrue trivial

def quicOptions : EdgeOptions := { defaultOptions with transport := .quic }

def someTunnel : Registrant Unit where
  parseStr _ := .ok ⟨List.replicate 16 3, rfl⟩
  connector := ⟨⟨List.replicate 16 7, rfl⟩, "0.1.0", "linux/x86_64"⟩
  tunnel := ⟨"tunnel", "account", [1, 2]⟩
  configurationJson := []
  originLocalIp _ _ := []

/-- The edge is to be asked again after a second. -/
def overloadedReader : PayloadReader where
  content :=
    { capabilityReader.content with
      registerConnectionResults :=
        .ok (.ok (.ok (.error (.ok ⟨.ok (.ok "overloaded"), 1000000000, true⟩)))) }
  capTable := .ok []

def overloaded : Except Error Unit :=
  .error (.registration (.retryable "overloaded" 1000000000))

/-- Up to the registration call. -/
def callsEdge : List (TimedLabel quicOptions someTunnel) :=
  .step .beginAttempt ::
    [WiredLabel.attempt (.quic .connected), .wrote (.ok ()),
      .read (.ok (returnRoot 0 capabilityReader)), .wrote (.ok ()), .wrote (.ok ())].map
        fun label => .step (.attemptStep label)

/-- The rest of an attempt that is rejected. -/
def isRejected : List (TimedLabel quicOptions someTunnel) :=
  [WiredLabel.read (.ok (returnRoot 1 overloadedReader)), .wrote (.ok ()), .wrote (.ok ()),
      .attempt (.quic (.registerFailed (.registration (.retryable "overloaded" 1000000000))))].map
        (fun label => .step (.attemptStep label)) ++
    [.step (.attempted ⟨overloaded, none, false⟩)]

/-- One edge, and a backoff of this length. -/
def secondRound (nanos : Nat) : List (TimedLabel quicOptions someTunnel) :=
  .step (.discovered [()]) :: callsEdge ++ isRejected ++
    [.step (.endRound nanos), .step .beginSleep, .elapse nanos, .step .slept,
      .step (.discovered [()])] ++ callsEdge

/-- Two edges, the second of which is a millisecond away. -/
def secondEdge : List (TimedLabel quicOptions someTunnel) :=
  .step (.discovered [(), ()]) :: callsEdge ++ isRejected ++ .elapse 1000000 :: callsEdge

theorem throughout_keepsDelays_covered :
    (run Timed.step (Timed.init quicOptions someTunnel) (secondRound 1500000000)).map Timed.log =
        some [(0, .call), (0, .retryAfter 1000000000), (1500000000, .call)] ∧
      Throughout Timed.step (fun s => KeepsDelays s.log) (Timed.init quicOptions someTunnel)
        (secondRound 1500000000) := by
  refine ⟨by decide +kernel, ?_⟩
  apply throughout_keepsDelays
  decide +kernel

/-- A call a millisecond after the edge has asked for a second. -/
theorem not_keepsDelays_millisecond {ls : List (TimedLabel quicOptions someTunnel)}
    (h : (run Timed.step (Timed.init quicOptions someTunnel) ls).map Timed.log =
      some [(0, .call), (0, .retryAfter 1000000000), (1000000, .call)]) :
    ∃ s, run Timed.step (Timed.init quicOptions someTunnel) ls = some s ∧ ¬ KeepsDelays s.log := by
  obtain ⟨s, hrun, hlog⟩ := Option.map_eq_some_iff.mp h
  refine ⟨s, hrun, fun hkeeps => ?_⟩
  rw [hlog] at hkeeps
  have htail := (List.pairwise_cons.mp hkeeps).2
  have hle := (List.pairwise_cons.mp htail).1 (1000000, .call) (by simp) 1000000000 rfl rfl
  exact absurd hle (by decide)

/-- The next edge is tried after a millisecond, or the next round begins after one. -/
theorem not_keepsDelays_overloaded :
    (∃ s, run Timed.step (Timed.init quicOptions someTunnel) secondEdge = some s ∧
      ¬ KeepsDelays s.log) ∧
    ∃ s, run Timed.step (Timed.init quicOptions someTunnel) (secondRound 1000000) = some s ∧
      ¬ KeepsDelays s.log :=
  ⟨not_keepsDelays_millisecond (by decide +kernel), not_keepsDelays_millisecond (by decide +kernel)⟩

end Libcfd.Edge
