import Libcfd.Edge.H2.Drain
import Libcfd.Edge.H2.Unregister
import Libcfd.Foundation.Trace

/-!
# How long `serve` waits for registration

The timer of the registration is a branch of the `select!`, and every round of the loop makes it
anew. As long as no stream is accepted it is the one made at the start, and `serve` waits no longer
than `RPC_TIMEOUT`; each stream the edge opens gives registration another `RPC_TIMEOUT`.

Here time passes only inside the `select!`, and not past an instant at which the branch of the timer
can be taken: then that one is taken, or another that is ready.
-/

namespace Libcfd.Edge.H2

open Libcfd.Machine

/-! ## Instants -/

def Label.nanos : Label → Nat
  | .elapse nanos => nanos
  | _ => 0

/-- The instant at which a run is that starts at zero. -/
def elapsed : List Label → Nat
  | [] => 0
  | l :: ls => l.nanos + elapsed ls

/-- The edge opens a stream. -/
def Label.opens : Label → Bool
  | .acceptControl | .acceptStream _ => true
  | _ => false

/-- The outcome of registration is there, or the connection is given up before it is. -/
def Label.settles : Label → Bool
  | .registrationRead | .connectionError _ | .connectionClosed | .shutdown => true
  | _ => false

/-- A stream that is opened later than at the start, with registration still to come. -/
def Reopening (before : List Label) (l : Label) : Prop :=
  l.opens = true ∧ 0 < elapsed before ∧ ∀ earlier ∈ before, earlier.settles = false

def Reopens (ls : List Label) : Prop :=
  ∃ before l after, ls = before ++ l :: after ∧ Reopening before l

/-- The condition on a run: if such a stream is opened, registration is settled within `RPC_TIMEOUT`
of the start. -/
def InTime (ls : List Label) : Prop :=
  Reopens ls → rpcTimeout < elapsed ls →
    ∃ before l after, ls = before ++ l :: after ∧ l.settles = true ∧ elapsed before ≤ rpcTimeout

theorem elapsed_append (xs ys : List Label) : elapsed (xs ++ ys) = elapsed xs + elapsed ys := by
  induction xs with
  | nil => simp [elapsed]
  | cons l ls ih =>
      rw [List.cons_append, elapsed, elapsed, ih]
      omega

theorem elapsed_concat (ls : List Label) (l : Label) :
    elapsed (ls ++ [l]) = elapsed ls + l.nanos := by
  rw [elapsed_append]
  rfl

theorem reopens_concat {ls : List Label} {l : Label} :
    Reopens (ls ++ [l]) ↔ Reopens ls ∨ Reopening ls l := by
  have hfollows : ∀ xs, Reopens xs ↔ ¬ Follows (fun before l => ¬ Reopening before l) xs := by
    intro xs
    simp [Reopens, Follows]
  rw [hfollows, hfollows, follows_concat, not_and_or, Classical.not_not]

theorem Reopens.append {xs : List Label} (h : Reopens xs) (ys : List Label) :
    Reopens (xs ++ ys) := by
  obtain ⟨before, l, after, rfl, hl⟩ := h
  exact ⟨before, l, after ++ ys, by simp, hl⟩

namespace Serve

/-! ## Time -/

/-- The branch of the timer can be taken. -/
def isDue (grace : Nat) (s : Serve) : Bool := (s.step grace .registrationTimedOut).isSome

/-- So much time can pass before `serve` has to do something. -/
def allows (grace : Nat) (s : Serve) (nanos : Nat) : Bool :=
  nanos == 0 ||
    decide (s.phase ≠ .looping) && !isDue grace { s with now := s.now + (nanos - 1) }

/-- `step`, with a clock that `serve` keeps up with. -/
def timedStep (grace : Nat) (s : Serve) (l : Label) : Option Serve :=
  match l with
  | .elapse nanos => if s.allows grace nanos then s.step grace l else none
  | _ => s.step grace l

theorem step_of_timedStep {grace : Nat} {s t : Serve} {l : Label}
    (h : s.timedStep grace l = some t) :
    s.step grace l = some t ∧ ∀ nanos, l = .elapse nanos → s.allows grace nanos = true := by
  cases l with
  | elapse nanos =>
      obtain ⟨hallows, hstep⟩ := Option.ite_none_right_eq_some.mp h
      exact ⟨hstep, by rintro _ ⟨⟩; exact hallows⟩
  | _ => exact ⟨h, nofun⟩

/-! ## The timer -/

/-- `serve` still waits for registration. -/
def isPending (s : Serve) : Bool := s.phase.isPolling && !s.registrationDone

/-- When the timer of this round, or of the one to come, is made. -/
def roundStart (s : Serve) : Nat :=
  match s.phase with
  | .selecting entered _ => entered
  | _ => s.now

section Timer

variable {grace : Nat} {s t : Serve} {l : Label}

theorem isPending_iff :
    s.isPending = true ↔ s.phase.isPolling = true ∧ s.registrationDone = false := by
  rw [isPending, Bool.and_eq_true, Bool.not_eq_true']

theorem isPending_of_selecting {entered : Nat} {notified : Notified}
    (hp : s.phase = .selecting entered notified) (hdone : s.registrationDone = false) :
    s.isPending = true := isPending_iff.mpr ⟨by rw [hp]; rfl, hdone⟩

theorem isPending_of_looping (hp : s.phase = .looping) (hdone : s.registrationDone = false) :
    s.isPending = true := isPending_iff.mpr ⟨by rw [hp]; rfl, hdone⟩

/-- `serve` that waits is between two rounds or inside one. -/
theorem exists_selecting (hpending : s.isPending = true) (hphase : s.phase ≠ .looping) :
    ∃ entered notified, s.phase = .selecting entered notified := by
  cases hp : s.phase with
  | looping => exact absurd hp hphase
  | selecting entered notified => exact ⟨entered, notified, rfl⟩
  | drainingStreams | drainingControl | returned | aborted =>
      simp [isPending, hp, Phase.isPolling] at hpending

theorem timedOut_eq_some {entered : Nat} {notified : Notified}
    (hp : s.phase = .selecting entered notified) (hdone : s.registrationDone = false)
    (hnow : entered + rpcTimeout ≤ s.now) :
    s.step grace .registrationTimedOut =
      some (s.leave (.error (.h2 "registration timed out"))) := by
  simp [step, hp, selectStep, hdone, hnow]

theorem isDue_iff {entered : Nat} {notified : Notified} (hp : s.phase = .selecting entered notified)
    (hdone : s.registrationDone = false) :
    isDue grace s = true ↔ entered + rpcTimeout ≤ s.now := by
  simp [isDue, step, hp, selectStep, hdone]

/-- Inside the `select!` time can pass until the timer is due, and not longer. -/
theorem allows_iff {entered : Nat} {notified : Notified} (hp : s.phase = .selecting entered notified)
    (hdone : s.registrationDone = false) (nanos : Nat) :
    s.allows grace nanos = true ↔ nanos = 0 ∨ s.now + nanos ≤ entered + rpcTimeout := by
  have hdue := @isDue_iff grace { s with now := s.now + (nanos - 1) } entered notified hp hdone
  have hphase : s.phase ≠ .looping := by simp [hp]
  rw [allows, Bool.or_eq_true, beq_iff_eq, Bool.and_eq_true, Bool.not_eq_true', ← Bool.not_eq_true,
    hdue, decide_eq_true hphase]
  simp only [true_and]
  omega

/-- The branch comes up once `RPC_TIMEOUT` has elapsed under the timer, it ends the wait, and until
then no more time passes. -/
theorem exists_timedOut (hpending : s.isPending = true) (hphase : s.phase ≠ .looping)
    (hbound : s.now ≤ s.roundStart + rpcTimeout) :
    ∃ nanos t u, s.now + nanos = s.roundStart + rpcTimeout ∧
      s.timedStep grace (.elapse nanos) = some t ∧
      t.timedStep grace .registrationTimedOut = some u ∧
      u.phase = .returned (.error (.h2 "registration timed out")) ∧
      ∀ more, 0 < more → t.timedStep grace (.elapse more) = none := by
  obtain ⟨entered, notified, hp⟩ := exists_selecting hpending hphase
  have hdone := (isPending_iff.mp hpending).2
  have hstart : s.roundStart = entered := by simp [roundStart, hp]
  rw [hstart] at hbound ⊢
  obtain ⟨nanos, hnanos⟩ := Nat.exists_eq_add_of_le hbound
  have hallows := (@allows_iff grace s entered notified hp hdone nanos).mpr
    (.inr (Nat.le_of_eq hnanos.symm))
  refine ⟨nanos, { s with now := s.now + nanos }, _, hnanos.symm, if_pos hallows,
    timedOut_eq_some hp hdone (Nat.le_of_eq hnanos), rfl, fun more hmore => ?_⟩
  refine if_neg fun hlonger => ?_
  have hle := (@allows_iff grace { s with now := s.now + nanos } entered notified hp hdone more).mp
    hlonger
  have hnow : ({ s with now := s.now + nanos } : Serve).now = s.now + nanos := rfl
  omega

end Timer

/-! ## What a step does to it -/

section Step

variable {grace : Nat} {s t : Serve} {l : Label}

/-- Only `.elapse` moves the clock, and `serve` does not come to wait again. -/
theorem now_of_step (h : s.step grace l = some t) (hl : ∀ nanos, l ≠ .elapse nanos) :
    t.now = s.now ∧ (t.isPending = true → s.isPending = true) := by
  cases steps_of_step h with
  | fire =>
      refine ⟨now_wake s, fun hpending => ?_⟩
      rw [isPending, isPolling_wake, wake] at hpending
      split at hpending <;> exact hpending
  | elapse nanos => exact absurd rfl (hl nanos)
  | streamsJoined | streamsElapsed =>
      unfold drainControl
      split <;> exact ⟨rfl, fun hpending => Bool.noConfusion hpending⟩
  | leave | shutdown | controlJoined | controlElapsed =>
      exact ⟨rfl, fun hpending => Bool.noConfusion hpending⟩
  | select hp =>
      exact ⟨rfl, fun hpending => isPending_of_looping hp (isPending_iff.mp hpending).2⟩
  | acceptControl hp | rejectControl hp | acceptStream _ hp =>
      exact ⟨rfl, fun hpending => isPending_of_selecting hp (isPending_iff.mp hpending).2⟩
  | registered => exact ⟨rfl, fun hpending => Bool.noConfusion (isPending_iff.mp hpending).2⟩
  | flush | deliverControl | deliverStream | control | stream => exact ⟨rfl, id⟩

theorem nanos_of_ne (hl : ∀ nanos, l ≠ .elapse nanos) : l.nanos = 0 := by
  cases l with
  | elapse nanos => exact absurd rfl (hl nanos)
  | _ => rfl

theorem roundStart_wake (s : Serve) : s.wake.roundStart = s.roundStart := by
  unfold wake
  split
  · rfl
  · cases hp : s.phase <;> simp [roundStart, hp, Phase.wake]

/-- As long as `serve` waits nothing has settled registration, and the timer is made anew by what
opens a stream. -/
theorem roundStart_of_step (h : s.step grace l = some t) (hl : ∀ nanos, l ≠ .elapse nanos)
    (ht : t.isPending = true) :
    l.settles = false ∧ t.roundStart = if l.opens then s.now else s.roundStart := by
  cases steps_of_step h with
  | fire => exact ⟨rfl, roundStart_wake s⟩
  | elapse nanos => exact absurd rfl (hl nanos)
  | streamsJoined | streamsElapsed =>
      unfold drainControl at ht
      split at ht <;> cases ht
  | leave | shutdown | controlJoined | controlElapsed => cases ht
  | registered => cases (isPending_iff.mp ht).2
  | select hp =>
      refine ⟨rfl, ?_⟩
      simp [roundStart, hp, Label.opens]
  | acceptControl | rejectControl | acceptStream => exact ⟨rfl, rfl⟩
  | flush | deliverControl | deliverStream | control | stream => exact ⟨rfl, rfl⟩

theorem registrationDone_of_step (h : s.step grace l = some t) (ht : t.registrationDone = true) :
    s.registrationDone = true ∨ l.settles = true := by
  cases steps_of_step h with
  | registered => exact .inr rfl
  | fire =>
      rw [wake] at ht
      split at ht <;> exact .inl ht
  | streamsJoined | streamsElapsed =>
      unfold drainControl at ht
      split at ht <;> exact .inl ht
  | _ => exact .inl ht

/-- A stream that is opened ends the round. -/
theorem looping_of_opens (h : s.step grace l = some t) (hl : l.opens = true) :
    t.phase = .looping ∧ t.registrationDone = s.registrationDone ∧ t.now = s.now := by
  cases steps_of_step h with
  | acceptControl | rejectControl | acceptStream => exact ⟨rfl, rfl, rfl⟩
  | leave result hp hleaves =>
      cases l with
      | acceptControl | acceptStream => cases hleaves
      | _ => cases hl
  | _ => cases hl

/-- What ends the wait: the outcome, the end of the connection, or the timer. -/
theorem settles_of_lost (h : s.step grace l = some t) (hs : s.isPending = true)
    (ht : ¬ t.isPending = true) : l.settles = true ∨ s.roundStart + rpcTimeout ≤ s.now := by
  obtain ⟨hpolling, hdone⟩ := isPending_iff.mp hs
  have hover : ∀ {phase}, s.phase = phase → phase.isPolling = false →
      l.settles = true ∨ s.roundStart + rpcTimeout ≤ s.now := by
    intro phase hp hnot
    rw [hp, hnot] at hpolling
    cases hpolling
  cases steps_of_step h with
  | fire =>
      have hkept : s.wake.registrationDone = s.registrationDone := by
        unfold wake
        split <;> rfl
      exact absurd (isPending_iff.mpr ⟨(isPolling_wake s).trans hpolling, hkept.trans hdone⟩) ht
  | select => exact (ht (isPending_of_selecting rfl hdone)).elim
  | acceptControl | rejectControl | acceptStream => exact (ht (isPending_of_looping rfl hdone)).elim
  | @leave entered notified l result hp hl =>
      cases l with
      | connectionError | connectionClosed | registrationRead => exact .inl rfl
      | registrationTimedOut =>
          have hdue := (isDue_iff hp hdone).mp (Option.isSome_iff_exists.mpr ⟨_, h⟩)
          simp [roundStart, hp, hdue]
      | _ => cases hl
  | registered | shutdown => exact .inl rfl
  | streamsJoined hp | streamsElapsed hp | controlJoined hp | controlElapsed hp =>
      exact hover hp rfl
  | elapse | flush | deliverControl | deliverStream | control | stream => exact absurd hs ht

end Step

/-! ## What a run does to it -/

/-- The labels so far tell the instant, and the timer that is running. -/
structure IsTimed (past : List Label) (s : Serve) : Prop where
  now : s.now = elapsed past
  done : s.registrationDone = true → ∃ l ∈ past, l.settles = true
  unsettled : s.isPending = true → ∀ l ∈ past, l.settles = false
  reopened : s.isPending = true → (0 < s.roundStart ↔ Reopens past)
  began : s.isPending = true → s.roundStart ≤ s.now
  bound : s.isPending = true → s.now ≤ s.roundStart + rpcTimeout

section Run

variable {grace : Nat} {past : List Label} {s t : Serve} {l : Label}

theorem isTimed_init : IsTimed [] init where
  now := rfl
  done h := Bool.noConfusion h
  unsettled _ l hl := absurd hl List.not_mem_nil
  reopened _ := by simp [Reopens, init, roundStart]
  began _ := Nat.le_refl 0
  bound _ := Nat.zero_le _

theorem isTimed_elapse (hs : s.IsTimed past) {nanos : Nat} (hallows : s.allows grace nanos = true) :
    IsTimed (past ++ [.elapse nanos]) { s with now := s.now + nanos } := by
  have hnow : s.now + nanos = elapsed (past ++ [.elapse nanos]) := by
    rw [elapsed_concat, ← hs.now]
    rfl
  have hreopens : Reopens (past ++ [.elapse nanos]) ↔ Reopens past :=
    reopens_concat.trans (or_iff_left fun h => Bool.noConfusion h.1)
  have hround : s.isPending = true →
      ({ s with now := s.now + nanos } : Serve).roundStart = s.roundStart ∧
        s.now + nanos ≤ s.roundStart + rpcTimeout := by
    intro hpending
    by_cases hp : s.phase = .looping
    · have hzero : nanos = 0 := by simpa [allows, hp] using hallows
      subst hzero
      exact ⟨rfl, hs.bound hpending⟩
    · obtain ⟨entered, notified, hp⟩ := exists_selecting hpending hp
      have hstart : s.roundStart = entered := by simp [roundStart, hp]
      refine ⟨by simp [roundStart, hp], ?_⟩
      rcases (allows_iff hp (isPending_iff.mp hpending).2 nanos).mp hallows with rfl | hle
      · exact hs.bound hpending
      · exact hstart ▸ hle
  refine ⟨hnow, ?_, ?_, ?_, ?_, ?_⟩
  · intro hdone
    obtain ⟨l, hl, hsettles⟩ := hs.done hdone
    exact ⟨l, List.mem_append_left _ hl, hsettles⟩
  · intro hpending
    rw [List.forall_mem_append, List.forall_mem_singleton]
    exact ⟨hs.unsettled hpending, rfl⟩
  · intro hpending
    rw [(hround hpending).1, hreopens]
    exact hs.reopened hpending
  · intro hpending
    rw [(hround hpending).1]
    exact Nat.le_trans (hs.began hpending) (Nat.le_add_right _ _)
  · intro hpending
    rw [(hround hpending).1]
    exact (hround hpending).2

theorem isTimed_step (hs : s.IsTimed past) (h : s.timedStep grace l = some t) :
    t.IsTimed (past ++ [l]) := by
  obtain ⟨hstep, hallows⟩ := step_of_timedStep h
  by_cases hl : ∃ nanos, l = .elapse nanos
  · obtain ⟨nanos, rfl⟩ := hl
    cases hstep
    exact isTimed_elapse hs (hallows nanos rfl)
  have hl : ∀ nanos, l ≠ .elapse nanos := not_exists.mp hl
  obtain ⟨hnow, hpending⟩ := now_of_step hstep hl
  have hround := roundStart_of_step hstep hl
  refine ⟨?_, ?_, ?_, ?_, ?_, ?_⟩
  · rw [hnow, hs.now, elapsed_concat, nanos_of_ne hl]
    rfl
  · intro hdone
    rcases registrationDone_of_step hstep hdone with hdone | hsettles
    · obtain ⟨earlier, hmem, hsettles⟩ := hs.done hdone
      exact ⟨earlier, List.mem_append_left _ hmem, hsettles⟩
    · exact ⟨l, List.mem_append_right _ List.mem_cons_self, hsettles⟩
  · intro ht
    rw [List.forall_mem_append, List.forall_mem_singleton]
    exact ⟨hs.unsettled (hpending ht), (hround ht).1⟩
  · intro ht
    have hold := hs.reopened (hpending ht)
    rw [(hround ht).2, reopens_concat, ← hold]
    by_cases hopens : l.opens = true
    · have hbegan := hs.began (hpending ht)
      have hreopening : Reopening past l ↔ 0 < s.now := by
        rw [Reopening, ← hs.now, and_iff_right hopens, and_iff_left (hs.unsettled (hpending ht))]
      rw [if_pos hopens, hreopening]
      omega
    · rw [if_neg hopens]
      exact (or_iff_left fun h => hopens h.1).symm
  · intro ht
    have hbegan := hs.began (hpending ht)
    rw [(hround ht).2, hnow]
    split <;> omega
  · intro ht
    have hbound := hs.bound (hpending ht)
    rw [(hround ht).2, hnow]
    split <;> omega

theorem isTimed_run {ls : List Label} (h : run (timedStep grace) init ls = some t) :
    t.IsTimed ls :=
  run_induction IsTimed (fun _ _ _ _ hs hstep => isTimed_step hs hstep) isTimed_init h

end Run

/-! ## The bound -/

/-- `serve` does not wait for registration any more once `RPC_TIMEOUT` has elapsed. -/
def IsOnTime (s : Serve) : Prop := s.isPending = true → s.now ≤ rpcTimeout

section Bound

variable {grace : Nat} {ls : List Label} {t : Serve}

theorem IsTimed.undone {past : List Label} {s : Serve} (hs : s.IsTimed past)
    (hunsettled : ∀ l ∈ past, l.settles = false) : s.registrationDone = false := by
  cases hdone : s.registrationDone with
  | false => rfl
  | true =>
      obtain ⟨l, hl, hsettles⟩ := hs.done hdone
      rw [hunsettled l hl] at hsettles
      cases hsettles

/-- A stream has made the timer anew, so that `serve` still waits when it is due: if the wait is to
be over by then, something else has ended it. -/
theorem inTime_of_throughout (h : run (timedStep grace) init ls = some t)
    (hontime : Throughout (timedStep grace) IsOnTime init ls) : InTime ls := by
  rintro ⟨before, l, after, rfl, hreopening⟩ hlate
  obtain ⟨s, hbefore, hrest⟩ := run_append_eq_some.mp h
  obtain ⟨v, hl, hafter⟩ := run_cons_eq_some.mp hrest
  obtain ⟨hlooping, hdone, -⟩ := looping_of_opens (step_of_timedStep hl).1 hreopening.1
  have hv : v.isPending = true :=
    isPending_of_looping hlooping (hdone.trans ((isTimed_run hbefore).undone hreopening.2.2))
  have ht : ¬ t.isPending = true := by
    intro hpending
    have hle := hontime _ [] t (List.append_nil _).symm h hpending
    rw [(isTimed_run h).now] at hle
    omega
  obtain ⟨mid, l', rest, u, rfl, hmid, hu, w, hstep, hw⟩ :=
    sometime_lost (P := fun s : Serve => s.isPending = true) hafter hv ht
  have hrun : run (timedStep grace) init (before ++ l :: mid) = some u :=
    run_append_eq_some.mpr ⟨s, hbefore, run_cons_eq_some.mpr ⟨v, hl, hmid⟩⟩
  have htimed := isTimed_run hrun
  have hle : u.now ≤ rpcTimeout := hontime _ (l' :: rest) u (by simp) hrun hu
  rcases settles_of_lost (step_of_timedStep hstep).1 hu hw with hsettles | hdue
  · exact ⟨before ++ l :: mid, l', rest, by simp, hsettles, htimed.now ▸ hle⟩
  · have hpos : 0 < u.roundStart :=
      (htimed.reopened hu).mpr ⟨before, l, mid, rfl, hreopening⟩
    omega

/-- The timer of the start is not made anew, or what settles registration comes in time. -/
theorem throughout_of_inTime (hin : InTime ls) : Throughout (timedStep grace) IsOnTime init ls := by
  rintro before after s rfl hbefore hpending
  have hs := isTimed_run hbefore
  apply Nat.le_of_not_lt
  intro hlate
  have hreopens : Reopens before := by
    apply (hs.reopened hpending).mp
    have hbound := hs.bound hpending
    omega
  rw [hs.now] at hlate
  have hlater : rpcTimeout < elapsed (before ++ after) := by
    rw [elapsed_append]
    omega
  obtain ⟨front, l, rest, heq, hsettles, hle⟩ := hin (hreopens.append after) hlater
  rcases List.append_eq_append_iff.mp heq with ⟨middle, rfl, -⟩ | ⟨middle, rfl, hrest⟩
  · rw [elapsed_append] at hle
    omega
  · cases middle with
    | nil =>
        rw [List.append_nil] at hlate
        omega
    | cons l' middle =>
        obtain ⟨rfl, -⟩ := List.cons.inj hrest
        have hunsettled := hs.unsettled hpending l (List.mem_append_right _ List.mem_cons_self)
        rw [hunsettled] at hsettles
        cases hsettles

/-- Another `RPC_TIMEOUT` can pass before the next timer. -/
theorem exists_late (h : run (timedStep grace) init ls = some t) {s : Serve} {l : Label}
    (hstep : t.timedStep grace l = some s) (hreopening : Reopening ls l) :
    ∃ more u, run (timedStep grace) s more = some u ∧ ¬ u.IsOnTime := by
  have ht := isTimed_run h
  obtain ⟨hp, hdone, hnow⟩ := looping_of_opens (step_of_timedStep hstep).1 hreopening.1
  have hdone : s.registrationDone = false := hdone.trans (ht.undone hreopening.2.2)
  have hpos : 0 < s.now := by
    rw [hnow, ht.now]
    exact hreopening.2.1
  have hselect : s.timedStep grace .select =
      some { s with phase := .selecting s.now .waiting } := by
    simp [timedStep, step, hp]
  have helapse : ({ s with phase := .selecting s.now .waiting } : Serve).timedStep grace
      (.elapse rpcTimeout) =
      some { s with phase := .selecting s.now .waiting, now := s.now + rpcTimeout } :=
    if_pos ((@allows_iff grace { s with phase := .selecting s.now .waiting } s.now .waiting rfl hdone
      rpcTimeout).mpr (.inr (Nat.le_refl _)))
  refine ⟨[.select, .elapse rpcTimeout], _,
    run_cons_eq_some.mpr ⟨_, hselect, run_cons_eq_some.mpr ⟨_, helapse, rfl⟩⟩, ?_⟩
  intro hontime
  have hle := hontime (isPending_of_selecting rfl hdone)
  exact absurd hle (Nat.not_le.mpr (Nat.lt_add_of_pos_left hpos))

end Bound

end Serve

end Libcfd.Edge.H2
