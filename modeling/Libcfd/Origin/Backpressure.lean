import Libcfd.Origin.Pump

/-!
# Does one direction wait for the other?

An arm of `pump` keeps the task until all it has read is written. The directions are independent as
long as what an arm reads fits into its sink. Once it does not, the other direction waits for a peer
that may itself be waiting: an origin that echoes stops both.
-/

namespace Libcfd.Origin

open Libcfd.Machine

open Function (update update_self)

def Direction.other : Direction → Direction
  | .toOrigin => .toEdge
  | .toEdge => .toOrigin

theorem Direction.eq_other_of_ne {d d' : Direction} (h : d' ≠ d) : d' = d.other := by
  cases d <;> cases d' <;> first | rfl | exact absurd rfl h

theorem Direction.other_other (d : Direction) : d.other.other = d := by
  cases d <;> rfl

theorem Direction.other_ne (d : Direction) : d.other ≠ d := by
  cases d <;> exact nofun

namespace Pump

/-! ## Forwarding -/

/-- Steps the task takes by itself while no half fails. -/
def Label.isOwn : Label → Bool
  | .read .. | .readEnd _ | .write .. | .closed _ => true
  | _ => false

/-- The task can move bytes of this direction without anything happening at the peers. -/
def CanForward (s : Pump) (d : Direction) : Prop :=
  ∃ ls t bytes, (∀ l ∈ ls, l.isOwn = true) ∧ run step s ls = some t ∧ bytes ≠ [] ∧
    (t.sink d).received = (s.sink d).received ++ bytes

/-- Each unfinished direction that has something to read and room to write it can forward. -/
def Independent (s : Pump) : Prop :=
  ∀ d, s.finished d = false → (s.source d).available ≠ [] → 0 < (s.sink d).room → s.CanForward d

/-- There is, or there may still be, something to forward. -/
def IsLive (s : Pump) (d : Direction) : Prop :=
  s.finished d = false ∧ ((s.source d).available ≠ [] ∨ (s.source d).ended = false) ∧
    0 < (s.sink d).capacity

/-- The condition on a step: an arm is not entered that could be kept waiting while the other
direction is live. -/
def Fits (s : Pump) : Label → Prop
  | .read d n => n ≤ (s.sink d).room ∨ ¬ s.IsLive d.other
  | .readEnd d => (s.sink d).isClosable = true ∨ ¬ s.IsLive d.other
  | _ => True

/-- No arm is kept waiting while the other direction is live. -/
structure Unblocked (s : Pump) : Prop where
  writing : ∀ d pending, s.phase = .writing d pending →
    pending ≠ [] ∧ s.finished d = false ∧ (pending.length ≤ (s.sink d).room ∨ ¬ s.IsLive d.other)
  closing : ∀ d, s.phase = .closing d →
    s.finished d = true ∧ ((s.sink d).isClosable = true ∨ ¬ s.IsLive d.other)
  returned : s.phase = .returned → ∀ d, s.finished d = true

section Step

variable {s t : Pump} {l : Label}

theorem finished_of_step (hstep : Steps s l t) {d : Direction} (h : t.finished d = false) :
    s.finished d = false := by
  cases hstep with
  | @readEnd d₀ | @readFails d₀ | @writeFails d₀ =>
      by_cases hne : d = d₀
      · subst hne
        simp [finish] at h
      · simpa [finish, hne] using h
  | read | writeSome | writeLast | closed | arrives | ends | drains => exact h

theorem capacity_of_step (hstep : Steps s l t) (d : Direction) :
    (t.sink d).capacity = (s.sink d).capacity := by
  cases hstep with
  | @readEnd d₀ | @writeSome d₀ | @writeLast d₀ | drains d₀ =>
      by_cases hne : d = d₀
      · subst hne
        simp
      · simp [hne]
  | read | readFails | writeFails | closed | arrives | ends => rfl

/-- A direction does not come back to life. -/
theorem isLive_of_step (hstep : Steps s l t) {d : Direction} (h : t.IsLive d) : s.IsLive d := by
  obtain ⟨hopen, hmore, hcapacity⟩ := h
  refine ⟨finished_of_step hstep hopen, ?_, (capacity_of_step hstep d).symm ▸ hcapacity⟩
  cases hstep with
  | @read d₀ n hphase hopen' hn hle =>
      by_cases hne : d = d₀
      · subst hne
        refine .inl fun hnil => ?_
        rw [hnil] at hle
        exact absurd hn (Nat.not_lt.mpr hle)
      · simpa [hne] using hmore
  | @arrives d₀ bytes hended =>
      by_cases hne : d = d₀
      · subst hne
        exact .inr hended
      · simpa [hne] using hmore
  | ends d₀ =>
      by_cases hne : d = d₀
      · subst hne
        exact .inl (by simpa using hmore)
      · simpa [hne] using hmore
  | readEnd | readFails | writeSome | writeLast | writeFails | closed | drains => exact hmore

/-- The peers only make room. -/
theorem room_of_drains (s : Pump) (d₀ : Direction) (n : Nat) (d : Direction) :
    let sink := update s.sink d₀ { s.sink d₀ with buffered := (s.sink d₀).buffered.drop n }
    (s.sink d).room ≤ (sink d).room ∧
      ((s.sink d).isClosable = true → (sink d).isClosable = true) := by
  intro sink
  by_cases hne : d = d₀
  · subst hne
    simp only [sink, update_self, Sink.room, Sink.isClosable, List.length_drop]
    refine ⟨by omega, fun h => ?_⟩
    rcases Bool.or_eq_true_iff.mp h with hlingers | hempty
    · exact Bool.or_eq_true_iff.mpr (.inl hlingers)
    · rw [List.isEmpty_iff.mp hempty]
      simp
  · simp [sink, hne]

theorem unblocked_start (available : Direction → List UInt8) (capacity : Direction → Nat)
    (lingers : Direction → Bool) : Unblocked (start available capacity lingers) where
  writing d pending h := by cases h
  closing d h := by cases h
  returned h := by cases h

/-- The task stays unblocked when its steps meet the condition. -/
theorem unblocked_step (h : Unblocked s) (hC : s.Fits l) (hstep : Steps s l t) : Unblocked t := by
  have hlive : ∀ d, ¬ s.IsLive d → ¬ t.IsLive d := fun d => mt (isLive_of_step hstep)
  refine ⟨?_, ?_, ?_⟩
  · intro d pending hphase
    cases hstep with
    | @read d₀ n hphase' hopen hn hle =>
        cases hphase
        refine ⟨?_, hopen, ?_⟩
        · refine List.ne_nil_of_length_pos ?_
          rw [List.length_take]
          omega
        · rw [List.length_take, Nat.min_eq_left hle]
          exact hC.imp_right (hlive _)
    | @writeSome d₀ n pending₀ hphase' hroom hrest =>
        cases hphase
        obtain ⟨_, hopen, hfits⟩ := h.writing d pending₀ hphase'
        refine ⟨hrest, hopen, hfits.imp (fun hle => ?_) (hlive _)⟩
        simp only [update_self, Sink.room, List.length_append, List.length_take, List.length_drop]
          at hle ⊢
        omega
    | readEnd => cases hphase
    | readFails | writeLast | writeFails | closed => exact absurd hphase (again_ne_writing _ _ _)
    | arrives | ends =>
        obtain ⟨hne, hopen, hfits⟩ := h.writing d pending hphase
        exact ⟨hne, hopen, hfits.imp_right (hlive _)⟩
    | drains d₀ n =>
        obtain ⟨hne, hopen, hfits⟩ := h.writing d pending hphase
        exact ⟨hne, hopen, hfits.imp (Nat.le_trans · (room_of_drains s d₀ n d).1) (hlive _)⟩
  · intro d hphase
    cases hstep with
    | read | writeSome => cases hphase
    | @readEnd d₀ hphase' hopen hempty hended =>
        cases hphase
        refine ⟨by simp [finish], Or.imp (fun hclosable => ?_) (hlive _) hC⟩
        simpa [Sink.isClosable] using hclosable
    | readFails | writeLast | writeFails | closed => exact absurd hphase (again_ne_closing _ _)
    | arrives | ends =>
        obtain ⟨hfinished, hfits⟩ := h.closing d hphase
        exact ⟨hfinished, hfits.imp_right (hlive _)⟩
    | drains d₀ n =>
        obtain ⟨hfinished, hfits⟩ := h.closing d hphase
        exact ⟨hfinished, hfits.imp (room_of_drains s d₀ n d).2 (hlive _)⟩
  · intro hphase
    cases hstep with
    | read | writeSome | readEnd => cases hphase
    | readFails | writeLast | writeFails | closed => exact finished_of_again hphase
    | arrives | ends | drains => exact h.returned hphase

end Step

/-! ### What an unblocked task can do -/

section CanForward

variable {s t : Pump} {d : Direction} {pending : List UInt8}

theorem step_read (hphase : s.phase = .selecting) (hopen : s.finished d = false)
    (havailable : (s.source d).available ≠ []) :
    ∃ t, s.step (.read d 1) = some t ∧
      t.phase = .writing d ((s.source d).available.take 1) ∧ t.sink = s.sink := by
  have hlength : 1 ≤ (s.source d).available.length := List.length_pos_of_ne_nil havailable
  exact ⟨_, if_pos ⟨hphase, hopen, Nat.one_pos, by decide, hlength⟩, rfl, rfl⟩

theorem step_write {n : Nat} (hphase : s.phase = .writing d pending) (hn : 0 < n)
    (hle : n ≤ pending.length) (hroom : n ≤ (s.sink d).room) :
    ∃ t, s.step (.write d n) = some t ∧ t.finished = s.finished ∧ t.source = s.source ∧
      (t.sink d).received = (s.sink d).received ++ pending.take n ∧
      (∀ d', d' ≠ d → t.sink d' = s.sink d') ∧
      (n = pending.length → t.phase = again s.finished) := by
  rw [step, hphase]
  refine ⟨_, if_pos ⟨rfl, hn, hle, hroom⟩, rfl, rfl, by simp, fun d' hne => by simp [hne], ?_⟩
  rintro rfl
  simp

theorem canForward_of_writing (hphase : s.phase = .writing d pending) (hpending : pending ≠ [])
    (hroom : 0 < (s.sink d).room) : s.CanForward d := by
  have hlength := List.length_pos_of_ne_nil hpending
  obtain ⟨t, hstep, _, _, hreceived, _⟩ := step_write hphase
    (Nat.lt_min.mpr ⟨hlength, hroom⟩) (Nat.min_le_left _ _) (Nat.min_le_right _ _)
  refine ⟨[_], t, _, List.forall_mem_singleton.mpr rfl, run_cons_eq_some.mpr ⟨t, hstep, rfl⟩, ?_,
    hreceived⟩
  refine List.ne_nil_of_length_pos ?_
  rw [List.length_take]
  omega

theorem canForward_of_step {l : Label} (hown : l.isOwn = true) (hstep : s.step l = some t)
    (hreceived : (t.sink d).received = (s.sink d).received) (h : t.CanForward d) :
    s.CanForward d := by
  obtain ⟨ls, u, bytes, hls, hrun, hbytes, hu⟩ := h
  refine ⟨l :: ls, u, bytes, ?_, run_cons_eq_some.mpr ⟨t, hstep, hrun⟩, hbytes, ?_⟩
  · exact List.forall_mem_cons.mpr ⟨hown, hls⟩
  · rw [hu, hreceived]

theorem canForward_of_selecting (hphase : s.phase = .selecting) (hopen : s.finished d = false)
    (havailable : (s.source d).available ≠ []) (hroom : 0 < (s.sink d).room) :
    s.CanForward d := by
  obtain ⟨t, hstep, hphase', hsink⟩ := step_read hphase hopen havailable
  refine canForward_of_step rfl hstep (by rw [hsink]) (canForward_of_writing hphase' ?_ ?_)
  · rw [Ne, List.take_eq_nil_iff, not_or]
    exact ⟨Nat.one_ne_zero, havailable⟩
  · rwa [hsink]

theorem again_of_open (hopen : s.finished d = false) : again s.finished = .selecting := by
  rw [again]
  cases d <;> rw [hopen] <;> simp

/-- **Independence.** An unblocked task serves each direction whatever the other one does. -/
theorem independent_of_unblocked (h : Unblocked s) : Independent s := by
  intro d hopen havailable hroom
  have hlive : s.IsLive d := ⟨hopen, .inl havailable, Nat.lt_of_lt_of_le hroom (Nat.sub_le _ _)⟩
  cases hphase : s.phase with
  | selecting => exact canForward_of_selecting hphase hopen havailable hroom
  | writing d' pending =>
      obtain ⟨hpending, _, hfits⟩ := h.writing d' pending hphase
      by_cases hne : d = d'
      · subst hne
        exact canForward_of_writing hphase hpending hroom
      · -- the write under way ends, and then the task selects
        have hle : pending.length ≤ (s.sink d').room := by
          rw [Direction.eq_other_of_ne hne] at hlive
          exact hfits.resolve_right (not_not_intro hlive)
        obtain ⟨t, hstep, hfinished, hsource, _, hsink, hagain⟩ := step_write hphase
          (List.length_pos_of_ne_nil hpending) (Nat.le_refl _) hle
        refine canForward_of_step rfl hstep (by rw [hsink d hne]) ?_
        refine canForward_of_selecting ((hagain rfl).trans (again_of_open hopen)) ?_ ?_ ?_
        · rwa [hfinished]
        · rwa [hsource]
        · rwa [hsink d hne]
  | closing d' =>
      obtain ⟨hfinished, hfits⟩ := h.closing d' hphase
      have hne : d ≠ d' := by
        rintro rfl
        cases hopen.symm.trans hfinished
      have hclosable : (s.sink d').isClosable = true := by
        rw [Direction.eq_other_of_ne hne] at hlive
        exact hfits.resolve_right (not_not_intro hlive)
      have hstep : s.step (.closed d') = some { s with phase := again s.finished } :=
        if_pos ⟨hphase, hclosable⟩
      refine canForward_of_step rfl hstep rfl ?_
      exact canForward_of_selecting (again_of_open hopen) hopen havailable hroom
  | returned => exact absurd (hopen.symm.trans (h.returned hphase d)) Bool.false_ne_true

end CanForward

/-! ### What a blocked task cannot do -/

/-- The task waits in an arm: its write finds no room, or its close waits for the peer. -/
def IsStuck (s : Pump) (d : Direction) : Prop :=
  (∃ pending, s.phase = .writing d pending ∧ (s.sink d).room = 0) ∨
    s.phase = .closing d ∧ (s.sink d).isClosable = false

section Stuck

variable {s t : Pump} {d : Direction}

theorem IsStuck.step_own (h : s.IsStuck d) {l : Label} (hl : l.isOwn = true) : s.step l = none := by
  rcases h with ⟨pending, hphase, hroom⟩ | ⟨hphase, hclosable⟩
  · cases l with
    | write d' n =>
        rw [step, hphase]
        refine if_neg ?_
        rintro ⟨rfl, hn, _, hle⟩
        omega
    | read | readEnd | closed => simp [step, hphase]
    | readFails | writeFails | arrives | ends | drains => cases hl
  · cases l with
    | closed d' =>
        refine if_neg ?_
        rintro ⟨hphase', hclosable'⟩
        cases hphase.symm.trans hphase'
        cases hclosable.symm.trans hclosable'
    | read | readEnd | write => simp [step, hphase]
    | readFails | writeFails | arrives | ends | drains => cases hl

/-- A task that waits in one arm does not serve the other. -/
theorem IsStuck.not_canForward (h : s.IsStuck d) (d' : Direction) : ¬ s.CanForward d' := by
  rintro ⟨ls, t, bytes, hown, hrun, hbytes, hreceived⟩
  cases ls with
  | nil =>
      cases hrun
      exact hbytes (List.self_eq_append_right.mp hreceived)
  | cons l ls =>
      obtain ⟨u, hstep, _⟩ := run_cons_eq_some.mp hrun
      rw [h.step_own (hown l List.mem_cons_self)] at hstep
      cases hstep

/-- The peers of the other direction can make it one that should be served. -/
theorem IsStuck.exists_not_independent (h : s.IsStuck d) (hlive : s.IsLive d.other) :
    ∃ ls t, run step s ls = some t ∧ ¬ Independent t := by
  obtain ⟨hopen, hmore, hcapacity⟩ := hlive
  have hne := d.other_ne
  -- the sink of the other direction is emptied
  let u : Pump := { s with sink := update s.sink d.other { s.sink d.other with
    buffered := (s.sink d.other).buffered.drop (s.sink d.other).buffered.length } }
  have hu : s.step (.drains d.other (s.sink d.other).buffered.length) = some u := rfl
  have hroom : 0 < (u.sink d.other).room := by simpa [u, Sink.room] using hcapacity
  have hsink : u.sink d = s.sink d := by simp [u, hne.symm]
  have hstuck : u.IsStuck d := by
    rw [IsStuck, hsink]
    exact h
  by_cases havailable : (s.source d.other).available = []
  · have hended : (s.source d.other).ended = false :=
      hmore.resolve_left (not_not_intro havailable)
    let v : Pump := { u with source := update u.source d.other { u.source d.other with
      available := (u.source d.other).available ++ [0] } }
    have hv : u.step (.arrives d.other [0]) = some v := if_pos hended
    refine ⟨[_, _], v, run_cons_eq_some.mpr ⟨u, hu, run_cons_eq_some.mpr ⟨v, hv, rfl⟩⟩, ?_⟩
    have hstuck' : v.IsStuck d := hstuck
    exact fun hind => hstuck'.not_canForward _ (hind d.other hopen (by simp [v]) hroom)
  · refine ⟨[_], u, run_cons_eq_some.mpr ⟨u, hu, rfl⟩, ?_⟩
    exact fun hind => hstuck.not_canForward _ (hind d.other hopen havailable hroom)

theorem IsLive.congr (h : s.IsLive d) (hfinished : t.finished d = s.finished d)
    (hsource : t.source d = s.source d) (hcapacity : (t.sink d).capacity = (s.sink d).capacity) :
    t.IsLive d := by
  rw [IsLive, hfinished, hsource, hcapacity]
  exact h

/-- The arm writes until its sink is full. -/
theorem exists_stuck {pending : List UInt8} (hphase : s.phase = .writing d pending)
    (hroom : (s.sink d).room < pending.length) (hlive : s.IsLive d.other) :
    ∃ ls t, run step s ls = some t ∧ t.IsStuck d ∧ t.IsLive d.other := by
  by_cases hzero : (s.sink d).room = 0
  · exact ⟨[], s, rfl, .inl ⟨pending, hphase, hzero⟩, hlive⟩
  · have hpos : 0 < (s.sink d).room := Nat.pos_of_ne_zero hzero
    have hrest : pending.drop (s.sink d).room ≠ [] := by
      rw [Ne, List.drop_eq_nil_iff]
      exact Nat.not_le.mpr hroom
    let t : Pump := { s with
      phase := .writing d (pending.drop (s.sink d).room)
      sink := update s.sink d { s.sink d with
        buffered := (s.sink d).buffered ++ pending.take (s.sink d).room
        received := (s.sink d).received ++ pending.take (s.sink d).room } }
    have hstep : s.step (.write d (s.sink d).room) = some t := by
      have hnot : ¬ pending.length ≤ (s.sink d).room := Nat.not_le.mpr hroom
      rw [step, hphase]
      simp [t, hpos, Nat.le_of_lt hroom, hnot]
    refine ⟨[_], t, run_cons_eq_some.mpr ⟨t, hstep, rfl⟩, .inl ⟨_, rfl, ?_⟩, ?_⟩
    · simp only [t, update_self, Sink.room, List.length_append, List.length_take]
      simp only [Sink.room] at hroom
      omega
    · exact hlive.congr rfl rfl (by simp [t, d.other_ne])

/-- A step that breaks the condition can be followed by a state without independence. -/
theorem exists_not_independent {l : Label} (hstep : s.step l = some t) (hC : ¬ s.Fits l) :
    ∃ ls u, run step t ls = some u ∧ ¬ Independent u := by
  cases steps_of_step hstep with
  | @read d n hphase hopen hn hle =>
      obtain ⟨hroom, hlive⟩ := not_or.mp hC
      let t : Pump := { s with
        phase := .writing d ((s.source d).available.take n)
        source := update s.source d { s.source d with
          available := (s.source d).available.drop n
          taken := (s.source d).taken ++ (s.source d).available.take n } }
      have hlength : (t.sink d).room < ((s.source d).available.take n).length := by
        rw [List.length_take, Nat.min_eq_left hle]
        exact Nat.lt_of_not_le hroom
      have hlive' : t.IsLive d.other :=
        (Classical.not_not.mp hlive).congr rfl (by simp [t, d.other_ne]) rfl
      obtain ⟨ls, u, hrun, hstuck, hlive''⟩ := exists_stuck (s := t) rfl hlength hlive'
      obtain ⟨ls', v, hrun', hnot⟩ := hstuck.exists_not_independent hlive''
      exact ⟨ls ++ ls', v, run_append_eq_some.mpr ⟨u, hrun, hrun'⟩, hnot⟩
  | @readEnd d hphase hopen hempty hended =>
      obtain ⟨hclosable, hlive⟩ := not_or.mp hC
      have hlive' := Classical.not_not.mp hlive
      let t : Pump := { s with
        phase := .closing d
        finished := s.finish d
        sink := update s.sink d { s.sink d with closes := (s.sink d).closes + 1 } }
      have hstuck : t.IsStuck d := .inr ⟨rfl, by simpa [t, Sink.isClosable] using hclosable⟩
      exact hstuck.exists_not_independent
        (hlive'.congr (by simp [t, finish, d.other_ne]) rfl (by simp [t, d.other_ne]))
  | readFails | writeSome | writeLast | writeFails | closed | arrives | ends | drains =>
      exact absurd trivial hC

end Stuck

/-! ## An origin that echoes -/

/-- What the origin does at its ends of the two directions. -/
def Label.isOrigins : Label → Bool
  | .arrives .toEdge _ | .ends .toEdge | .drains .toOrigin _ => true
  | _ => false

inductive EchoLabel where
  -- the task and the edge
  | other (label : Label)
  -- the origin takes some of its input and puts it out again
  | echo (n : Nat)
  | finish
  deriving DecidableEq, Repr

/-- The origin reads input when its output has been drained, at most `outputSize` bytes of it, and
ends its output when its input is closed and all of it echoed. -/
def echoStep (outputSize : Nat) (s : Pump) : EchoLabel → Option Pump
  | .other l => if l.isOrigins then none else s.step l
  | .echo n =>
      if (s.source .toEdge).available = [] ∧ 0 < n ∧ n ≤ outputSize ∧
          n ≤ (s.sink .toOrigin).buffered.length then
        run step s [.drains .toOrigin n, .arrives .toEdge ((s.sink .toOrigin).buffered.take n)]
      else none
  | .finish =>
      if (s.source .toEdge).available = [] ∧ (s.sink .toOrigin).buffered = [] ∧
          0 < (s.sink .toOrigin).closes then
        s.step (.ends .toEdge)
      else none

/-- Bytes that are on their way. -/
def HasWork (s : Pump) : Prop :=
  (s.finished .toOrigin = false ∧ (s.source .toOrigin).available ≠ []) ∨
    (∃ d pending, s.phase = .writing d pending) ∨ (s.sink .toOrigin).buffered ≠ [] ∨
    (s.source .toEdge).available ≠ []

/-- The edge has room for what comes back, bytes are on their way, and neither the task nor the
origin takes a step. -/
structure Deadlocked (outputSize : Nat) (s : Pump) : Prop where
  unfinished : s.finished .toEdge = false
  room : 0 < (s.sink .toEdge).room
  work : s.HasWork
  task : ∀ l, l.isOwn = true → s.step l = none
  echo : ∀ n, s.echoStep outputSize (.echo n) = none

def EchoFits (s : Pump) : EchoLabel → Prop
  | .other l => s.Fits l
  | _ => True

/-- The origin ends its output after its input. -/
structure Echoing (s : Pump) : Prop where
  closed : 0 < (s.sink .toOrigin).closes → s.finished .toOrigin = true
  ended : (s.source .toEdge).ended = true →
    (s.sink .toOrigin).buffered = [] ∧ 0 < (s.sink .toOrigin).closes

section Echo

variable {outputSize : Nat} {s t : Pump}

theorem echoing_of_same (h : Echoing s)
    (hcloses : (t.sink .toOrigin).closes = (s.sink .toOrigin).closes)
    (hfinished : s.finished .toOrigin = true → t.finished .toOrigin = true)
    (hended : (t.source .toEdge).ended = (s.source .toEdge).ended)
    (hbuffered : (s.sink .toOrigin).buffered = [] → (s.source .toEdge).ended = true →
      (t.sink .toOrigin).buffered = []) : Echoing t where
  closed hpos := hfinished (h.closed (hcloses ▸ hpos))
  ended hend := by
    rw [hended] at hend
    obtain ⟨hempty, hpos⟩ := h.ended hend
    exact ⟨hbuffered hempty hend, hcloses.symm ▸ hpos⟩

theorem echoing_step (h : Echoing s) (hunblocked : Unblocked s) {l : Label}
    (hl : l ≠ .ends .toEdge) (hstep : Steps s l t) : Echoing t := by
  have hmono : s.finished .toOrigin = true → t.finished .toOrigin = true := by
    intro htrue
    by_contra hnot
    cases htrue.symm.trans (finished_of_step hstep (Bool.eq_false_iff.mpr hnot))
  -- nothing is written to an origin whose output has ended
  have hwriting : ∀ pending, s.phase = .writing .toOrigin pending →
      (s.source .toEdge).ended ≠ true := by
    intro pending hphase hended
    obtain ⟨_, hopen, _⟩ := hunblocked.writing _ _ hphase
    cases hopen.symm.trans (h.closed (h.ended hended).2)
  cases hstep with
  | @read d n hphase hopen hn hle =>
      refine echoing_of_same h rfl hmono ?_ fun hempty _ => hempty
      cases d <;> simp
  | @readEnd d hphase hopen hempty hended =>
      cases d with
      | toOrigin =>
          refine ⟨fun _ => by simp [finish], fun hend => ⟨?_, by simp⟩⟩
          simpa using (h.ended hend).1
      | toEdge => exact echoing_of_same h (by simp) hmono rfl fun hempty _ => by simpa using hempty
  | @writeSome d n pending hphase hroom hrest | @writeLast d n pending hphase hroom hall =>
      cases d with
      | toOrigin =>
          exact echoing_of_same h (by simp) hmono rfl fun _ hend =>
            absurd hend (hwriting pending hphase)
      | toEdge => exact echoing_of_same h (by simp) hmono rfl fun hempty _ => by simpa using hempty
  | readFails | writeFails | closed =>
      exact echoing_of_same h rfl hmono rfl fun hempty _ => hempty
  | @arrives d bytes hopen =>
      refine echoing_of_same h rfl hmono ?_ fun hempty _ => hempty
      cases d <;> simp
  | ends d =>
      cases d with
      | toOrigin => exact echoing_of_same h rfl hmono (by simp) fun hempty _ => hempty
      | toEdge => exact absurd rfl hl
  | drains d n =>
      refine echoing_of_same h ?_ hmono rfl fun hempty _ => ?_
      · cases d <;> simp
      · cases d <;> simp [hempty]

/-- An echo is two steps of the peers. -/
theorem echoing_echoStep (h : Echoing s) (hunblocked : Unblocked s) {l : EchoLabel}
    (hC : s.EchoFits l) (hstep : s.echoStep outputSize l = some t) : Unblocked t ∧ Echoing t := by
  cases l with
  | other l =>
      rw [echoStep] at hstep
      split at hstep
      · cases hstep
      · next hl =>
          have hsteps := steps_of_step hstep
          refine ⟨unblocked_step hunblocked hC hsteps, echoing_step h hunblocked ?_ hsteps⟩
          rintro rfl
          exact hl rfl
  | echo n =>
      obtain ⟨_, hrun⟩ := Option.ite_none_right_eq_some.mp hstep
      obtain ⟨u, hdrains, hrest⟩ := run_cons_eq_some.mp hrun
      obtain ⟨v, harrives, hnil⟩ := run_cons_eq_some.mp hrest
      cases hnil
      have hunblocked' :=
        unblocked_step (l := .drains .toOrigin n) hunblocked trivial (steps_of_step hdrains)
      have h' :=
        echoing_step (l := .drains .toOrigin n) h hunblocked nofun (steps_of_step hdrains)
      have hsteps := steps_of_step harrives
      exact ⟨unblocked_step (l := .arrives .toEdge _) hunblocked' trivial hsteps,
        echoing_step (l := .arrives .toEdge _) h' hunblocked' nofun hsteps⟩
  | finish =>
      obtain ⟨⟨_, hempty, hpos⟩, hstep⟩ := Option.ite_none_right_eq_some.mp hstep
      refine ⟨unblocked_step (l := .ends .toEdge) hunblocked trivial (steps_of_step hstep), ?_⟩
      cases hstep
      exact ⟨h.closed, fun _ => ⟨hempty, hpos⟩⟩

/-- **No deadlock.** An unblocked task and an origin that echoes do not wait for each other. -/
theorem not_deadlocked (h : Echoing s) (hunblocked : Unblocked s) (hsize : 0 < outputSize) :
    ¬ Deadlocked outputSize s := by
  rintro ⟨hopen, hroom, hwork, htask, hecho⟩
  have hcapacity : 0 < (s.sink .toEdge).capacity := Nat.lt_of_lt_of_le hroom (Nat.sub_le _ _)
  -- without output the origin has echoed everything
  have hechoed : (s.source .toEdge).available = [] → (s.sink .toOrigin).buffered = [] := by
    intro havailable
    by_contra hbuffered
    have hended : (s.source .toEdge).ended = false :=
      Bool.eq_false_iff.mpr fun hended => hbuffered (h.ended hended).1
    have hnone := hecho 1
    rw [echoStep, if_pos ⟨havailable, Nat.one_pos, hsize, List.length_pos_of_ne_nil hbuffered⟩]
      at hnone
    simp [step, hended] at hnone
  -- without output the origin has not ended, or its input is closed
  have hdead : ¬ s.IsLive .toEdge → (s.sink .toOrigin).buffered = [] ∧
      s.finished .toOrigin = true := by
    intro hnot
    have hended : (s.source .toEdge).ended = true := by
      by_contra hnotended
      exact hnot ⟨hopen, .inr (Bool.eq_false_iff.mpr hnotended), hcapacity⟩
    obtain ⟨hempty, hpos⟩ := h.ended hended
    exact ⟨hempty, h.closed hpos⟩
  cases hphase : s.phase with
  | selecting =>
      have hread : ∀ d, s.finished d = false → (s.source d).available = [] := by
        intro d hd
        by_contra havailable
        obtain ⟨t, hstep, _⟩ := step_read hphase hd havailable
        cases (htask (.read d 1) rfl).symm.trans hstep
      have havailable := hread .toEdge hopen
      rcases hwork with ⟨hd, hne⟩ | ⟨d, pending, hwriting⟩ | hbuffered | hne
      · exact hne (hread .toOrigin hd)
      · cases hphase.symm.trans hwriting
      · exact hbuffered (hechoed havailable)
      · exact hne havailable
  | writing d pending =>
      obtain ⟨hpending, hd, hfits⟩ := hunblocked.writing d pending hphase
      have hlength := List.length_pos_of_ne_nil hpending
      have hfull : (s.sink d).room = 0 := by
        by_contra hne
        obtain ⟨t, hstep, _⟩ := step_write hphase Nat.one_pos hlength (Nat.pos_of_ne_zero hne)
        cases (htask (.write d 1) rfl).symm.trans hstep
      cases d with
      | toEdge => omega
      | toOrigin =>
          rcases hfits with hle | hnot
          · omega
          · cases hd.symm.trans (hdead hnot).2
  | closing d =>
      obtain ⟨hd, hfits⟩ := hunblocked.closing d hphase
      cases d with
      | toEdge => cases hopen.symm.trans hd
      | toOrigin =>
          have hclosable : (s.sink .toOrigin).isClosable = true := by
            rcases hfits with hclosable | hnot
            · exact hclosable
            · rw [Sink.isClosable, (hdead hnot).1]
              simp
          have hstep : s.step (.closed .toOrigin) = some { s with phase := again s.finished } :=
            if_pos ⟨hphase, hclosable⟩
          cases (htask (.closed .toOrigin) rfl).symm.trans hstep
  | returned => cases hopen.symm.trans (hunblocked.returned hphase .toEdge)

end Echo

/-! ## Runs -/

section Run

variable (available : Direction → List UInt8) (capacity : Direction → Nat)
  (lingers : Direction → Bool)

theorem echoing_start : Echoing (start available capacity lingers) where
  closed h := absurd h (Nat.lt_irrefl 0)
  ended h := absurd h Bool.false_ne_true

/-- **Backpressure.** In every run whose arms are entered only when they cannot be kept waiting,
both directions are independent in every state, and an origin that echoes is never waited for in a
circle. An arm entered otherwise can lead to a state without independence. -/
theorem pump_independent :
    (∀ ls t, run step (start available capacity lingers) ls = some t →
      Always step Fits (start available capacity lingers) ls → Independent t) ∧
    (∀ outputSize ls t, 0 < outputSize →
      run (echoStep outputSize) (start available capacity lingers) ls = some t →
      Always (echoStep outputSize) EchoFits (start available capacity lingers) ls →
      ¬ Deadlocked outputSize t) ∧
    ∀ ls s l t, run step (start available capacity lingers) ls = some s → step s l = some t →
      ¬ Fits s l → ∃ more u, run step t more = some u ∧ ¬ Independent u := by
  refine ⟨fun ls t hrun hC => ?_, fun outputSize ls t hsize hrun hC => ?_, ?_⟩
  · have hunblocked := run_invariant_of_always Unblocked
      (fun s l t hs hfits hstep => unblocked_step hs hfits (steps_of_step hstep))
      (unblocked_start available capacity lingers) hrun hC
    exact independent_of_unblocked hunblocked
  · have hboth := run_invariant_of_always (fun s => Unblocked s ∧ Echoing s)
      (fun s l t hs hfits hstep => echoing_echoStep hs.2 hs.1 hfits hstep)
      ⟨unblocked_start available capacity lingers, echoing_start available capacity lingers⟩ hrun hC
    exact not_deadlocked hboth.2 hboth.1 hsize
  · intro ls s l t _ hstep hC
    exact exists_not_independent hstep hC

/-- A byte for the origin, and room for it. -/
theorem pump_independent_fitting :
    ∃ t, run step (start (fun _ => [1]) (fun _ => 1) fun _ => false) [.read .toOrigin 1] =
      some t ∧ Independent t := by
  obtain ⟨t, hrun⟩ : ∃ t, run step (start (fun _ => [1]) (fun _ => 1) fun _ => false)
      [.read .toOrigin 1] = some t := ⟨_, rfl⟩
  refine ⟨t, hrun, (pump_independent _ _ _).1 _ t hrun ?_⟩
  exact ⟨.inl (Nat.le_refl 1), fun _ _ => trivial⟩

/-- Three bytes for an origin that echoes one at a time: the second waits in the origin's input for
the first to be taken from its output, the task waits for room for the third, and nobody takes the
first. -/
theorem echo_deadlock :
    ∃ ls t, run (echoStep 1) (start (fun | .toOrigin => [1, 2, 3] | .toEdge => []) (fun _ => 1)
        fun _ => false) ls = some t ∧
      Deadlocked 1 t ∧ ¬ Independent t := by
  obtain ⟨t, hrun, hphase, hfull, hopen, havailable, hroom⟩ : ∃ t, run (echoStep 1)
      (start (fun | .toOrigin => [1, 2, 3] | .toEdge => []) (fun _ => 1) fun _ => false)
      [.other (.read .toOrigin 3), .other (.write .toOrigin 1), .echo 1,
        .other (.write .toOrigin 1)] = some t ∧
      t.phase = .writing .toOrigin [3] ∧ (t.sink .toOrigin).room = 0 ∧
      t.finished .toEdge = false ∧ (t.source .toEdge).available = [1] ∧
      (t.sink .toEdge).room = 1 := ⟨_, rfl, rfl, rfl, rfl, rfl, rfl⟩
  have hstuck : t.IsStuck .toOrigin := .inl ⟨[3], hphase, hfull⟩
  have hne : (t.source .toEdge).available ≠ [] := by
    rw [havailable]
    exact List.cons_ne_nil 1 []
  have hpos : 0 < (t.sink .toEdge).room := by
    rw [hroom]
    exact Nat.one_pos
  refine ⟨_, t, hrun, ⟨hopen, hpos, .inr (.inl ⟨_, _, hphase⟩), ?_, ?_⟩, ?_⟩
  · exact fun l hl => hstuck.step_own hl
  · exact fun n => if_neg fun h => hne h.1
  · exact fun hind => hstuck.not_canForward _ (hind .toEdge hopen hne hpos)

end Run

end Pump

end Libcfd.Origin
