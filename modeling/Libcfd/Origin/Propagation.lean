import Libcfd.Origin.Backpressure

/-!
# Is the end of a direction passed on?

A direction that comes to the end of its source closes its sink. One that ends by a failure, of a
read or of a write, only stops, and the peer that the closed sink would have told is told nothing,
also if `pump` returns at once because the other direction has ended before. Where the other is
still open `pump` goes on waiting for it; if its peer stops only once its own input ends, for ever.
-/

namespace Libcfd.Origin

open Libcfd.Machine

namespace Pump

/-- The sink of each direction that has ended is closed. -/
def PassedOn (s : Pump) : Prop := ∀ d, s.finished d = true → 0 < (s.sink d).closes

/-- The condition on a step: no read and no write fails. -/
def FailsNot (_ : Pump) (l : Label) : Prop := l.isFailure = false

/-- The peer of a source stops, without a failure, and not before its own input has been closed. -/
def StopsOnceClosed (s : Pump) : Label → Prop
  | .ends d => 0 < (s.sink d.other).closes
  | .readFails _ | .writeFails _ => False
  | _ => True

section Step

variable {past : List Label} {s t : Pump} {l : Label}

/-- A direction that fails is not passed on. -/
theorem not_passedOn_fail (hfaithful : Faithful past s) {d : Direction}
    (hopen : s.finished d = false) :
    ¬ PassedOn { s with phase := again (s.finish d), finished := s.finish d } := by
  intro hpassed
  have hcloses : 0 < (s.sink d).closes := hpassed d (Function.update_self ..)
  rw [(hfaithful.kept d).unclosed hopen] at hcloses
  exact Nat.lt_irrefl 0 hcloses

/-- One that has been closed stays so. -/
theorem passedOn_frame (hs : s.PassedOn) (hfinished : t.finished = s.finished)
    (hcloses : ∀ d, (t.sink d).closes = (s.sink d).closes) : t.PassedOn := by
  intro d hd
  rw [hcloses]
  rw [hfinished] at hd
  exact hs d hd

theorem passedOn_step (hfaithful : Faithful past s) (hs : s.PassedOn) (hstep : Steps s l t) :
    t.PassedOn ↔ FailsNot s l := by
  have hsame : t.finished = s.finished → (∀ d, (t.sink d).closes = (s.sink d).closes) →
      FailsNot s l → (t.PassedOn ↔ FailsNot s l) := by
    intro hfinished hcloses hl
    exact iff_of_true (passedOn_frame hs hfinished hcloses) hl
  cases hstep with
  | @readFails d hphase hopen => exact iff_of_false (not_passedOn_fail hfaithful hopen) nofun
  | @writeFails d pending hphase =>
      have hopen := hfaithful.writing d pending hphase
      exact iff_of_false (not_passedOn_fail hfaithful hopen) nofun
  | @readEnd d hphase hopen hempty hended =>
      refine iff_of_true (fun d' hd' => ?_) rfl
      by_cases hne : d' = d
      · subst hne
        simp
      · simp only [finish, Function.update_of_ne hne] at hd' ⊢
        exact hs d' hd'
  | read | closed | arrives | ends => exact hsame rfl (fun _ => rfl) rfl
  | @writeSome d | @writeLast d | drains d =>
      refine hsame rfl (fun d' => ?_) rfl
      by_cases hne : d' = d
      · subst hne
        simp
      · simp [hne]

/-- `pump` has nothing left to wait for but a peer whose input it has not closed. -/
structure Abandons (s : Pump) (d : Direction) : Prop where
  finished : s.finished d = true
  closes : (s.sink d).closes = 0
  waits : s.finished d.other = false
  ended : (s.source d.other).ended = false

theorem abandons_step {d : Direction} (h : Abandons s d) (hstops : StopsOnceClosed s l)
    (hstep : Steps s l t) : Abandons t d := by
  cases hstep with
  | @read d' n hphase hopen hn hle =>
      refine ⟨h.finished, h.closes, h.waits, ?_⟩
      by_cases hne : d.other = d'
      · subst hne
        simpa using h.ended
      · simpa [hne] using h.ended
  | @readEnd d' hphase hopen hempty hended =>
      have hother : d' = d.other := Direction.eq_other_of_ne fun heq => by
        rw [heq, h.finished] at hopen
        cases hopen
      rw [hother, h.ended] at hended
      cases hended
  | readFails | writeFails => exact hstops.elim
  | @writeSome d' | @writeLast d' | drains d' =>
      refine ⟨h.finished, ?_, h.waits, h.ended⟩
      by_cases hne : d = d'
      · subst hne
        simpa using h.closes
      · simpa [hne] using h.closes
  | closed => exact ⟨h.finished, h.closes, h.waits, h.ended⟩
  | @arrives d' bytes hopen =>
      refine ⟨h.finished, h.closes, h.waits, ?_⟩
      by_cases hne : d.other = d'
      · subst hne
        simpa using h.ended
      · simpa [hne] using h.ended
  | ends d' =>
      refine ⟨h.finished, h.closes, h.waits, ?_⟩
      by_cases hne : d.other = d'
      · subst hne
        have hcloses : 0 < (s.sink d.other.other).closes := hstops
        rw [Direction.other_other, h.closes] at hcloses
        exact absurd hcloses (Nat.lt_irrefl 0)
      · simpa [hne] using h.ended

end Step

section Run

variable {available : Direction → List UInt8} {capacity : Direction → Nat}
  {lingers : Direction → Bool} {ls : List Label} {t : Pump}

/-- `pump` waits for ever for a peer that stops only once its input has been closed. -/
theorem not_returned_of_abandons (h : run step (start available capacity lingers) ls = some t)
    {d : Direction} (habandons : Abandons t d) {more : List Label} {u : Pump}
    (hmore : run step t more = some u) (hstops : Always step StopsOnceClosed t more) :
    u.phase ≠ .returned := by
  intro hreturned
  have hfaithful : Faithful (ls ++ more) u :=
    faithful_run (run_append_eq_some.mpr ⟨t, h, hmore⟩)
  have hend := run_invariant_of_always (Abandons · d)
    (fun _ _ _ hs hstops hstep => abandons_step hs hstops (steps_of_step hstep))
    habandons hmore hstops
  have hfinished := hfaithful.returned hreturned d.other
  rw [hend.waits] at hfinished
  cases hfinished

/-- **An end is passed on all along a run if and only if no direction fails.** Where one that failed
leaves the other open, `pump` never returns, however it goes on, as long as the peer of the other
waits for its own input to be closed. -/
theorem passedOn_iff_failsNot (h : run step (start available capacity lingers) ls = some t) :
    (Throughout step PassedOn (start available capacity lingers) ls ↔
      Always step FailsNot (start available capacity lingers) ls) ∧
    ∀ d, Abandons t d → ∀ more u, run step t more = some u →
      Always step StopsOnceClosed t more → u.phase ≠ .returned := by
  refine ⟨?_, fun d habandons more u hmore hstops =>
    not_returned_of_abandons h habandons hmore hstops⟩
  refine throughout_iff_always Faithful
    (fun past s l t hs hstep => faithful_step hs (steps_of_step hstep))
    (fun past s l t hfaithful hs hstep => passedOn_step hfaithful hs (steps_of_step hstep))
    (faithful_start available capacity lingers) ?_ h
  exact fun d hfinished => absurd hfinished Bool.false_ne_true

/-- Both sources end, and both ends are passed on. -/
theorem passedOn_both :
    Throughout step PassedOn (start (fun _ => []) (fun _ => 1) fun _ => false)
      [.ends .toOrigin, .readEnd .toOrigin, .closed .toOrigin, .ends .toEdge, .readEnd .toEdge,
        .closed .toEdge] := by
  obtain ⟨t, hrun⟩ : ∃ t, run step (start (fun _ => []) (fun _ => 1) fun _ => false)
      [.ends .toOrigin, .readEnd .toOrigin, .closed .toOrigin, .ends .toEdge, .readEnd .toEdge,
        .closed .toEdge] = some t := ⟨_, rfl⟩
  apply (passedOn_iff_failsNot hrun).1.mpr
  apply always_of_forall_mem
  simp [FailsNot, Label.isFailure]

/-- The edge fails, and the origin is told nothing: it may wait for the end of its input, and `pump`
for the origin. -/
theorem not_passedOn_edge_fails :
    ∃ t, run step (start (fun _ => []) (fun _ => 1) fun _ => false) [.readFails .toOrigin] = some t ∧
      t.phase = .selecting ∧ (t.sink .toOrigin).closes = 0 ∧
      ¬ Throughout step PassedOn (start (fun _ => []) (fun _ => 1) fun _ => false)
        [.readFails .toOrigin] := by
  refine ⟨_, rfl, rfl, rfl, fun hpassed => ?_⟩
  have hcloses := hpassed [.readFails .toOrigin] [] _ rfl rfl .toOrigin rfl
  exact absurd hcloses (Nat.lt_irrefl 0)

end Run

end Pump

end Libcfd.Origin
