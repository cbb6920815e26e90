import Mathlib.Computability.StateTransition
import Mathlib.Data.Fintype.Pigeonhole
import Mathlib.Data.Set.Finite.Basic

/-!
# Loops

A `loop` is its turn, and it is left after finitely many turns or never. Where a turn moves a
position on that what it does depends on alone, the loop is left if and only if the positions end;
and where there are finitely many positions, they end if and only if they do not come round.

    run_mono         : what a loop is left with does not depend on the turns allowed for
    leaves_iff       : the loop is left ↔ the positions end
    ends_iff         : the positions end ↔ there is no cycle ahead
-/

namespace Libcfd.Loop

open StateTransition

variable {σ ρ α : Type}

/-- What a turn comes to: another one, or the result the loop is left with. -/
inductive Turn (σ ρ : Type) where
  | again (s : σ)
  | leave (r : ρ)

/-- The state the next turn begins in. -/
def Turn.next : Turn σ ρ → Option σ
  | .again s => some s
  | .leave _ => none

/-- `loop { .. }`, for `fuel` turns at most. -/
def run (turn : σ → Turn σ ρ) : Nat → σ → Option ρ
  | 0, _ => none
  | fuel + 1, s =>
      match turn s with
      | .again s => run turn fuel s
      | .leave r => some r

/-- After finitely many turns the loop is left with `r`. -/
def Leaves (turn : σ → Turn σ ρ) (s : σ) (r : ρ) : Prop := ∃ fuel, run turn fuel s = some r

section Leaves

variable {turn : σ → Turn σ ρ} {s s' : σ} {r r' : ρ}

theorem run_again (h : turn s = .again s') (fuel : Nat) :
    run turn (fuel + 1) s = run turn fuel s' := by
  rw [run, h]

theorem run_leave (h : turn s = .leave r) (fuel : Nat) : run turn (fuel + 1) s = some r := by
  rw [run, h]

/-- More turns change nothing. -/
theorem run_mono {fuel more : Nat} (h : run turn fuel s = some r) (hle : fuel ≤ more) :
    run turn more s = some r := by
  induction fuel generalizing s more with
  | zero => cases h
  | succ fuel ih =>
      obtain ⟨more, rfl⟩ := Nat.exists_eq_add_of_le' (Nat.le_trans (Nat.le_add_left 1 fuel) hle)
      cases hturn : turn s with
      | again s' =>
          rw [run_again hturn] at h ⊢
          exact ih h (Nat.le_of_succ_le_succ hle)
      | leave r' =>
          rw [run_leave hturn] at h ⊢
          exact h

theorem Leaves.unique (h : Leaves turn s r) (h' : Leaves turn s r') : r = r' := by
  obtain ⟨fuel, h⟩ := h
  obtain ⟨fuel', h'⟩ := h'
  have hmore := run_mono h (Nat.le_max_left fuel fuel')
  rw [run_mono h' (Nat.le_max_right fuel fuel')] at hmore
  exact (Option.some.inj hmore).symm

theorem leaves_of_leave (h : turn s = .leave r) : Leaves turn s r := ⟨1, run_leave h 0⟩

theorem leaves_again (h : turn s = .again s') : Leaves turn s r ↔ Leaves turn s' r := by
  constructor
  · rintro ⟨fuel, hrun⟩
    cases fuel with
    | zero => cases hrun
    | succ fuel => exact ⟨fuel, by rwa [run_again h] at hrun⟩
  · rintro ⟨fuel, hrun⟩
    exact ⟨fuel + 1, by rwa [run_again h]⟩

end Leaves

/-! ## Positions that end -/

section Ends

variable {along : α → Option α} {a b : α}

/-- The positions from `a` on come to an end. -/
def Ends (along : α → Option α) (a : α) : Prop := ∃ b, Reaches along a b ∧ along b = none

/-- The positions from `a` on come round. -/
def ComesRound (along : α → Option α) (a : α) : Prop := ∃ b, Reaches along a b ∧ Reaches₁ along b b

theorem ComesRound.head (h : along a = some b) (hround : ComesRound along b) :
    ComesRound along a := by
  obtain ⟨c, hreach, hcycle⟩ := hround
  exact ⟨c, .head h hreach, hcycle⟩

/-- Whatever is ahead of a position on a cycle is on it as well. -/
theorem reaches₁_of_reaches (hcycle : Reaches₁ along a a) (h : Reaches along a b) :
    Reaches₁ along b b := by
  induction h with
  | refl => exact hcycle
  | tail _ hstep ih => exact .tail' (reaches₁_fwd ih hstep) hstep

theorem ComesRound.not_ends (hround : ComesRound along a) : ¬ Ends along a := by
  obtain ⟨b, hb, hcycle⟩ := hround
  rintro ⟨c, hc, hnone⟩
  rcases reaches_total hb hc with h | h
  · obtain ⟨d, hd, _⟩ := Relation.TransGen.head'_iff.mp (reaches₁_of_reaches hcycle h)
    rw [hnone] at hd
    cases hd
  · rcases h.cases_head with rfl | ⟨d, hd, _⟩
    · obtain ⟨d, hd, _⟩ := Relation.TransGen.head'_iff.mp hcycle
      rw [hnone] at hd
      cases hd
    · rw [hnone] at hd
      cases hd

/-- Finitely many positions end or come round. -/
theorem comesRound_of_not_ends (hfinite : {b | Reaches along a b}.Finite) (h : ¬ Ends along a) :
    ComesRound along a := by
  have hsome : ∀ b : {b | Reaches along a b}, ∃ c : {b | Reaches along a b},
      along b.val = some c.val := by
    intro ⟨b, hb⟩
    cases hb' : along b with
    | none => exact absurd ⟨b, hb, hb'⟩ h
    | some c => exact ⟨⟨c, hb.tail hb'⟩, rfl⟩
  choose next hnext using hsome
  have hahead : ∀ b n, Reaches₁ along b.val (next^[n + 1] b).val := by
    intro b n
    induction n with
    | zero => exact .single (hnext b)
    | succ n ih =>
        rw [Function.iterate_succ_apply']
        exact .tail ih (hnext _)
  -- two of the positions come to are the same one
  have := hfinite.to_subtype
  obtain ⟨m, n, hne, heq⟩ :=
    Finite.exists_ne_map_eq_of_infinite fun n => next^[n] ⟨a, .refl⟩
  wlog hlt : m < n generalizing m n
  · exact this n m hne.symm heq.symm (by omega)
  obtain ⟨k, rfl⟩ := Nat.exists_eq_add_of_lt hlt
  refine ⟨_, (next^[m] ⟨a, .refl⟩).property, ?_⟩
  have hcycle := hahead (next^[m] ⟨a, .refl⟩) k
  rw [← Function.iterate_add_apply, Nat.add_comm (k + 1) m, ← Nat.add_assoc] at hcycle
  rwa [← heq] at hcycle

/-- **Where there are finitely many positions**, they end if and only if they do not come round. -/
theorem ends_iff (hfinite : {b | Reaches along a b}.Finite) :
    Ends along a ↔ ¬ ComesRound along a := by
  constructor
  · intro h hround
    exact hround.not_ends h
  · intro h
    by_contra hends
    exact h (comesRound_of_not_ends hfinite hends)

/-! ### The first positions -/

/-- The first `n` positions from `a` on. -/
def trail (along : α → Option α) : Nat → α → List α
  | 0, _ => []
  | n + 1, a => a :: (along a).elim [] (trail along n)

theorem reaches_of_mem_trail {n : Nat} (h : b ∈ trail along n a) : Reaches along a b := by
  induction n generalizing a with
  | zero => cases h
  | succ n ih =>
      rw [trail, List.mem_cons] at h
      rcases h with rfl | h
      · exact .refl
      · cases hnext : along a with
        | none =>
            rw [hnext] at h
            cases h
        | some c =>
            rw [hnext] at h
            exact .head hnext (ih h)

/-- What does not come round passes no position twice. -/
theorem nodup_trail (h : ¬ ComesRound along a) (n : Nat) : (trail along n a).Nodup := by
  induction n generalizing a with
  | zero => exact List.nodup_nil
  | succ n ih =>
      rw [trail, List.nodup_cons]
      cases hnext : along a with
      | none => exact ⟨List.not_mem_nil, List.nodup_nil⟩
      | some c =>
          refine ⟨fun hmem => h ⟨a, .refl, ?_⟩, ih fun hround => h (hround.head hnext)⟩
          exact .head' hnext (reaches_of_mem_trail hmem)

end Ends

/-! ## The positions of a loop -/

/-- The state a turn later, if there is another turn. -/
def nextState (turn : σ → Turn σ ρ) (s : σ) : Option σ := (turn s).next

theorem nextState_again {turn : σ → Turn σ ρ} {s s' : σ} (h : turn s = .again s') :
    nextState turn s = some s' := by
  rw [nextState, h]
  rfl

theorem nextState_leave {turn : σ → Turn σ ρ} {s : σ} {r : ρ} (h : turn s = .leave r) :
    nextState turn s = none := by
  rw [nextState, h]
  rfl

/-- A loop is left with what one of the turns it comes to leaves it with. -/
theorem leaves_iff_reaches {turn : σ → Turn σ ρ} {s : σ} {r : ρ} :
    Leaves turn s r ↔ ∃ s', Reaches (nextState turn) s s' ∧ turn s' = .leave r := by
  constructor
  · rintro ⟨fuel, h⟩
    induction fuel generalizing s with
    | zero => cases h
    | succ fuel ih =>
        cases hturn : turn s with
        | again s' =>
            rw [run_again hturn] at h
            obtain ⟨s'', hreach, hleave⟩ := ih h
            exact ⟨s'', .head (nextState_again hturn) hreach, hleave⟩
        | leave r' =>
            rw [run_leave hturn] at h
            cases h
            exact ⟨s, .refl, hturn⟩
  · rintro ⟨s', hreach, hleave⟩
    induction hreach using Relation.ReflTransGen.head_induction_on with
    | refl => exact leaves_of_leave hleave
    | @head s t hstep _ ih =>
        cases hturn : turn s with
        | again s₁ =>
            rw [Option.mem_def, nextState_again hturn] at hstep
            cases hstep
            exact (leaves_again hturn).mpr ih
        | leave r' =>
            rw [Option.mem_def, nextState_leave hturn] at hstep
            cases hstep

section Positions

variable {turn : σ → Turn σ ρ} {pos : σ → α} {along : α → Option α}
  (hpos : ∀ s, (nextState turn s).map pos = along (pos s))

include hpos

theorem reaches_pos {s s' : σ} (h : Reaches (nextState turn) s s') :
    Reaches along (pos s) (pos s') := by
  induction h with
  | refl => exact .refl
  | @tail t t' _ hstep ih =>
      refine ih.tail ?_
      rw [Option.mem_def, ← hpos, Option.mem_def.mp hstep]
      rfl

theorem exists_reaches_pos {s : σ} {b : α} (h : Reaches along (pos s) b) :
    ∃ s', Reaches (nextState turn) s s' ∧ pos s' = b := by
  induction h with
  | refl => exact ⟨s, .refl, rfl⟩
  | tail _ hstep ih =>
      obtain ⟨s', hreach, rfl⟩ := ih
      rw [Option.mem_def, ← hpos, Option.map_eq_some_iff] at hstep
      obtain ⟨t, hnext, rfl⟩ := hstep
      exact ⟨t, hreach.tail hnext, rfl⟩

/-- **A loop that moves a position on** is left if and only if the positions end. -/
theorem leaves_iff (s : σ) : (∃ r, Leaves turn s r) ↔ Ends along (pos s) := by
  constructor
  · rintro ⟨r, h⟩
    obtain ⟨s', hreach, hleave⟩ := leaves_iff_reaches.mp h
    refine ⟨pos s', reaches_pos hpos hreach, ?_⟩
    rw [← hpos, nextState_leave hleave]
    rfl
  · rintro ⟨b, hahead, hnone⟩
    obtain ⟨s', hreach, rfl⟩ := exists_reaches_pos hpos hahead
    rw [← hpos, Option.map_eq_none_iff] at hnone
    cases hturn : turn s' with
    | again t =>
        rw [nextState_again hturn] at hnone
        cases hnone
    | leave r => exact ⟨r, leaves_iff_reaches.mpr ⟨s', hreach, hturn⟩⟩

end Positions

end Libcfd.Loop
