import Libcfd.Foundation.Machine
import Mathlib.Data.List.Perm.Basic
import Mathlib.Data.List.TakeDrop
import Mathlib.Data.List.TakeWhile

/-!
# The send side of a stream over packets that get lost

What is written is sent in packets, one part after the other; a packet arrives or is lost, and what
was lost is sent again. A send side that is reset sends nothing any more, neither what it has not
sent yet nor what was lost. One that is finished goes on.

    throughout_isSafe_iff  : what a reset may cost is clear when it happens
    complete_iff           : all that was written arrives ↔ no step of the run costs anything
-/

namespace Libcfd.Lossy

open Libcfd.Machine

/-- A packet with a part of the stream. -/
structure Packet where
  offset : Nat
  length : Nat
  deriving DecidableEq, Repr

/-- A position of the stream is in one of the packets. -/
def Carried (packets : List Packet) (i : Nat) : Prop :=
  ∃ p ∈ packets, p.offset ≤ i ∧ i < p.offset + p.length

instance (packets : List Packet) (i : Nat) : Decidable (Carried packets i) :=
  inferInstanceAs (Decidable (∃ p ∈ packets, _))

structure Sender (Symbol : Type) where
  written : List Symbol
  -- what was sent at least once
  next : Nat
  flying : List Packet
  lost : List Packet
  arrived : List Packet
  finished : Bool
  reset : Bool

/-- What happens to packets. -/
inductive Network where
  | transmit (n : Nat)
  | retransmit (k : Nat)
  | deliver (k : Nat)
  | lose (k : Nat)
  deriving DecidableEq, Repr

inductive Label (Symbol : Type) where
  | write (symbols : List Symbol)
  | finish
  | reset
  | network (event : Network)

namespace Sender

variable {Symbol : Type}

def new : Sender Symbol := ⟨[], 0, [], [], [], false, false⟩

def step (s : Sender Symbol) : Label Symbol → Option (Sender Symbol)
  | .write symbols =>
      if s.finished = false ∧ s.reset = false then some { s with written := s.written ++ symbols }
      else none
  | .finish => if s.reset = false then some { s with finished := true } else none
  | .reset => some { s with reset := true }
  | .network (.transmit n) =>
      if s.reset = false ∧ 0 < n ∧ s.next + n ≤ s.written.length then
        some { s with next := s.next + n, flying := ⟨s.next, n⟩ :: s.flying }
      else none
  | .network (.retransmit k) =>
      if s.reset = false then
        s.lost[k]?.map fun p => { s with lost := s.lost.eraseIdx k, flying := p :: s.flying }
      else none
  | .network (.deliver k) =>
      s.flying[k]?.map fun p =>
        { s with flying := s.flying.eraseIdx k, arrived := p :: s.arrived }
  | .network (.lose k) =>
      s.flying[k]?.map fun p => { s with flying := s.flying.eraseIdx k, lost := p :: s.lost }

/-! ## What arrives -/

/-- All that was written has arrived. -/
def Complete (s : Sender Symbol) : Prop := ∀ i < s.written.length, Carried s.arrived i

/-- All that was written has arrived or is on its way. -/
def Covered (s : Sender Symbol) : Prop := ∀ i < s.written.length, Carried (s.flying ++ s.arrived) i

/-- Nothing is on its way, and nothing is going to be. -/
def Quiet (s : Sender Symbol) : Prop :=
  s.flying = [] ∧ (s.reset = true ∨ s.next = s.written.length ∧ s.lost = [])

/-- What the other side can read: up to the first position that is missing. -/
def delivered (s : Sender Symbol) : List Symbol :=
  s.written.take
    ((List.range s.written.length).takeWhile fun i => decide (Carried s.arrived i)).length

theorem delivered_prefix (s : Sender Symbol) : s.delivered <+: s.written := List.take_prefix ..

theorem delivered_eq_iff (s : Sender Symbol) : s.delivered = s.written ↔ s.Complete := by
  have hprefix := List.takeWhile_prefix (fun i => decide (Carried s.arrived i))
    (l := List.range s.written.length)
  rw [delivered, List.take_eq_self_iff]
  constructor
  · intro hle i hi
    have hlength := hprefix.length_le
    rw [List.length_range] at hlength
    have hall := hprefix.eq_of_length (by rw [List.length_range]; omega)
    exact of_decide_eq_true (List.takeWhile_eq_self_iff.mp hall i (List.mem_range.mpr hi))
  · intro hcomplete
    have hall : (List.range s.written.length).takeWhile (fun i => decide (Carried s.arrived i)) =
        List.range s.written.length :=
      List.takeWhile_eq_self_iff.mpr fun i hi => decide_eq_true (hcomplete i (List.mem_range.mp hi))
    rw [hall, List.length_range]

/-! ## What a step does -/

theorem carried_cons {p : Packet} {packets : List Packet} {i : Nat} :
    Carried (p :: packets) i ↔ (p.offset ≤ i ∧ i < p.offset + p.length) ∨ Carried packets i := by
  simp [Carried]

theorem carried_append {xs ys : List Packet} {i : Nat} :
    Carried (xs ++ ys) i ↔ Carried xs i ∨ Carried ys i := by
  simp [Carried, or_and_right, exists_or]

theorem carried_eraseIdx {packets : List Packet} {k : Nat} {p : Packet}
    (h : packets[k]? = some p) {i : Nat} :
    Carried packets i ↔ (p.offset ≤ i ∧ i < p.offset + p.length) ∨ Carried (packets.eraseIdx k) i := by
  obtain ⟨hk, rfl⟩ := List.getElem?_eq_some_iff.mp h
  rw [← carried_cons]
  exact ⟨fun ⟨p, hp, hi⟩ => ⟨p, (List.getElem_cons_eraseIdx_perm hk).mem_iff.mpr hp, hi⟩,
    fun ⟨p, hp, hi⟩ => ⟨p, (List.getElem_cons_eraseIdx_perm hk).mem_iff.mp hp, hi⟩⟩

/-- No position is forgotten: what was sent has arrived, is on its way, or is known to be lost. -/
structure Sound (s : Sender Symbol) : Prop where
  next_le : s.next ≤ s.written.length
  sent : ∀ i < s.next, Carried (s.flying ++ s.arrived ++ s.lost) i

theorem sound_new : Sound (new : Sender Symbol) := ⟨Nat.le_refl 0, nofun⟩

section Step

variable {s t : Sender Symbol} {l : Label Symbol}

theorem sound_step (hs : s.Sound) (h : s.step l = some t) : t.Sound := by
  cases l with
  | write symbols =>
      obtain ⟨-, ⟨⟩⟩ := Option.ite_none_right_eq_some.mp h
      refine ⟨?_, hs.sent⟩
      rw [List.length_append]
      exact Nat.le_trans hs.next_le (Nat.le_add_right ..)
  | finish =>
      obtain ⟨-, ⟨⟩⟩ := Option.ite_none_right_eq_some.mp h
      exact ⟨hs.next_le, hs.sent⟩
  | reset =>
      cases h
      exact ⟨hs.next_le, hs.sent⟩
  | network event =>
      cases event with
      | transmit n =>
          obtain ⟨⟨-, -, hle⟩, ⟨⟩⟩ := Option.ite_none_right_eq_some.mp h
          refine ⟨hle, fun i hi => ?_⟩
          show Carried (⟨s.next, n⟩ :: s.flying ++ s.arrived ++ s.lost) i
          rw [List.cons_append, List.cons_append, carried_cons]
          by_cases hsent : i < s.next
          · exact .inr (hs.sent i hsent)
          · exact .inl ⟨Nat.le_of_not_lt hsent, hi⟩
      | retransmit k =>
          obtain ⟨-, hmap⟩ := Option.ite_none_right_eq_some.mp h
          obtain ⟨p, hp, rfl⟩ := Option.map_eq_some_iff.mp hmap
          refine ⟨hs.next_le, fun i hi => ?_⟩
          have hsent := hs.sent i hi
          simp only [carried_append, carried_cons, carried_eraseIdx hp] at hsent ⊢
          tauto
      | deliver k =>
          obtain ⟨p, hp, rfl⟩ := Option.map_eq_some_iff.mp h
          refine ⟨hs.next_le, fun i hi => ?_⟩
          have hsent := hs.sent i hi
          simp only [carried_append, carried_cons, carried_eraseIdx hp] at hsent ⊢
          tauto
      | lose k =>
          obtain ⟨p, hp, rfl⟩ := Option.map_eq_some_iff.mp h
          refine ⟨hs.next_le, fun i hi => ?_⟩
          have hsent := hs.sent i hi
          simp only [carried_append, carried_cons, carried_eraseIdx hp] at hsent ⊢
          tauto

/-! ## What a reset costs -/

/-- A reset leaves everything that was written on its way. -/
def IsSafe (s : Sender Symbol) : Prop := s.reset = true → s.Covered

/-- The condition on a step: a reset comes when everything has arrived or is on its way, and no
packet that is lost after it was the only one to carry something. -/
def CostsNothing (s : Sender Symbol) : Label Symbol → Prop
  | .reset => s.Covered
  | .network (.lose k) =>
      s.reset = true →
        ∀ i < s.written.length, Carried (s.flying.eraseIdx k ++ s.arrived) i
  | _ => True

theorem isSafe_step (hs : s.IsSafe) (h : s.step l = some t) : t.IsSafe ↔ s.CostsNothing l := by
  have hopen : ∀ {u : Sender Symbol}, u.reset = s.reset → s.reset = false → u.IsSafe := by
    intro u hu hreset hset
    rw [hu, hreset] at hset
    cases hset
  cases l with
  | write symbols =>
      obtain ⟨⟨-, hreset⟩, ⟨⟩⟩ := Option.ite_none_right_eq_some.mp h
      exact iff_of_true (hopen rfl hreset) trivial
  | finish =>
      obtain ⟨hreset, ⟨⟩⟩ := Option.ite_none_right_eq_some.mp h
      exact iff_of_true (hopen rfl hreset) trivial
  | reset =>
      cases h
      exact ⟨fun hsafe => hsafe rfl, fun hcovered _ => hcovered⟩
  | network event =>
      cases event with
      | transmit n =>
          obtain ⟨⟨hreset, -, -⟩, ⟨⟩⟩ := Option.ite_none_right_eq_some.mp h
          exact iff_of_true (hopen rfl hreset) trivial
      | retransmit k =>
          obtain ⟨hreset, hmap⟩ := Option.ite_none_right_eq_some.mp h
          obtain ⟨p, hp, rfl⟩ := Option.map_eq_some_iff.mp hmap
          exact iff_of_true (hopen rfl hreset) trivial
      | deliver k =>
          obtain ⟨p, hp, rfl⟩ := Option.map_eq_some_iff.mp h
          refine iff_of_true (fun hreset i hi => ?_) trivial
          have hcarried := hs hreset i hi
          simp only [carried_append, carried_cons, carried_eraseIdx hp] at hcarried ⊢
          tauto
      | lose k =>
          obtain ⟨p, hp, rfl⟩ := Option.map_eq_some_iff.mp h
          exact Iff.rfl

/-- What a reset has cost does not come back. -/
theorem isSafe_of_step (h : s.step l = some t) (ht : t.IsSafe) : s.IsSafe := by
  intro hreset
  have hclosed : s.reset ≠ false := by
    rw [hreset]
    exact Bool.noConfusion
  cases l with
  | write symbols => exact absurd (Option.ite_none_right_eq_some.mp h).1.2 hclosed
  | finish => exact absurd (Option.ite_none_right_eq_some.mp h).1 hclosed
  | reset =>
      cases h
      exact ht rfl
  | network event =>
      cases event with
      | transmit n => exact absurd (Option.ite_none_right_eq_some.mp h).1.1 hclosed
      | retransmit k => exact absurd (Option.ite_none_right_eq_some.mp h).1 hclosed
      | deliver k =>
          obtain ⟨p, hp, rfl⟩ := Option.map_eq_some_iff.mp h
          intro i hi
          have hcarried := ht hreset i hi
          simp only [carried_append, carried_cons, carried_eraseIdx hp] at hcarried ⊢
          tauto
      | lose k =>
          obtain ⟨p, hp, rfl⟩ := Option.map_eq_some_iff.mp h
          intro i hi
          have hcarried := ht hreset i hi
          simp only [carried_append, carried_eraseIdx hp] at hcarried ⊢
          tauto

end Step

/-! ## Runs -/

section Run

variable {s t : Sender Symbol} {ls : List (Label Symbol)}

theorem throughout_isSafe_iff (h : run step new ls = some t) :
    Throughout step IsSafe (new : Sender Symbol) ls ↔ Always step CostsNothing new ls :=
  @throughout_iff_always _ _ _ _ _ (fun _ _ => True) (fun _ _ _ _ _ _ => trivial)
    (fun _ _ _ _ _ hs hstep => isSafe_step hs hstep) [] ls new t trivial nofun h

theorem isSafe_iff (h : run step new ls = some t) :
    t.IsSafe ↔ Always step CostsNothing (new : Sender Symbol) ls := by
  rw [← throughout_isSafe_iff h]
  exact ⟨throughout_of_last (fun _ _ _ => isSafe_of_step) h,
    fun hall => hall ls [] t (List.append_nil ls).symm h⟩

theorem Complete.isSafe (h : t.Complete) : t.IsSafe :=
  fun _ i hi => carried_append.mpr (.inr (h i hi))

theorem complete_of_quiet (hsound : t.Sound) (hquiet : t.Quiet) (hsafe : t.IsSafe) :
    t.Complete := by
  intro i hi
  obtain ⟨hflying, hreset | ⟨hnext, hlost⟩⟩ := hquiet
  · have hcarried := hsafe hreset i hi
    rwa [hflying, List.nil_append] at hcarried
  · have hcarried := hsound.sent i (hnext ▸ hi)
    rwa [hflying, hlost, List.nil_append, List.append_nil] at hcarried

/-- **All that was written arrives if and only if no step of the run costs anything**: whatever the
run is, it has not all arrived unless none did; and if none did, it has all arrived once nothing is
on its way and nothing is going to be. -/
theorem complete_iff (h : run step new ls = some t) :
    (t.Complete → Always step CostsNothing (new : Sender Symbol) ls) ∧
      (t.Quiet → Always step CostsNothing (new : Sender Symbol) ls → t.Complete) := by
  have hsound : t.Sound := run_invariant Sound (fun _ _ _ => sound_step) sound_new h
  refine ⟨fun hcomplete => (isSafe_iff h).mp hcomplete.isSafe, fun hquiet halways => ?_⟩
  exact complete_of_quiet hsound hquiet ((isSafe_iff h).mpr halways)

/-- What the labels write. -/
def writes (ls : List (Label Symbol)) : List Symbol :=
  ls.flatMap fun
    | .write symbols => symbols
    | _ => []

theorem written_step {l : Label Symbol} (h : s.step l = some t) :
    t.written = s.written ++ writes [l] := by
  cases l with
  | write symbols =>
      obtain ⟨-, ⟨⟩⟩ := Option.ite_none_right_eq_some.mp h
      simp [writes]
  | finish =>
      obtain ⟨-, ⟨⟩⟩ := Option.ite_none_right_eq_some.mp h
      simp [writes]
  | reset =>
      cases h
      simp [writes]
  | network event =>
      cases event with
      | transmit n =>
          obtain ⟨-, ⟨⟩⟩ := Option.ite_none_right_eq_some.mp h
          simp [writes]
      | retransmit k =>
          obtain ⟨-, hmap⟩ := Option.ite_none_right_eq_some.mp h
          obtain ⟨p, hp, rfl⟩ := Option.map_eq_some_iff.mp hmap
          simp [writes]
      | deliver k | lose k =>
          obtain ⟨p, hp, rfl⟩ := Option.map_eq_some_iff.mp h
          simp [writes]

theorem written_run (h : run step new ls = some t) : t.written = writes ls := by
  have hnew : (new : Sender Symbol).written = writes [] := rfl
  refine run_induction (fun past s => s.written = writes past) ?_ hnew h
  intro past s l t hs hstep
  rw [written_step hstep, hs, writes, writes, writes, List.flatMap_append]

end Run

end Sender

end Libcfd.Lossy
