import Libcfd.Foundation.Machine
import Mathlib.Logic.Function.Basic
import Mathlib.Data.List.Basic

/-!
# `pump`

One task copies both ways between the edge and an origin. The two arms of its `select!` are mirror
images, so both are written as one arm of a `Direction`: from the edge to the origin, and from the
origin to the edge. A future of the arm that loses is dropped before it has taken anything from its
source; the arm that wins keeps the task until its `write_all` or its `close` is over.

The labels leave open what the four halves do: how much a read finds, how much a write takes, when
a source ends, and when either fails.
-/

namespace Libcfd.Origin

open Libcfd.Machine

inductive Direction where
  | toOrigin
  | toEdge
  deriving DecidableEq, Repr

/-! ## The four halves -/

/-- A half that is read from: what it has, what has been read from it, and whether more may come. -/
structure Source where
  available : List UInt8
  taken : List UInt8
  ended : Bool
  deriving DecidableEq, Repr

/-- A half that is written to: what it holds until its peer takes it, all that was written to it,
and how often it was closed. -/
structure Sink where
  capacity : Nat
  buffered : List UInt8
  received : List UInt8
  closes : Nat
  -- `close` waits until the peer has taken everything
  lingers : Bool
  deriving DecidableEq, Repr

def Sink.room (sink : Sink) : Nat := sink.capacity - sink.buffered.length

/-- `close` returns. -/
def Sink.isClosable (sink : Sink) : Bool := !sink.lingers || sink.buffered.isEmpty

/-! ## The task -/

inductive Phase where
  | selecting
  -- in `write_all`, with so much still to write
  | writing (direction : Direction) (pending : List UInt8)
  -- in `close`
  | closing (direction : Direction)
  | returned
  deriving DecidableEq, Repr

structure Pump where
  phase : Phase
  -- `edge_done` and `origin_done`
  finished : Direction → Bool
  source : Direction → Source
  sink : Direction → Sink

namespace Pump

/-- The length of either buffer. -/
def bufferSize : Nat := 8192

/-- The top of the loop. -/
def again (finished : Direction → Bool) : Phase :=
  if finished .toOrigin && finished .toEdge then .returned else .selecting

/-- Before the loop, with nothing read or written yet. -/
def start (available : Direction → List UInt8) (capacity : Direction → Nat)
    (lingers : Direction → Bool) : Pump where
  phase := .selecting
  finished _ := false
  source d := ⟨available d, [], false⟩
  sink d := ⟨capacity d, [], [], 0, lingers d⟩

inductive Label where
  -- the task: `read` is `Ok(n)`, `Ok(0)` or `Err`
  | read (direction : Direction) (n : Nat)
  | readEnd (direction : Direction)
  | readFails (direction : Direction)
  -- one `poll_write` of a `write_all`
  | write (direction : Direction) (n : Nat)
  | writeFails (direction : Direction)
  -- `close` is over, whatever it returned
  | closed (direction : Direction)
  -- the peers
  | arrives (direction : Direction) (bytes : List UInt8)
  | ends (direction : Direction)
  | drains (direction : Direction) (n : Nat)
  deriving DecidableEq, Repr

open Function (update)

def finish (s : Pump) (d : Direction) : Direction → Bool := update s.finished d true

def step (s : Pump) : Label → Option Pump
  | .read d n =>
      if s.phase = .selecting ∧ s.finished d = false ∧ 0 < n ∧ n ≤ bufferSize ∧
          n ≤ (s.source d).available.length then
        some { s with
          phase := .writing d ((s.source d).available.take n)
          source := update s.source d { s.source d with
            available := (s.source d).available.drop n
            taken := (s.source d).taken ++ (s.source d).available.take n } }
      else none
  | .readEnd d =>
      if s.phase = .selecting ∧ s.finished d = false ∧ (s.source d).available = [] ∧
          (s.source d).ended = true then
        some { s with
          phase := .closing d
          finished := s.finish d
          sink := update s.sink d { s.sink d with closes := (s.sink d).closes + 1 } }
      else none
  | .readFails d =>
      if s.phase = .selecting ∧ s.finished d = false then
        some { s with phase := again (s.finish d), finished := s.finish d }
      else none
  | .write d n =>
      match s.phase with
      | .writing d' pending =>
          if d' = d ∧ 0 < n ∧ n ≤ pending.length ∧ n ≤ (s.sink d).room then
            some { s with
              phase := if pending.drop n = [] then again s.finished else .writing d (pending.drop n)
              sink := update s.sink d { s.sink d with
                buffered := (s.sink d).buffered ++ pending.take n
                received := (s.sink d).received ++ pending.take n } }
          else none
      | _ => none
  | .writeFails d =>
      match s.phase with
      | .writing d' _ =>
          if d' = d then
            some { s with phase := again (s.finish d), finished := s.finish d }
          else none
      | _ => none
  | .closed d =>
      if s.phase = .closing d ∧ (s.sink d).isClosable = true then
        some { s with phase := again s.finished }
      else none
  | .arrives d bytes =>
      if (s.source d).ended = false then
        some { s with source := update s.source d { s.source d with
          available := (s.source d).available ++ bytes } }
      else none
  | .ends d =>
      some { s with source := update s.source d { s.source d with ended := true } }
  | .drains d n =>
      some { s with sink := update s.sink d { s.sink d with
        buffered := (s.sink d).buffered.drop n } }

/-- Everything a step can do. -/
inductive Steps (s : Pump) : Label → Pump → Prop
  | read {d : Direction} {n : Nat} (hphase : s.phase = .selecting) (hopen : s.finished d = false)
      (hn : 0 < n) (hle : n ≤ (s.source d).available.length) :
      Steps s (.read d n) { s with
        phase := .writing d ((s.source d).available.take n)
        source := update s.source d { s.source d with
          available := (s.source d).available.drop n
          taken := (s.source d).taken ++ (s.source d).available.take n } }
  | readEnd {d : Direction} (hphase : s.phase = .selecting) (hopen : s.finished d = false)
      (hempty : (s.source d).available = []) (hended : (s.source d).ended = true) :
      Steps s (.readEnd d) { s with
        phase := .closing d
        finished := s.finish d
        sink := update s.sink d { s.sink d with closes := (s.sink d).closes + 1 } }
  | readFails {d : Direction} (hphase : s.phase = .selecting) (hopen : s.finished d = false) :
      Steps s (.readFails d) { s with phase := again (s.finish d), finished := s.finish d }
  | writeSome {d : Direction} {n : Nat} {pending : List UInt8} (hphase : s.phase = .writing d pending)
      (hroom : n ≤ (s.sink d).room) (hrest : pending.drop n ≠ []) :
      Steps s (.write d n) { s with
        phase := .writing d (pending.drop n)
        sink := update s.sink d { s.sink d with
          buffered := (s.sink d).buffered ++ pending.take n
          received := (s.sink d).received ++ pending.take n } }
  | writeLast {d : Direction} {n : Nat} {pending : List UInt8} (hphase : s.phase = .writing d pending)
      (hroom : n ≤ (s.sink d).room) (hall : pending.take n = pending) :
      Steps s (.write d n) { s with
        phase := again s.finished
        sink := update s.sink d { s.sink d with
          buffered := (s.sink d).buffered ++ pending
          received := (s.sink d).received ++ pending } }
  | writeFails {d : Direction} {pending : List UInt8} (hphase : s.phase = .writing d pending) :
      Steps s (.writeFails d) { s with phase := again (s.finish d), finished := s.finish d }
  | closed {d : Direction} (hphase : s.phase = .closing d) :
      Steps s (.closed d) { s with phase := again s.finished }
  | arrives {d : Direction} (bytes : List UInt8) (hopen : (s.source d).ended = false) :
      Steps s (.arrives d bytes) { s with source := update s.source d { s.source d with
        available := (s.source d).available ++ bytes } }
  | ends (d : Direction) :
      Steps s (.ends d) { s with source := update s.source d { s.source d with ended := true } }
  | drains (d : Direction) (n : Nat) :
      Steps s (.drains d n) { s with sink := update s.sink d { s.sink d with
        buffered := (s.sink d).buffered.drop n } }

theorem steps_of_step {s t : Pump} {l : Label} (h : s.step l = some t) : Steps s l t := by
  cases l with
  | read d n =>
      obtain ⟨⟨hphase, hopen, hn, _, hle⟩, ⟨⟩⟩ := Option.ite_none_right_eq_some.mp h
      exact .read hphase hopen hn hle
  | readEnd d =>
      obtain ⟨⟨hphase, hopen, hempty, hended⟩, ⟨⟩⟩ := Option.ite_none_right_eq_some.mp h
      exact .readEnd hphase hopen hempty hended
  | readFails d =>
      obtain ⟨⟨hphase, hopen⟩, ⟨⟩⟩ := Option.ite_none_right_eq_some.mp h
      exact .readFails hphase hopen
  | write d n =>
      cases hphase : s.phase with
      | writing d' pending =>
          rw [step, hphase] at h
          obtain ⟨⟨rfl, hn, hle, hroom⟩, ⟨⟩⟩ := Option.ite_none_right_eq_some.mp h
          split
          · next hrest =>
              have hall : pending.take n = pending :=
                List.take_of_length_le (List.drop_eq_nil_iff.mp hrest)
              rw [hall]
              exact .writeLast hphase hroom hall
          · next hrest => exact .writeSome hphase hroom hrest
      | _ =>
          rw [step, hphase] at h
          cases h
  | writeFails d =>
      cases hphase : s.phase with
      | writing d' pending =>
          rw [step, hphase] at h
          obtain ⟨rfl, ⟨⟩⟩ := Option.ite_none_right_eq_some.mp h
          exact .writeFails hphase
      | _ =>
          rw [step, hphase] at h
          cases h
  | closed d =>
      obtain ⟨⟨hphase, _⟩, ⟨⟩⟩ := Option.ite_none_right_eq_some.mp h
      exact .closed hphase
  | arrives d bytes =>
      obtain ⟨hopen, ⟨⟩⟩ := Option.ite_none_right_eq_some.mp h
      exact .arrives bytes hopen
  | ends d =>
      cases h
      exact .ends d
  | drains d n =>
      cases h
      exact .drains d n

/-! ## What a direction keeps -/

/-- Read and not yet written. -/
def pending (s : Pump) (d : Direction) : List UInt8 :=
  match s.phase with
  | .writing d' bytes => if d' = d then bytes else []
  | _ => []

/-- The direction came to its end: the end of its source was read, or a read or a write failed. -/
def Ended (past : List Label) (d : Direction) : Prop :=
  .readEnd d ∈ past ∨ .readFails d ∈ past ∨ .writeFails d ∈ past

theorem Ended.append {past : List Label} {d : Direction} (h : Ended past d) (more : List Label) :
    Ended (past ++ more) d := by
  rcases h with h | h | h
  · exact .inl (List.mem_append_left _ h)
  · exact .inr (.inl (List.mem_append_left _ h))
  · exact .inr (.inr (List.mem_append_left _ h))

/-- Everything the source of a direction was given since the start. -/
def arrived (d : Direction) (past : List Label) : List UInt8 :=
  past.flatMap fun
    | .arrives d' bytes => if d' = d then bytes else []
    | _ => []

structure Kept (past : List Label) (s : Pump) (d : Direction) : Prop where
  written : (s.sink d).received <+: (s.source d).taken
  -- while the direction is open nothing is lost
  owed : s.finished d = false → (s.source d).taken = (s.sink d).received ++ s.pending d
  closes_eq : (s.sink d).closes = past.count (.readEnd d)
  closes_le : (s.sink d).closes ≤ 1
  unclosed : s.finished d = false → (s.sink d).closes = 0
  complete : 0 < (s.sink d).closes → (s.sink d).received = (s.source d).taken
  exhausted : 0 < (s.sink d).closes → (s.source d).available = [] ∧ (s.source d).ended = true
  ended : s.finished d = true → Ended past d

/-- A step that leaves a direction alone, as far as its bytes go. -/
theorem Kept.frame {past : List Label} {s t : Pump} {d : Direction} {l : Label} (h : Kept past s d)
    (hsource : (t.source d).taken = (s.source d).taken)
    (hreceived : (t.sink d).received = (s.sink d).received)
    (hcloses : (t.sink d).closes = (s.sink d).closes) (hfinished : t.finished d = s.finished d)
    (hpending : t.pending d = s.pending d) (hl : l ≠ .readEnd d)
    (hexhausted : (s.source d).available = [] ∧ (s.source d).ended = true →
      (t.source d).available = [] ∧ (t.source d).ended = true) : Kept (past ++ [l]) t d where
  written := by
    rw [hsource, hreceived]
    exact h.written
  owed := by
    rw [hsource, hreceived, hfinished, hpending]
    exact h.owed
  closes_eq := by
    rw [hcloses, List.count_append, List.count_singleton, if_neg (by simpa using hl)]
    exact h.closes_eq
  closes_le := hcloses ▸ h.closes_le
  unclosed := by
    rw [hcloses, hfinished]
    exact h.unclosed
  complete := by
    rw [hcloses, hreceived, hsource]
    exact h.complete
  exhausted := by
    rw [hcloses]
    exact fun hpos => hexhausted (h.exhausted hpos)
  ended := by
    rw [hfinished]
    exact fun hfin => (h.ended hfin).append [l]

section Kept

variable {past : List Label} {s t : Pump} {d : Direction} {l : Label}

/-- Some of what was owed is written. -/
theorem Kept.write (h : Kept past s d) (hopen : s.finished d = false) (bytes : List UInt8)
    (hsource : t.source = s.source)
    (hreceived : (t.sink d).received = (s.sink d).received ++ bytes)
    (hcloses : (t.sink d).closes = (s.sink d).closes) (hfinished : t.finished = s.finished)
    (hpending : s.pending d = bytes ++ t.pending d) (hl : l ≠ .readEnd d) :
    Kept (past ++ [l]) t d := by
  have howed := h.owed hopen
  rw [hpending, ← List.append_assoc] at howed
  have hzero : (t.sink d).closes = 0 := hcloses.trans (h.unclosed hopen)
  refine ⟨?_, ?_, ?_, ?_, fun _ => hzero, ?_, ?_, ?_⟩
  · rw [hsource, hreceived, howed]
    exact List.prefix_append _ _
  · rw [hsource, hreceived]
    exact fun _ => howed
  · rw [hcloses, List.count_append, List.count_singleton, if_neg (by simpa using hl)]
    exact h.closes_eq
  · rw [hzero]
    exact Nat.zero_le 1
  · rw [hzero]
    exact fun hpos => absurd hpos (Nat.lt_irrefl 0)
  · rw [hzero]
    exact fun hpos => absurd hpos (Nat.lt_irrefl 0)
  · rw [hfinished, hopen]
    exact fun hfin => absurd hfin Bool.false_ne_true

/-- A read or a write fails, and the direction is over. -/
theorem Kept.fail (h : Kept past s d) (hsource : t.source = s.source) (hsink : t.sink = s.sink)
    (hfinished : t.finished d = true) (hl : l = .readFails d ∨ l = .writeFails d) :
    Kept (past ++ [l]) t d where
  written := by
    rw [hsource, hsink]
    exact h.written
  owed hopen := absurd (hfinished.symm.trans hopen) nofun
  closes_eq := by
    have hne : l ≠ .readEnd d := by
      rcases hl with rfl | rfl <;> exact nofun
    rw [hsink, List.count_append, List.count_singleton, if_neg (by simpa using hne)]
    exact h.closes_eq
  closes_le := hsink ▸ h.closes_le
  unclosed hopen := absurd (hfinished.symm.trans hopen) nofun
  complete := by
    rw [hsink, hsource]
    exact h.complete
  exhausted := by
    rw [hsink, hsource]
    exact h.exhausted
  ended _ := by
    rcases hl with rfl | rfl
    · exact .inr (.inl (List.mem_append_right _ List.mem_cons_self))
    · exact .inr (.inr (List.mem_append_right _ List.mem_cons_self))

end Kept

theorem pending_of_phase {s : Pump} {d : Direction} (h : ∀ d' bytes, s.phase ≠ .writing d' bytes) :
    s.pending d = [] := by
  rw [pending]
  split
  · next d' bytes hphase => exact absurd hphase (h d' bytes)
  · rfl

theorem pending_writing {s : Pump} {d : Direction} {bytes : List UInt8}
    (h : s.phase = .writing d bytes) : s.pending d = bytes := by
  rw [pending, h]
  exact if_pos rfl

/-- The other direction owes nothing while this one is written. -/
theorem pending_writing_of_ne {s : Pump} {d d' : Direction} {bytes : List UInt8}
    (h : s.phase = .writing d bytes) (hne : d ≠ d') : s.pending d' = [] := by
  rw [pending, h]
  exact if_neg hne

theorem again_ne_writing (finished : Direction → Bool) (d : Direction) (bytes : List UInt8) :
    again finished ≠ .writing d bytes := by
  rw [again]
  split <;> exact nofun

theorem again_ne_closing (finished : Direction → Bool) (d : Direction) :
    again finished ≠ .closing d := by
  rw [again]
  split <;> exact nofun

theorem finished_of_again {finished : Direction → Bool} (h : again finished = .returned)
    (d : Direction) : finished d = true := by
  rw [again] at h
  split at h
  · next hboth =>
      obtain ⟨horigin, hedge⟩ := Bool.and_eq_true_iff.mp hboth
      cases d with
      | toOrigin => exact horigin
      | toEdge => exact hedge
  · cases h

/-- The invariant of the loop. -/
structure Faithful (past : List Label) (s : Pump) : Prop where
  kept : ∀ d, Kept past s d
  -- a direction is not closed under a write
  writing : ∀ d bytes, s.phase = .writing d bytes → s.finished d = false
  returned : s.phase = .returned → ∀ d, s.finished d = true

theorem faithful_start (available : Direction → List UInt8) (capacity : Direction → Nat)
    (lingers : Direction → Bool) : Faithful [] (start available capacity lingers) where
  kept d :=
    { written := List.prefix_rfl
      owed := fun _ => rfl
      closes_eq := rfl
      closes_le := Nat.zero_le 1
      unclosed := fun _ => rfl
      complete := fun _ => rfl
      exhausted := fun h => absurd h (Nat.lt_irrefl 0)
      ended := fun h => absurd h Bool.false_ne_true }
  writing d bytes h := by cases h
  returned h := by cases h

section Step

variable {past : List Label} {s t : Pump}

theorem kept_read {d : Direction} {n : Nat} (h : Kept past s d) (hphase : s.phase = .selecting)
    (hopen : s.finished d = false) (hphase' : t.phase = .writing d ((s.source d).available.take n))
    (htaken : (t.source d).taken = (s.source d).taken ++ (s.source d).available.take n)
    (hsink : t.sink = s.sink) (hfinished : t.finished = s.finished) :
    Kept (past ++ [.read d n]) t d := by
  have howed : (s.source d).taken = (s.sink d).received := by
    rw [h.owed hopen, pending_of_phase (by rw [hphase]; exact fun _ _ => nofun), List.append_nil]
  have hzero : (s.sink d).closes = 0 := h.unclosed hopen
  refine ⟨?_, ?_, ?_, ?_, ?_, ?_, ?_, ?_⟩
  · rw [hsink, htaken, howed]
    exact List.prefix_append _ _
  · rw [hsink, htaken, howed, pending_writing hphase']
    exact fun _ => rfl
  · rw [hsink, List.count_append, h.closes_eq]
    rfl
  · rw [hsink]
    exact h.closes_le
  · rw [hsink]
    exact fun _ => hzero
  · rw [hsink, hzero]
    exact fun hpos => absurd hpos (Nat.lt_irrefl 0)
  · rw [hsink, hzero]
    exact fun hpos => absurd hpos (Nat.lt_irrefl 0)
  · rw [hfinished, hopen]
    exact fun hfin => absurd hfin Bool.false_ne_true

theorem kept_readEnd {d : Direction} (h : Kept past s d) (hphase : s.phase = .selecting)
    (hopen : s.finished d = false) (hempty : (s.source d).available = [])
    (hended : (s.source d).ended = true) (hsource : t.source = s.source)
    (hreceived : (t.sink d).received = (s.sink d).received)
    (hcloses : (t.sink d).closes = (s.sink d).closes + 1) (hfinished : t.finished d = true) :
    Kept (past ++ [.readEnd d]) t d := by
  have howed : (s.source d).taken = (s.sink d).received := by
    rw [h.owed hopen, pending_of_phase (by rw [hphase]; exact fun _ _ => nofun), List.append_nil]
  have hone : (t.sink d).closes = 1 := by rw [hcloses, h.unclosed hopen]
  refine ⟨?_, ?_, ?_, ?_, ?_, ?_, ?_, ?_⟩
  · rw [hsource, hreceived]
    exact h.written
  · rw [hfinished]
    exact nofun
  · rw [hcloses, List.count_append, List.count_singleton_self, h.closes_eq]
  · exact Nat.le_of_eq hone
  · rw [hfinished]
    exact nofun
  · rw [hsource, hreceived, howed]
    exact fun _ => rfl
  · rw [hsource]
    exact fun _ => ⟨hempty, hended⟩
  · exact fun _ => .inl (List.mem_append_right _ List.mem_cons_self)

theorem kept_step {l : Label} (h : Faithful past s) (hstep : Steps s l t) (d : Direction) :
    Kept (past ++ [l]) t d := by
  have hd := h.kept d
  have hselecting : s.phase = .selecting → s.pending d = [] := fun hphase =>
    pending_of_phase (by rw [hphase]; exact fun _ _ => nofun)
  have hagain : ∀ finished, t.phase = again finished → t.pending d = [] := fun finished hphase =>
    pending_of_phase fun d' bytes hw => again_ne_writing finished d' bytes (hphase.symm.trans hw)
  cases hstep with
  | @read d₀ n hphase hopen hn hle =>
      by_cases hne : d = d₀
      · subst hne
        exact kept_read hd hphase hopen rfl (by simp) rfl rfl
      · refine hd.frame (by simp [hne]) rfl rfl rfl ?_ nofun (by simp [hne])
        rw [hselecting hphase]
        exact pending_writing_of_ne rfl (Ne.symm hne)
  | @readEnd d₀ hphase hopen hempty hended =>
      by_cases hne : d = d₀
      · subst hne
        exact kept_readEnd hd hphase hopen hempty hended rfl (by simp) (by simp) (by simp [finish])
      · refine hd.frame rfl (by simp [hne]) (by simp [hne]) (by simp [finish, hne]) ?_ ?_ id
        · rw [hselecting hphase]
          exact pending_of_phase fun _ _ => nofun
        · rintro ⟨⟩
          exact hne rfl
  | @readFails d₀ hphase hopen =>
      by_cases hne : d = d₀
      · subst hne
        exact hd.fail rfl rfl (by simp [finish]) (.inl rfl)
      · refine hd.frame rfl rfl rfl (by simp [finish, hne]) ?_ nofun id
        rw [hselecting hphase, hagain _ rfl]
  | @writeSome d₀ n pending hphase hroom hrest =>
      have hopen := h.writing d₀ pending hphase
      by_cases hne : d = d₀
      · subst hne
        refine hd.write hopen (pending.take n) rfl (by simp) (by simp) rfl ?_ nofun
        rw [pending_writing hphase, pending_writing rfl]
        exact (List.take_append_drop n pending).symm
      · refine hd.frame rfl (by simp [hne]) (by simp [hne]) rfl ?_ nofun id
        rw [pending_writing_of_ne hphase (Ne.symm hne)]
        exact pending_writing_of_ne rfl (Ne.symm hne)
  | @writeLast d₀ n pending hphase hroom hall =>
      have hopen := h.writing d₀ pending hphase
      by_cases hne : d = d₀
      · subst hne
        refine hd.write hopen pending rfl (by simp) (by simp) rfl ?_ nofun
        rw [pending_writing hphase, hagain _ rfl, List.append_nil]
      · refine hd.frame rfl (by simp [hne]) (by simp [hne]) rfl ?_ nofun id
        rw [pending_writing_of_ne hphase (Ne.symm hne), hagain _ rfl]
  | @writeFails d₀ pending hphase =>
      by_cases hne : d = d₀
      · subst hne
        exact hd.fail rfl rfl (by simp [finish]) (.inr rfl)
      · refine hd.frame rfl rfl rfl (by simp [finish, hne]) ?_ nofun id
        rw [pending_writing_of_ne hphase (Ne.symm hne), hagain _ rfl]
  | @closed d₀ hphase =>
      refine hd.frame rfl rfl rfl rfl ?_ nofun id
      rw [hagain _ rfl]
      exact (pending_of_phase (by rw [hphase]; exact fun _ _ => nofun)).symm
  | @arrives d₀ bytes hopen =>
      by_cases hne : d = d₀
      · subst hne
        refine hd.frame (by simp) rfl rfl rfl rfl nofun fun hex => ?_
        rw [hex.2] at hopen
        cases hopen
      · exact hd.frame (by simp [hne]) rfl rfl rfl rfl nofun (by simp [hne])
  | ends d₀ =>
      by_cases hne : d = d₀
      · subst hne
        exact hd.frame (by simp) rfl rfl rfl rfl nofun fun hex => ⟨by simpa using hex.1, by simp⟩
      · exact hd.frame (by simp [hne]) rfl rfl rfl rfl nofun (by simp [hne])
  | drains d₀ n =>
      by_cases hne : d = d₀
      · subst hne
        exact hd.frame rfl (by simp) (by simp) rfl rfl nofun id
      · exact hd.frame rfl (by simp [hne]) (by simp [hne]) rfl rfl nofun id

theorem faithful_step {l : Label} (h : Faithful past s) (hstep : Steps s l t) :
    Faithful (past ++ [l]) t := by
  refine ⟨kept_step h hstep, ?_, ?_⟩
  · intro d bytes hphase
    cases hstep with
    | read hphase' hopen hn hle =>
        cases hphase
        exact hopen
    | writeSome hphase' hroom hrest =>
        cases hphase
        exact h.writing _ _ hphase'
    | readEnd => cases hphase
    | readFails | writeLast | writeFails | closed => exact absurd hphase (again_ne_writing _ _ _)
    | arrives | ends | drains => exact h.writing _ _ hphase
  · intro hphase
    cases hstep with
    | read | writeSome | readEnd => cases hphase
    | readFails | writeLast | writeFails | closed => exact finished_of_again hphase
    | arrives | ends | drains => exact h.returned hphase

/-- What has been read and what is there to read is all that ever came. -/
theorem conserved_step {l : Label} (hstep : Steps s l t) (d : Direction) {sent : List UInt8}
    (h : (s.source d).taken ++ (s.source d).available = sent ++ arrived d past) :
    (t.source d).taken ++ (t.source d).available = sent ++ arrived d (past ++ [l]) := by
  have hsame : arrived d [l] = [] → sent ++ arrived d (past ++ [l]) = sent ++ arrived d past := by
    intro hnone
    rw [arrived, List.flatMap_append, ← arrived, ← arrived, hnone, List.append_nil]
  cases hstep with
  | @read d₀ n hphase hopen hn hle =>
      rw [hsame rfl, ← h]
      by_cases hne : d = d₀
      · subst hne
        simp
      · simp [hne]
  | @arrives d₀ bytes hopen =>
      rw [arrived, List.flatMap_append, ← arrived]
      by_cases hne : d = d₀
      · subst hne
        simp [← List.append_assoc, h]
      · simp [hne, Ne.symm hne, h]
  | ends d₀ =>
      rw [hsame rfl, ← h]
      by_cases hne : d = d₀
      · subst hne
        simp
      · simp [hne]
  | readEnd | readFails | writeSome | writeLast | writeFails | closed | drains =>
      rw [hsame rfl]
      exact h

end Step

/-! ## Runs -/

/-- A read or a write that failed. -/
def Label.isFailure : Label → Bool
  | .readFails _ | .writeFails _ => true
  | _ => false

section Run

variable {available : Direction → List UInt8} {capacity : Direction → Nat}
  {lingers : Direction → Bool} {ls : List Label} {t : Pump}

theorem faithful_run (h : run step (start available capacity lingers) ls = some t) :
    Faithful ls t := by
  have hrun := run_induction Faithful
    (fun past s l t hs hstep => faithful_step hs (steps_of_step hstep))
    (faithful_start available capacity lingers) h
  exact hrun

theorem conserved_run (h : run step (start available capacity lingers) ls = some t)
    (d : Direction) :
    (t.source d).taken ++ (t.source d).available = available d ++ arrived d ls := by
  have hstart : ((start available capacity lingers).source d).taken ++
      ((start available capacity lingers).source d).available = available d ++ arrived d [] :=
    (List.append_nil _).symm
  have hrun := run_induction
    (fun past (s : Pump) =>
      (s.source d).taken ++ (s.source d).available = available d ++ arrived d past)
    (fun past s l t hs hstep => conserved_step (steps_of_step hstep) d hs) hstart h
  exact hrun

/-- A direction has written a prefix of all that ever came to its source. -/
theorem received_prefix_of_run (h : run step (start available capacity lingers) ls = some t)
    (d : Direction) : (t.sink d).received <+: available d ++ arrived d ls := by
  rw [← conserved_run h d]
  exact ((faithful_run h).kept d).written.trans (List.prefix_append _ _)

/-- A task that returns without a failure has written all that ever came, and has closed. -/
theorem received_eq_of_returned (h : run step (start available capacity lingers) ls = some t)
    (hphase : t.phase = .returned) (hnone : ∀ l ∈ ls, l.isFailure = false) (d : Direction) :
    (t.sink d).received = available d ++ arrived d ls ∧ (t.sink d).closes = 1 := by
  have hfaithful := faithful_run h
  have hkept := hfaithful.kept d
  have hread : .readEnd d ∈ ls := by
    rcases hkept.ended (hfaithful.returned hphase d) with hread | hfail | hfail
    · exact hread
    · cases hnone _ hfail
    · cases hnone _ hfail
  have hpos : 0 < (t.sink d).closes := by
    rw [hkept.closes_eq]
    exact List.count_pos_iff.mpr hread
  have hsent := conserved_run h d
  rw [(hkept.exhausted hpos).1, List.append_nil] at hsent
  exact ⟨(hkept.complete hpos).trans hsent, Nat.le_antisymm hkept.closes_le hpos⟩

/-- **Copying.** However the reads, writes, ends and failures of the four halves are ordered: each
direction has written a prefix of what it has read, its sink is closed at most once, by the end of
its own source and with everything written, and a task that returns has ended both directions; if
nothing failed, both are complete. -/
theorem pump_copies (h : run step (start available capacity lingers) ls = some t)
    (d : Direction) :
    (t.sink d).received <+: (t.source d).taken ∧
    (t.sink d).closes ≤ 1 ∧
    (t.sink d).closes = ls.count (.readEnd d) ∧
    (0 < (t.sink d).closes → (t.sink d).received = (t.source d).taken) ∧
    (t.phase = .returned → Ended ls d) ∧
    (t.phase = .returned → (∀ l ∈ ls, l.isFailure = false) →
      (t.sink d).received = available d ++ arrived d ls ∧ (t.sink d).closes = 1) := by
  have hfaithful := faithful_run h
  have hkept := hfaithful.kept d
  have hended : t.phase = .returned → Ended ls d := fun hphase =>
    hkept.ended (hfaithful.returned hphase d)
  exact ⟨hkept.written, hkept.closes_le, hkept.closes_eq, hkept.complete, hended,
    fun hphase hnone => received_eq_of_returned h hphase hnone d⟩

/-- One byte each way. -/
theorem pump_copies_both :
    ∃ t, run step (start (fun | .toOrigin => [1] | .toEdge => [2]) (fun _ => 1) fun _ => true)
        [.read .toOrigin 1, .write .toOrigin 1, .read .toEdge 1, .ends .toOrigin, .write .toEdge 1,
          .readEnd .toOrigin, .drains .toOrigin 1, .closed .toOrigin, .ends .toEdge,
          .readEnd .toEdge, .drains .toEdge 1, .closed .toEdge] = some t ∧
      (t.sink .toEdge).received = [2] ∧ (t.sink .toEdge).closes = 1 := by
  obtain ⟨t, hrun, hphase⟩ : ∃ t, run step
      (start (fun | .toOrigin => [1] | .toEdge => [2]) (fun _ => 1) fun _ => true)
      [.read .toOrigin 1, .write .toOrigin 1, .read .toEdge 1, .ends .toOrigin, .write .toEdge 1,
        .readEnd .toOrigin, .drains .toOrigin 1, .closed .toOrigin, .ends .toEdge,
        .readEnd .toEdge, .drains .toEdge 1, .closed .toEdge] = some t ∧ t.phase = .returned :=
    ⟨_, rfl, rfl⟩
  obtain ⟨_, _, _, _, _, hcomplete⟩ := pump_copies hrun .toEdge
  exact ⟨t, hrun, hcomplete hphase (by decide)⟩

end Run

end Pump

end Libcfd.Origin
