import Libcfd.Foundation.Machine
import Libcfd.Foundation.Stream

/-!
# Two programs and the channels between them

Two stream programs are joined by a channel each way. A channel keeps what is put into it, in order;
a move of one program takes some symbols off one channel or puts some into the other, as many as the
schedule says, or is a request that the program's environment answers.

Nothing depends on the schedule. Moves of one symbol have the diamond property: a program has one
such move at a time, and the moves of the two programs commute, for one takes from the front of a
channel what the other has put at its end. A larger move of a coherent program is some moves of one
symbol. So if one schedule leads to a state where neither program moves, every schedule does
(`Network.settles_of_steps`).
-/

namespace Libcfd.Stream

open Program

/-! ## Diamonds -/

section Diamond

variable {State : Type} {R : State → State → Prop}

inductive Steps (R : State → State → Prop) : Nat → State → State → Prop
  | refl (s : State) : Steps R 0 s s
  | head {n : Nat} {s t u : State} (h : R s t) (hrest : Steps R n t u) : Steps R (n + 1) s u

theorem Steps.append {n m : Nat} {s t u : State} (h : Steps R n s t) (h' : Steps R m t u) :
    Steps R (n + m) s u := by
  induction h with
  | refl s =>
      rw [Nat.zero_add]
      exact h'
  | head hstep _ ih =>
      rw [Nat.add_right_comm]
      exact .head hstep (ih h')

/-- Two steps out of one state lead to one state, at once or after one more step each. -/
def Diamond (R : State → State → Prop) : Prop :=
  ∀ s t u, R s t → R s u → t = u ∨ ∃ v, R t v ∧ R u v

def Final (R : State → State → Prop) (s : State) : Prop := ∀ t, ¬ R s t

/-- A step does not leave the way to a final state, and is a step on it. -/
theorem Diamond.steps_of_step (hdiamond : Diamond R) {n : Nat} {s t u : State}
    (hfinal : Final R t) (h : Steps R n s t) (hstep : R s u) :
    ∃ m, n = m + 1 ∧ Steps R m u t := by
  induction h generalizing u with
  | refl s => exact absurd hstep (hfinal u)
  | @head n s s' t hfirst hrest ih =>
      refine ⟨n, rfl, ?_⟩
      rcases hdiamond s s' u hfirst hstep with rfl | ⟨v, hs', hu⟩
      · exact hrest
      · obtain ⟨m, rfl, hv⟩ := ih hfinal hs'
        exact .head hu hv

theorem Diamond.steps_of_steps (hdiamond : Diamond R) {n k : Nat} {s t u : State}
    (hfinal : Final R t) (h : Steps R n s t) (hsteps : Steps R k s u) :
    ∃ m, n = k + m ∧ Steps R m u t := by
  induction hsteps generalizing n with
  | refl s => exact ⟨n, (Nat.zero_add n).symm, h⟩
  | @head k s s' u hfirst _ ih =>
      obtain ⟨m, rfl, hs'⟩ := hdiamond.steps_of_step hfinal h hfirst
      obtain ⟨m', rfl, hu⟩ := ih hs'
      exact ⟨m', by omega, hu⟩

end Diamond

/-! ## One party -/

/-- A program with the state of its environment, what has come for it, and all it has put out. -/
structure Party (Symbol Fault : Type) (E : Signature) (α σ : Type) where
  program : StreamProgram Symbol Fault E α
  state : σ
  inbox : List Symbol
  sent : List Symbol

namespace Party

variable {Symbol Fault : Type} {E : Signature} {α σ : Type}
  (env : (op : E.Op) → σ → E.Reply op × σ)

/-- A move of so many symbols: what is put out, and the party afterwards. Nothing is read from an
empty channel. -/
def step : Party Symbol Fault E α σ → Nat → Option (List Symbol × Party Symbol Fault E α σ)
  | ⟨.done _, _, _, _⟩, _ => none
  | ⟨.request (.pollRead room) next, s, inbox, sent⟩, size =>
      if h : 0 < size ∧ size ≤ room ∧ size ≤ inbox.length then
        some ([], ⟨next (.ok ⟨inbox.take size, Nat.le_trans (List.length_take_le ..) h.2.1⟩), s,
          inbox.drop size, sent⟩)
      else none
  | ⟨.request (.pollWrite symbols) next, s, inbox, sent⟩, size =>
      if h : 0 < size ∧ size ≤ symbols.length then
        some (symbols.take size, ⟨next (.ok ⟨size, h.2⟩), s, inbox, sent ++ symbols.take size⟩)
      else none
  | ⟨.request (.effect op) next, s, inbox, sent⟩, _ =>
      some ([], ⟨next (env op s).1, (env op s).2, inbox, sent⟩)

def receive (p : Party Symbol Fault E α σ) (xs : List Symbol) : Party Symbol Fault E α σ :=
  { p with inbox := p.inbox ++ xs }

@[simp] theorem receive_program (p : Party Symbol Fault E α σ) (xs : List Symbol) :
    (p.receive xs).program = p.program := rfl

@[simp] theorem receive_nil (p : Party Symbol Fault E α σ) : p.receive [] = p := by
  rw [receive, List.append_nil]

theorem receive_append (p : Party Symbol Fault E α σ) (xs ys : List Symbol) :
    p.receive (xs ++ ys) = (p.receive xs).receive ys := by
  rw [receive, receive, receive, List.append_assoc]

/-- What comes later is not in the way of a move. -/
theorem step_receive {env : (op : E.Op) → σ → E.Reply op × σ} {p q : Party Symbol Fault E α σ}
    {size : Nat} {out : List Symbol} (h : p.step env size = some (out, q)) (xs : List Symbol) :
    (p.receive xs).step env size = some (out, q.receive xs) := by
  obtain ⟨program, s, inbox, sent⟩ := p
  cases program with
  | done a => cases h
  | request op next =>
      cases op with
      | pollRead room =>
          rw [step] at h
          split at h
          · next hsize =>
              obtain ⟨hpos, hroom, hinbox⟩ := hsize
              cases h
              have htake : (inbox ++ xs).take size = inbox.take size :=
                List.take_append_of_le_length hinbox
              have hdrop : (inbox ++ xs).drop size = inbox.drop size ++ xs :=
                List.drop_append_of_le_length hinbox
              rw [receive, step, dif_pos ⟨hpos, hroom, Nat.le_trans hinbox (by simp)⟩]
              simp only [htake, hdrop, receive]
          · cases h
      | pollWrite symbols =>
          rw [step] at h
          split at h
          · next hsize =>
              cases h
              rw [receive, step, dif_pos hsize]
              rfl
          · cases h
      | effect op =>
          cases h
          rfl

theorem coherent_step {env : (op : E.Op) → σ → E.Reply op × σ} {p q : Party Symbol Fault E α σ}
    {size : Nat} {out : List Symbol} (hcoherent : Coherent p.program)
    (h : p.step env size = some (out, q)) : Coherent q.program := by
  obtain ⟨program, s, inbox, sent⟩ := p
  cases program with
  | done a => cases h
  | request op next =>
      cases op with
      | pollRead room =>
          rw [step] at h
          split at h
          · cases h
            exact (coherent_reading_iff.mp hcoherent).2 _
          · cases h
      | pollWrite symbols =>
          rw [step] at h
          split at h
          · cases h
            exact (coherent_writing_iff.mp hcoherent).2 _
          · cases h
      | effect op =>
          cases h
          exact coherent_asking_iff.mp hcoherent _

/-- The program reads, and there is nothing to read. -/
def Waits (p : Party Symbol Fault E α σ) : Prop := IsReading p.program ∧ p.inbox = []

theorem step_of_waits {env : (op : E.Op) → σ → E.Reply op × σ} {p : Party Symbol Fault E α σ}
    (h : p.Waits) (size : Nat) : p.step env size = none := by
  obtain ⟨program, s, inbox, sent⟩ := p
  obtain ⟨⟨room, next, rfl⟩, rfl⟩ := h
  apply dif_neg
  rintro ⟨hpos, _, hinbox⟩
  exact Nat.not_le_of_lt hpos hinbox

theorem step_of_done {env : (op : E.Op) → σ → E.Reply op × σ} {p : Party Symbol Fault E α σ}
    {a : α} (h : p.program = .done a) (size : Nat) : p.step env size = none := by
  obtain ⟨program, s, inbox, sent⟩ := p
  obtain rfl := h
  rfl

/-! ### One symbol at a time -/

/-- So many moves of one symbol, with all that is put out. -/
inductive Advances : Nat → Party Symbol Fault E α σ → List Symbol → Party Symbol Fault E α σ → Prop
  | refl (p : Party Symbol Fault E α σ) : Advances 0 p [] p
  | head {n : Nat} {p q r : Party Symbol Fault E α σ} {out more : List Symbol}
      (h : p.step env 1 = some (out, q)) (hrest : Advances n q more r) :
      Advances (n + 1) p (out ++ more) r

variable {env} {p q : StreamProgram Symbol Fault E α} {s : σ} {xs inbox sent : List Symbol}

theorem Advances.append {n m : Nat} {p q r : Party Symbol Fault E α σ} {out more : List Symbol}
    (h : Advances env n p out q) (h' : Advances env m q more r) :
    Advances env (n + m) p (out ++ more) r := by
  induction h with
  | refl p =>
      rw [Nat.zero_add]
      exact h'
  | head hstep _ ih =>
      rw [Nat.add_right_comm, List.append_assoc]
      exact .head hstep (ih h')

theorem advances_of_receives (h : Receives p xs q) :
    Advances env xs.length ⟨p, s, xs ++ inbox, sent⟩ [] ⟨q, s, inbox, sent⟩ := by
  induction h with
  | nil p => exact .refl _
  | @cons room next x xs q hroom _ ih =>
      have hstep : step env ⟨reading room next, s, x :: xs ++ inbox, sent⟩ 1 =
          some ([], ⟨next (.ok ⟨[x], hroom⟩), s, xs ++ inbox, sent⟩) :=
        dif_pos ⟨Nat.one_pos, hroom, Nat.succ_pos _⟩
      exact .head hstep ih

theorem advances_of_sends (h : Sends p xs q) :
    Advances env xs.length ⟨p, s, inbox, sent⟩ xs ⟨q, s, inbox, sent ++ xs⟩ := by
  induction h generalizing sent with
  | nil p =>
      rw [List.append_nil]
      exact .refl _
  | @cons x ys xs next q _ ih =>
      have hsize : 0 < 1 ∧ 1 ≤ (x :: ys).length := ⟨Nat.one_pos, Nat.succ_pos _⟩
      have hstep : step env ⟨writing (x :: ys) next, s, inbox, sent⟩ 1 =
          some ([x], ⟨next (.ok ⟨1, hsize.2⟩), s, inbox, sent ++ [x]⟩) := by
        show (if _h : 0 < 1 ∧ 1 ≤ (x :: ys).length then _ else none) = _
        rw [dif_pos hsize]
        rfl
      rw [List.append_cons]
      exact .head hstep ih

theorem advances_of_asking {op : E.Op} {next : E.Reply op → StreamProgram Symbol Fault E α} :
    Advances env 1 ⟨asking op next, s, inbox, sent⟩ []
      ⟨next (env op s).1, (env op s).2, inbox, sent⟩ := by
  rw [← List.append_nil []]
  exact .head rfl (.refl _)

/-- A move of a coherent program is some moves of one symbol. -/
theorem advances_of_step {p q : Party Symbol Fault E α σ} {size : Nat} {out : List Symbol}
    (hcoherent : Coherent p.program) (h : p.step env size = some (out, q)) :
    ∃ n, 0 < n ∧ Advances env n p out q := by
  obtain ⟨program, s, inbox, sent⟩ := p
  cases program with
  | done a => cases h
  | request op next =>
      cases op with
      | pollRead room =>
          rw [step] at h
          split at h
          · next hsize =>
              obtain ⟨hpos, hroom, hinbox⟩ := hsize
              cases h
              have hlength : (inbox.take size).length = size := List.length_take_of_le hinbox
              have hne : inbox.take size ≠ [] := by
                rw [← List.length_pos_iff, hlength]
                exact hpos
              have hpiece := receives_piece hcoherent
                (Nat.le_trans (List.length_take_le ..) hroom) hne
              refine ⟨_, List.length_pos_iff.mpr hne, ?_⟩
              have hadvances := @advances_of_receives _ _ _ _ _ env _ _ s _ (inbox.drop size) sent
                hpiece
              rwa [List.take_append_drop] at hadvances
          · cases h
      | pollWrite symbols =>
          rw [step] at h
          split at h
          · next hsize =>
              obtain ⟨hpos, hle⟩ := hsize
              cases h
              refine ⟨_, ?_, advances_of_sends (sends_taken hcoherent hle hpos)⟩
              rw [List.length_take_of_le hle]
              exact hpos
          · cases h
      | effect op =>
          cases h
          exact ⟨1, Nat.one_pos, advances_of_asking⟩

end Party

/-! ## Two parties -/

/-- The channel to a party is its inbox. -/
structure Network (Symbol Fault : Type) (E F : Signature) (α β σ τ : Type) where
  left : Party Symbol Fault E α σ
  right : Party Symbol Fault F β τ

inductive Side where
  | left
  | right
  deriving DecidableEq, Repr

namespace Network

variable {Symbol Fault : Type} {E F : Signature} {α β σ τ : Type}
  (leftEnv : (op : E.Op) → σ → E.Reply op × σ) (rightEnv : (op : F.Op) → τ → F.Reply op × τ)

/-- A move of one of the parties; the other gets what it puts out. -/
def step (net : Network Symbol Fault E F α β σ τ) :
    Side × Nat → Option (Network Symbol Fault E F α β σ τ)
  | (.left, size) => (net.left.step leftEnv size).map fun (out, left) =>
      ⟨left, net.right.receive out⟩
  | (.right, size) => (net.right.step rightEnv size).map fun (out, right) =>
      ⟨net.left.receive out, right⟩

/-- A move of one symbol. -/
def Small (net net' : Network Symbol Fault E F α β σ τ) : Prop :=
  ∃ side, net.step leftEnv rightEnv (side, 1) = some net'

/-- Neither party moves. -/
def Stuck (net : Network Symbol Fault E F α β σ τ) : Prop :=
  ∀ move, net.step leftEnv rightEnv move = none

def IsCoherent (net : Network Symbol Fault E F α β σ τ) : Prop :=
  Coherent net.left.program ∧ Coherent net.right.program

variable {leftEnv rightEnv} {net net' : Network Symbol Fault E F α β σ τ}

theorem stuck_iff {net : Network Symbol Fault E F α β σ τ} :
    Stuck leftEnv rightEnv net ↔
      ∀ size, net.left.step leftEnv size = none ∧ net.right.step rightEnv size = none := by
  constructor
  · intro h size
    exact ⟨Option.map_eq_none_iff.mp (h (.left, size)), Option.map_eq_none_iff.mp (h (.right, size))⟩
  · rintro h ⟨side, size⟩
    cases side with
    | left => exact Option.map_eq_none_iff.mpr (h size).1
    | right => exact Option.map_eq_none_iff.mpr (h size).2

theorem step_left {size : Nat} : net.step leftEnv rightEnv (.left, size) = some net' ↔
    ∃ out left, net.left.step leftEnv size = some (out, left) ∧
      net' = ⟨left, net.right.receive out⟩ := by
  rw [step, Option.map_eq_some_iff]
  constructor
  · rintro ⟨⟨out, left⟩, h, rfl⟩
    exact ⟨out, left, h, rfl⟩
  · rintro ⟨out, left, h, rfl⟩
    exact ⟨(out, left), h, rfl⟩

theorem step_right {size : Nat} : net.step leftEnv rightEnv (.right, size) = some net' ↔
    ∃ out right, net.right.step rightEnv size = some (out, right) ∧
      net' = ⟨net.left.receive out, right⟩ := by
  rw [step, Option.map_eq_some_iff]
  constructor
  · rintro ⟨⟨out, right⟩, h, rfl⟩
    exact ⟨out, right, h, rfl⟩
  · rintro ⟨out, right, h, rfl⟩
    exact ⟨(out, right), h, rfl⟩

/-- The moves of the two parties commute. -/
theorem diamond_small : Diamond fun net net' : Network Symbol Fault E F α β σ τ =>
    Small leftEnv rightEnv net net' := by
  have hcommute : ∀ {net l r : Network Symbol Fault E F α β σ τ},
      net.step leftEnv rightEnv (.left, 1) = some l →
      net.step leftEnv rightEnv (.right, 1) = some r →
      ∃ both, l.step leftEnv rightEnv (.right, 1) = some both ∧
        r.step leftEnv rightEnv (.left, 1) = some both := by
    intro net l r hl hr
    obtain ⟨out, left, hleft, rfl⟩ := step_left.mp hl
    obtain ⟨out', right, hright, rfl⟩ := step_right.mp hr
    refine ⟨⟨left.receive out', right.receive out⟩, ?_, ?_⟩
    · exact step_right.mpr ⟨out', _, Party.step_receive hright out, rfl⟩
    · exact step_left.mpr ⟨out, _, Party.step_receive hleft out', rfl⟩
  intro net t u ⟨side, ht⟩ ⟨side', hu⟩
  cases side with
  | left =>
      cases side' with
      | left => exact .inl (Option.some.inj (ht.symm.trans hu))
      | right =>
          obtain ⟨both, h, h'⟩ := hcommute ht hu
          exact .inr ⟨both, ⟨.right, h⟩, ⟨.left, h'⟩⟩
  | right =>
      cases side' with
      | left =>
          obtain ⟨both, h, h'⟩ := hcommute hu ht
          exact .inr ⟨both, ⟨.left, h'⟩, ⟨.right, h⟩⟩
      | right => exact .inl (Option.some.inj (ht.symm.trans hu))

/-! ### Moves of more than one symbol -/

theorem steps_of_left {n : Nat} {p q : Party Symbol Fault E α σ} {out : List Symbol}
    (h : Party.Advances leftEnv n p out q) (r : Party Symbol Fault F β τ) :
    Steps (Small leftEnv rightEnv) n ⟨p, r⟩ ⟨q, r.receive out⟩ := by
  induction h generalizing r with
  | refl p =>
      rw [Party.receive_nil]
      exact .refl _
  | head hstep _ ih =>
      rw [Party.receive_append]
      exact .head ⟨.left, step_left.mpr ⟨_, _, hstep, rfl⟩⟩ (ih _)

theorem steps_of_right {n : Nat} {p q : Party Symbol Fault F β τ} {out : List Symbol}
    (h : Party.Advances rightEnv n p out q) (l : Party Symbol Fault E α σ) :
    Steps (Small leftEnv rightEnv) n ⟨l, p⟩ ⟨l.receive out, q⟩ := by
  induction h generalizing l with
  | refl p =>
      rw [Party.receive_nil]
      exact .refl _
  | head hstep _ ih =>
      rw [Party.receive_append]
      exact .head ⟨.right, step_right.mpr ⟨_, _, hstep, rfl⟩⟩ (ih _)

theorem steps_of_step {move : Side × Nat} (hcoherent : net.IsCoherent)
    (h : net.step leftEnv rightEnv move = some net') :
    net'.IsCoherent ∧ ∃ n, 0 < n ∧ Steps (Small leftEnv rightEnv) n net net' := by
  obtain ⟨hl, hr⟩ := hcoherent
  obtain ⟨side, size⟩ := move
  cases side with
  | left =>
      obtain ⟨out, left, hleft, rfl⟩ := step_left.mp h
      obtain ⟨n, hpos, hadvances⟩ := Party.advances_of_step hl hleft
      exact ⟨⟨Party.coherent_step hl hleft, hr⟩, n, hpos, steps_of_left hadvances _⟩
  | right =>
      obtain ⟨out, right, hright, rfl⟩ := step_right.mp h
      obtain ⟨n, hpos, hadvances⟩ := Party.advances_of_step hr hright
      exact ⟨⟨hl, Party.coherent_step hr hright⟩, n, hpos, steps_of_right hadvances _⟩

theorem steps_of_run {moves : List (Side × Nat)} (hcoherent : net.IsCoherent)
    (h : Machine.run (step leftEnv rightEnv) net moves = some net') :
    ∃ n, moves.length ≤ n ∧ Steps (Small leftEnv rightEnv) n net net' := by
  induction moves generalizing net with
  | nil =>
      cases h
      exact ⟨0, Nat.le_refl _, .refl _⟩
  | cons move moves ih =>
      obtain ⟨middle, hstep, hrest⟩ := Machine.run_cons_eq_some.mp h
      obtain ⟨hmiddle, n, hpos, hfirst⟩ := steps_of_step hcoherent hstep
      obtain ⟨m, hm, hlast⟩ := ih hmiddle hrest
      refine ⟨n + m, ?_, hfirst.append hlast⟩
      rw [List.length_cons]
      omega

theorem run_of_steps {n : Nat} (h : Steps (Small leftEnv rightEnv) n net net') :
    ∃ moves, Machine.run (step leftEnv rightEnv) net moves = some net' := by
  induction h with
  | refl net => exact ⟨[], rfl⟩
  | head hstep _ ih =>
      obtain ⟨side, hstep⟩ := hstep
      obtain ⟨moves, hrest⟩ := ih
      exact ⟨(side, 1) :: moves, Machine.run_cons_eq_some.mpr ⟨_, hstep, hrest⟩⟩

/-! ### The schedule does not matter -/

/-- Every schedule leads to `last`: there are only so many moves, whatever has been done `last` can
still be reached, and nothing else is stuck. -/
def Settles (leftEnv : (op : E.Op) → σ → E.Reply op × σ) (rightEnv : (op : F.Op) → τ → F.Reply op × τ)
    (net last : Network Symbol Fault E F α β σ τ) : Prop :=
  Stuck leftEnv rightEnv last ∧ ∃ bound, ∀ moves reached,
    Machine.run (step leftEnv rightEnv) net moves = some reached →
      moves.length ≤ bound ∧
      (∃ more, Machine.run (step leftEnv rightEnv) reached more = some last) ∧
      (Stuck leftEnv rightEnv reached → reached = last)

/-- **One schedule shows where all of them lead.** -/
theorem settles_of_steps {n : Nat} {last : Network Symbol Fault E F α β σ τ}
    (hcoherent : net.IsCoherent) (hstuck : Stuck leftEnv rightEnv last)
    (h : Steps (Small leftEnv rightEnv) n net last) : Settles leftEnv rightEnv net last := by
  have hfinal : Final (Small leftEnv rightEnv) last := by
    rintro next ⟨side, hstep⟩
    rw [hstuck] at hstep
    cases hstep
  refine ⟨hstuck, n, fun moves reached hrun => ?_⟩
  obtain ⟨k, hk, hsteps⟩ := steps_of_run hcoherent hrun
  obtain ⟨m, rfl, hmore⟩ := diamond_small.steps_of_steps hfinal h hsteps
  refine ⟨Nat.le_trans hk (Nat.le_add_right k m), run_of_steps hmore, fun hreached => ?_⟩
  cases hmore with
  | refl => rfl
  | head hstep _ =>
      obtain ⟨side, hstep⟩ := hstep
      rw [hreached] at hstep
      cases hstep

end Network

end Libcfd.Stream
