import Libcfd.Foundation.Machine
import Libcfd.Foundation.Reader
import Mathlib.Logic.Function.Basic

/-!
# The quinn backend: clones of one stream

All clones of a `QuicStream` share one `SendStream` and one `RecvStream` behind a mutex. A poll takes
the half out, polls it without the lock, and puts it back under the lock again. What another clone
does in between finds no half: to it the half looks like one that is not there, so a read is at its
end, a write is refused, and `finish`, `cancel_write` and `stop_read` do nothing.

`right_iff_findsHalf` says that this is all that goes wrong.
-/

namespace Libcfd.Edge.Quic.Quinn

open Libcfd.Machine Libcfd.Reader

/-! ## The halves -/

inductive ErrorKind where
  | brokenPipe
  | other
  deriving DecidableEq, Repr

/-- `std::io::Error`, by its kind and message. -/
structure Fault where
  kind : ErrorKind
  message : String
  deriving DecidableEq, Repr

inductive Half where
  | recv
  | send
  deriving DecidableEq, Repr

/-- One of the polls of `AsyncRead` and `AsyncWrite` that goes to quinn. -/
inductive Poll where
  | read (room : Nat)
  | write (bytes : List UInt8)
  | flush
  deriving DecidableEq, Repr

def Poll.half : Poll → Half
  | .read _ => .recv
  | .write _ | .flush => .send

/-- What a poll returns; a write or a flush that is pending is `none`. -/
inductive Result where
  | read (polled : Polled UInt8 Fault)
  | write (result : Option (Except Fault Nat))
  | flush (result : Option (Except Fault Unit))

/-- What a poll returns that finds no half. -/
def Poll.unavailable : Poll → Result
  | .read _ => .read .atEnd
  | .write _ => .write (some (.error ⟨.brokenPipe, "write side is closed"⟩))
  | .flush => .flush (some (.ok ()))

/-- What needs the lock once; `poll_close` is `finish`. -/
inductive Command where
  | finish
  | cancelWrite
  | stopRead
  deriving DecidableEq, Repr

def Command.half : Command → Half
  | .finish | .cancelWrite => .send
  | .stopRead => .recv

/-- The crate, as far as one stream goes: what its two halves are worth at a moment, what it does
when it is called, and what a packet changes. -/
structure Crate where
  Halves : Type
  Packet : Type
  pollRead : Nat → Halves → Polled UInt8 Fault × Halves
  pollWrite : List UInt8 → Halves → Option (Except Fault Nat) × Halves
  pollFlush : Halves → Option (Except Fault Unit) × Halves
  command : Command → Halves → Halves
  packet : Packet → Halves → Halves
  -- the receive side has ended: its end was read, or it was stopped; the send side was closed
  isOver : Halves → Half → Bool
  -- the receive side was stopped
  isStopped : Halves → Bool
  -- what is still to come of all that the peer sends
  rest : Halves → List UInt8

def Crate.poll (Q : Crate) : Poll → Q.Halves → Result × Q.Halves
  | .read room, halves => ((Q.pollRead room halves).1 |> .read, (Q.pollRead room halves).2)
  | .write bytes, halves => ((Q.pollWrite bytes halves).1 |> .write, (Q.pollWrite bytes halves).2)
  | .flush, halves => ((Q.pollFlush halves).1 |> .flush, (Q.pollFlush halves).2)

/-- What the adapter relies on. -/
structure Crate.Lawful (Q : Crate) : Prop where
  isOver_poll : ∀ p halves half,
    Q.isOver halves half = true → Q.isOver (Q.poll p halves).2 half = true
  isOver_command : ∀ c halves half,
    Q.isOver halves half = true → Q.isOver (Q.command c halves) half = true
  isOver_packet : ∀ packet halves half,
    Q.isOver halves half = true → Q.isOver (Q.packet packet halves) half = true
  -- no bytes are the end, if there was room for one
  isOver_of_atEnd : ∀ room halves, 0 < room → (Q.pollRead room halves).1 = .atEnd →
    Q.isOver (Q.pollRead room halves).2 .recv = true
  isOver_of_brokenPipe : ∀ bytes halves message,
    (Q.pollWrite bytes halves).1 = some (.error ⟨.brokenPipe, message⟩) →
    Q.isOver (Q.pollWrite bytes halves).2 .send = true
  -- a read takes what it returns off what is to come; one that is stopped returns no bytes
  rest_pollRead : ∀ room halves,
    (Q.pollRead room halves).1.bytes ++ Q.rest (Q.pollRead room halves).2 = Q.rest halves
  rest_of_atEnd : ∀ room halves, 0 < room → Q.isStopped halves = false →
    (Q.pollRead room halves).1 = .atEnd → Q.rest halves = []
  rest_packet : ∀ packet halves, Q.rest (Q.packet packet halves) = Q.rest halves
  rest_stopRead : ∀ halves, Q.rest (Q.command .stopRead halves) = []
  isStopped_pollRead : ∀ room halves,
    Q.isStopped (Q.pollRead room halves).2 = Q.isStopped halves
  isStopped_packet : ∀ packet halves, Q.isStopped (Q.packet packet halves) = Q.isStopped halves

/-! ## The clones -/

/-- Where a half is; it is moved, and so in one place at a time. -/
inductive Place where
  -- `None` from the beginning
  | missing
  -- in `StreamParts`
  | shared
  -- with a clone that polls it
  | taken (clone : Nat)
  deriving DecidableEq, Repr

/-- How far a clone is with a poll. -/
inductive Call where
  | idle
  | taken (p : Poll)
  | polled (p : Poll) (result : Result)

/-- The poll a clone is in. -/
def Call.current : Call → Option Poll
  | .idle => none
  | .taken p | .polled p _ => some p

/-- A stream and its clones, which are numbered. -/
structure Clones (Q : Crate) where
  halves : Q.Halves
  place : Half → Place
  call : Nat → Call

inductive Label (Q : Crate) where
  -- the three steps of a poll
  | take (clone : Nat) (p : Poll)
  | poll (clone : Nat)
  | restore (clone : Nat)
  | command (clone : Nat) (c : Command)
  | packet (packet : Q.Packet)

namespace Clones

variable {Q : Crate}

/-- `QuicStream::new`, with the halves that are there. -/
def start (halves : Q.Halves) (has : Half → Bool) : Clones Q where
  halves := halves
  place half := if has half then .shared else .missing
  call _ := .idle

open Function (update)

/-- A clone is polled through `&mut self`: it begins nothing else before the poll returns. -/
def step (s : Clones Q) : Label Q → Option (Clones Q)
  | .take clone p =>
      match s.call clone with
      | .idle =>
          if s.place p.half = .shared then
            some { s with
              place := update s.place p.half (.taken clone)
              call := update s.call clone (.taken p) }
          else some s
      | _ => none
  | .poll clone =>
      match s.call clone with
      | .taken p =>
          let (result, halves) := Q.poll p s.halves
          some { s with halves := halves, call := update s.call clone (.polled p result) }
      | _ => none
  | .restore clone =>
      match s.call clone with
      | .polled p _ =>
          some { s with
            place := update s.place p.half .shared
            call := update s.call clone .idle }
      | _ => none
  | .command clone c =>
      match s.call clone with
      | .idle =>
          if s.place c.half = .shared then some { s with halves := Q.command c s.halves } else some s
      | _ => none
  | .packet packet => some { s with halves := Q.packet packet s.halves }

/-- What a poll returns in this step, if one does. -/
def returns (s : Clones Q) : Label Q → Option Result
  | .take clone p =>
      match s.call clone with
      | .idle => if s.place p.half = .shared then none else some p.unavailable
      | _ => none
  | .restore clone =>
      match s.call clone with
      | .polled _ result => some result
      | _ => none
  | _ => none

/-! ## What is right -/

/-- A half that was not there from the beginning, or is over. -/
def IsGone (s : Clones Q) (half : Half) : Prop :=
  s.place half = .missing ∨ Q.isOver s.halves half = true

/-- `Ok(0)` is returned of a receive side that is gone, and `BrokenPipe` of a send side that is. -/
def Honest (s : Clones Q) : Result → Prop
  | .read (.ready (.ok [])) => s.IsGone .recv
  | .write (some (.error error)) => error.kind = .brokenPipe → s.IsGone .send
  | _ => True

/-- Nothing false is returned in this step, and no command to a half that exists goes by without
effect. -/
def Right (s : Clones Q) (l : Label Q) : Prop :=
  (∀ result, s.returns l = some result → s.Honest result) ∧
    ∀ clone c t, l = .command clone c → s.place c.half ≠ .missing → s.step l = some t →
      t.halves = Q.command c s.halves

/-- No clone has the half. -/
def Unheld (s : Clones Q) (half : Half) : Prop := ∀ clone, s.place half ≠ .taken clone

/-- What begins in this step does not find its half with a clone, unless that makes no
difference. -/
def FindsHalf (s : Clones Q) : Label Q → Prop
  | .take _ .flush => True
  | .take clone p =>
      s.call clone = .idle → s.Unheld p.half ∨ Q.isOver s.halves p.half = true
  | .command clone c => s.call clone = .idle → s.Unheld c.half ∨ Q.command c s.halves = s.halves
  | _ => True

/-- A read has room for a byte. -/
def HasRoom (_ : Clones Q) : Label Q → Prop
  | .take _ (.read room) => 0 < room
  | _ => True

/-! ## What a step does -/

/-- Everything a step can do. -/
inductive Steps (s : Clones Q) : Label Q → Clones Q → Prop
  | takes {clone : Nat} {p : Poll} (hidle : s.call clone = .idle)
      (hshared : s.place p.half = .shared) :
      Steps s (.take clone p) { s with
        place := update s.place p.half (.taken clone)
        call := update s.call clone (.taken p) }
  | unavailable {clone : Nat} {p : Poll} (hidle : s.call clone = .idle)
      (haway : s.place p.half ≠ .shared) : Steps s (.take clone p) s
  | polls {clone : Nat} {p : Poll} (htaken : s.call clone = .taken p) :
      Steps s (.poll clone) { s with
        halves := (Q.poll p s.halves).2
        call := update s.call clone (.polled p (Q.poll p s.halves).1) }
  | restores {clone : Nat} {p : Poll} {result : Result} (hpolled : s.call clone = .polled p result) :
      Steps s (.restore clone) { s with
        place := update s.place p.half .shared
        call := update s.call clone .idle }
  | commands {clone : Nat} {c : Command} (hidle : s.call clone = .idle)
      (hshared : s.place c.half = .shared) :
      Steps s (.command clone c) { s with halves := Q.command c s.halves }
  | ignored {clone : Nat} {c : Command} (hidle : s.call clone = .idle)
      (haway : s.place c.half ≠ .shared) : Steps s (.command clone c) s
  | packets (packet : Q.Packet) : Steps s (.packet packet) { s with
      halves := Q.packet packet s.halves }

theorem steps_of_step {s t : Clones Q} {l : Label Q} (h : s.step l = some t) : Steps s l t := by
  cases l with
  | take clone p =>
      cases hcall : s.call clone with
      | idle =>
          rw [step, hcall] at h
          dsimp only at h
          split at h
          · next hshared =>
            cases h
            exact .takes hcall hshared
          · next haway =>
            cases h
            exact .unavailable hcall haway
      | _ =>
          rw [step, hcall] at h
          cases h
  | poll clone =>
      cases hcall : s.call clone with
      | taken p =>
          rw [step, hcall] at h
          cases h
          exact .polls hcall
      | _ =>
          rw [step, hcall] at h
          cases h
  | restore clone =>
      cases hcall : s.call clone with
      | polled p result =>
          rw [step, hcall] at h
          cases h
          exact .restores hcall
      | _ =>
          rw [step, hcall] at h
          cases h
  | command clone c =>
      cases hcall : s.call clone with
      | idle =>
          rw [step, hcall] at h
          dsimp only at h
          split at h
          · next hshared =>
            cases h
            exact .commands hcall hshared
          · next haway =>
            cases h
            exact .ignored hcall haway
      | _ =>
          rw [step, hcall] at h
          cases h
  | packet packet =>
      cases h
      exact .packets packet

/-! ## Polls between their steps -/

/-- A clone that is in a poll has the half. -/
def Held (s : Clones Q) : Prop :=
  ∀ clone p, (s.call clone).current = some p → s.place p.half = .taken clone

variable {s t : Clones Q}

theorem held_start (halves : Q.Halves) (has : Half → Bool) : (start halves has).Held := nofun

/-- A half that moves while nobody else has it. -/
theorem Held.move (h : s.Held) {clone : Nat} {half : Half} {place : Place} {call : Call}
    (hfree : s.place half = .shared ∨ s.place half = .taken clone)
    (hidle : ∀ p, (s.call clone).current = some p → p.half = half)
    (hcall : ∀ p, call.current = some p → p.half = half ∧ place = .taken clone) :
    Held { s with place := update s.place half place, call := update s.call clone call } := by
  intro other p hp
  by_cases heq : other = clone
  · subst heq
    obtain ⟨rfl, rfl⟩ := hcall p (by simpa using hp)
    exact Function.update_self ..
  · have hother := h other p (by simpa [Function.update_of_ne heq] using hp)
    show update s.place half place p.half = .taken other
    rw [Function.update_of_ne, hother]
    rintro rfl
    rw [hother] at hfree
    rcases hfree with hfree | hfree
    · cases hfree
    · cases hfree
      exact heq rfl

theorem held_step {l : Label Q} (hheld : s.Held) (h : s.step l = some t) : t.Held := by
  cases steps_of_step h with
  | @takes clone p hidle hshared =>
      refine hheld.move (.inl hshared) (fun p' hp' => ?_) fun p' hp' => ?_
      · rw [hidle] at hp'
        cases hp'
      · cases hp'
        exact ⟨rfl, rfl⟩
  | @polls clone p htaken =>
      intro other p' hp'
      by_cases heq : other = clone
      · subst heq
        have hsame : p = p' := by simpa [Call.current] using hp'
        exact hheld other p' (by rw [htaken, ← hsame]; rfl)
      · exact hheld other p' (by simpa [Function.update_of_ne heq] using hp')
  | @restores clone p result hpolled =>
      refine hheld.move (.inr (hheld clone p (by rw [hpolled]; rfl))) (fun p' hp' => ?_) nofun
      rw [hpolled] at hp'
      cases hp'
      rfl
  | unavailable | commands | ignored | packets => exact hheld

/-- What is gone stays gone. -/
theorem isGone_step (hQ : Q.Lawful) {l : Label Q} (hheld : s.Held) (h : s.step l = some t)
    {half : Half} (hgone : s.IsGone half) : t.IsGone half := by
  rcases hgone with hmissing | hover
  · have hmove : ∀ half' place, s.place half' ≠ .missing →
        update s.place half' place half = .missing := by
      intro half' place hne
      rw [Function.update_of_ne, hmissing]
      rintro rfl
      exact hne hmissing
    refine .inl ?_
    cases steps_of_step h with
    | takes hidle hshared => exact hmove _ _ (by rw [hshared]; nofun)
    | @restores clone p result hpolled =>
        exact hmove _ _ (by rw [hheld clone p (by rw [hpolled]; rfl)]; nofun)
    | _ => exact hmissing
  · refine .inr ?_
    cases steps_of_step h with
    | @polls clone p htaken => exact hQ.isOver_poll p s.halves half hover
    | @commands clone c hidle hshared => exact hQ.isOver_command c s.halves half hover
    | packets packet => exact hQ.isOver_packet packet s.halves half hover
    | _ => exact hover

/-- A read that has taken its half has room, and what a poll is going to return is the truth. -/
def IsTrue (s : Clones Q) : Call → Prop
  | .taken (.read room) => 0 < room
  | .polled _ result => s.Honest result
  | _ => True

theorem Honest.mono {result : Result} (h : s.Honest result)
    (hgone : ∀ half, s.IsGone half → t.IsGone half) : t.Honest result := by
  unfold Honest at h ⊢
  split at h
  · exact hgone .recv h
  · exact fun hkind => hgone .send (h hkind)
  · trivial

theorem IsTrue.mono {call : Call} (h : s.IsTrue call)
    (hgone : ∀ half, s.IsGone half → t.IsGone half) : t.IsTrue call := by
  cases call with
  | idle => trivial
  | taken p => cases p <;> exact h
  | polled p result => exact Honest.mono h hgone

/-- What quinn returns is the truth. -/
theorem honest_poll (hQ : Q.Lawful) {p : Poll} (hroom : s.IsTrue (.taken p))
    (hhalves : t.halves = (Q.poll p s.halves).2) : t.Honest (Q.poll p s.halves).1 := by
  unfold Honest
  split
  · next hend =>
    cases p with
    | read room =>
        refine .inr ?_
        rw [hhalves]
        exact hQ.isOver_of_atEnd room s.halves hroom (Result.read.inj hend)
    | _ => cases hend
  · next error hwrite =>
    cases p with
    | write bytes =>
        obtain ⟨_, message⟩ := error
        rintro ⟨⟩
        refine .inr ?_
        rw [hhalves]
        exact hQ.isOver_of_brokenPipe bytes s.halves message (Result.write.inj hwrite)
    | _ => cases hwrite
  · trivial

/-- Every poll holds its half and is going to return the truth. -/
def Sound (s : Clones Q) : Prop := s.Held ∧ ∀ clone, s.IsTrue (s.call clone)

theorem sound_start (halves : Q.Halves) (has : Half → Bool) : (start halves has).Sound :=
  ⟨held_start halves has, fun _ => trivial⟩

theorem sound_step (hQ : Q.Lawful) {l : Label Q} (hsound : s.Sound) (hroom : s.HasRoom l)
    (h : s.step l = some t) : t.Sound := by
  have hold : ∀ clone, t.IsTrue (s.call clone) := fun clone =>
    (hsound.2 clone).mono fun _ => isGone_step hQ hsound.1 h
  have hupdate : ∀ clone call, t.IsTrue call →
      ∀ other, t.IsTrue (update s.call clone call other) := by
    intro clone call hcall other
    by_cases heq : other = clone
    · rw [heq, Function.update_self]
      exact hcall
    · rw [Function.update_of_ne heq]
      exact hold other
  refine ⟨held_step hsound.1 h, ?_⟩
  cases steps_of_step h with
  | @takes clone p hidle hshared =>
      refine hupdate clone (.taken p) ?_
      cases p with
      | read room => exact hroom
      | _ => trivial
  | @polls clone p htaken =>
      have hclone := hsound.2 clone
      rw [htaken] at hclone
      exact hupdate clone _ (honest_poll hQ hclone rfl)
  | restores hpolled => exact hupdate _ .idle trivial
  | unavailable | commands | ignored | packets => exact hold

/-! ## What goes wrong, and when -/

/-- A poll returns because it finds no half, or has been polled. -/
theorem cases_of_returns {l : Label Q} {result : Result} (h : s.returns l = some result) :
    (∃ clone p, l = .take clone p ∧ s.call clone = .idle ∧ s.place p.half ≠ .shared ∧
      result = p.unavailable) ∨
    ∃ clone p, l = .restore clone ∧ s.call clone = .polled p result := by
  cases l with
  | take clone p =>
      rw [returns] at h
      split at h
      · next hidle =>
        obtain ⟨haway, ⟨⟩⟩ := Option.ite_none_left_eq_some.mp h
        exact .inl ⟨clone, p, rfl, hidle, haway, rfl⟩
      · cases h
  | restore clone =>
      rw [returns] at h
      split at h
      · next p polled hpolled =>
        cases h
        exact .inr ⟨clone, p, rfl, hpolled⟩
      · cases h
  | _ => cases h

theorem Unheld.missing {half : Half} (h : s.Unheld half) (haway : s.place half ≠ .shared) :
    s.place half = .missing := by
  cases hplace : s.place half with
  | missing => rfl
  | shared => exact absurd hplace haway
  | taken clone => exact absurd hplace (h clone)

/-- What finds no half is right in saying so if the half is gone. -/
theorem honest_unavailable {p : Poll} (h : p ≠ .flush → s.IsGone p.half) :
    s.Honest p.unavailable := by
  cases p with
  | read room => exact h nofun
  | write bytes => exact fun _ => h nofun
  | flush => trivial

theorem right_of_findsHalf {l : Label Q} (hsound : s.Sound) (h : s.FindsHalf l) : s.Right l := by
  constructor
  · intro result hreturns
    rcases cases_of_returns hreturns with ⟨clone, p, rfl, hidle, haway, rfl⟩ | ⟨clone, p, rfl, hp⟩
    · apply honest_unavailable
      intro hflush
      have hfinds : s.Unheld p.half ∨ Q.isOver s.halves p.half = true := by
        cases p with
        | flush => exact absurd rfl hflush
        | read room => exact h hidle
        | write bytes => exact h hidle
      rcases hfinds with hunheld | hover
      · exact .inl (hunheld.missing haway)
      · exact .inr hover
    · have hclone := hsound.2 clone
      rw [hp] at hclone
      exact hclone
  · rintro clone c t rfl hexists hstep
    cases steps_of_step hstep with
    | commands hidle hshared => rfl
    | ignored hidle haway =>
        rcases h hidle with hunheld | hsame
        · exact absurd (hunheld.missing haway) hexists
        · exact hsame.symm

theorem unheld_or {half : Half} (h : s.place half ≠ .shared → s.IsGone half) :
    s.Unheld half ∨ Q.isOver s.halves half = true := by
  cases hplace : s.place half with
  | missing => exact .inl fun clone htaken => by rw [hplace] at htaken; cases htaken
  | shared => exact .inl fun clone htaken => by rw [hplace] at htaken; cases htaken
  | taken clone =>
      rcases h (by rw [hplace]; nofun) with hmissing | hover
      · rw [hplace] at hmissing
        cases hmissing
      · exact .inr hover

/-- Where nothing false is returned and no command is lost, every half was found. -/
theorem findsHalf_of_right {l : Label Q} (h : s.Right l) : s.FindsHalf l := by
  have hreturned : ∀ clone p, l = .take clone p → s.call clone = .idle →
      s.place p.half ≠ .shared → s.Honest p.unavailable := by
    rintro clone p rfl hidle haway
    refine h.1 _ ?_
    simp only [returns, hidle, if_neg haway]
  cases l with
  | take clone p =>
      cases p with
      | read room => exact fun hidle => unheld_or fun haway => hreturned _ _ rfl hidle haway
      | write bytes => exact fun hidle => unheld_or fun haway => hreturned _ _ rfl hidle haway rfl
      | flush => trivial
  | command clone c =>
      intro hidle
      cases hplace : s.place c.half with
      | taken other =>
          have hstep : s.step (.command clone c) = some s := by
            simp only [step, hidle, hplace]
            rfl
          refine .inr (h.2 clone c s rfl ?_ hstep).symm
          rw [hplace]
          nofun
      | _ => exact .inl fun other htaken => by rw [hplace] at htaken; cases htaken
  | _ => trivial

/-- **Clones of a stream.** From its creation on: as long as what begins finds its half, or makes
no difference, and reads have room, no poll returns an end or a closed stream that is not there, and
no command to a half that exists is lost. Conversely, nothing else keeps that up. -/
theorem right_iff_findsHalf (hQ : Q.Lawful) (halves : Q.Halves) (has : Half → Bool)
    (ls : List (Label Q)) :
    (Always step (fun s l => s.FindsHalf l ∧ s.HasRoom l) (start halves has) ls →
      Always step Right (start halves has) ls) ∧
    (Always step Right (start halves has) ls → Always step FindsHalf (start halves has) ls) := by
  constructor
  · intro h
    refine always_of_invariant Sound (fun s l hsound hl => ?_) (fun s l t hsound hl ht => ?_)
      (sound_start halves has) h
    · exact right_of_findsHalf hsound hl.1
    · exact sound_step hQ hsound hl.2 ht
  · exact always_mono fun s l => findsHalf_of_right

end Clones

/-! ## Two clones -/

/-- A stream whose peer has so much more to send, and that keeps what is written to it. -/
structure Buffers where
  coming : List UInt8
  unread : List UInt8
  -- the end has arrived behind `unread`
  fin : Bool
  stopped : Bool
  written : List UInt8
  finished : Bool
  reset : Bool
  coming_of_fin : fin = true → coming = []

namespace Buffers

def start (coming : List UInt8) : Buffers := ⟨coming, [], false, false, [], false, false, nofun⟩

def pollRead (room : Nat) (b : Buffers) : Polled UInt8 Fault × Buffers :=
  if b.stopped || (b.fin && b.unread.isEmpty) then (.atEnd, b)
  else if b.unread.isEmpty && room != 0 then (.pending, b)
  else (.ready (.ok (b.unread.take room)), { b with unread := b.unread.drop room })

def pollWrite (bytes : List UInt8) (b : Buffers) : Option (Except Fault Nat) × Buffers :=
  if b.finished || b.reset then (some (.error ⟨.other, "closed stream"⟩), b)
  else (some (.ok bytes.length), { b with written := b.written ++ bytes })

def command (b : Buffers) : Command → Buffers
  | .finish => { b with finished := true }
  | .cancelWrite => { b with reset := true }
  | .stopRead => { b with unread := [], stopped := true }

/-- So many more bytes arrive; the end arrives with the last of them. -/
def receive (b : Buffers) (n : Nat) : Buffers :=
  { b with
    coming := b.coming.drop n
    unread := if b.stopped then [] else b.unread ++ b.coming.take n
    fin := (b.coming.drop n).isEmpty
    coming_of_fin := List.isEmpty_iff.mp }

def isOver (b : Buffers) : Half → Bool
  | .recv => b.stopped || (b.fin && b.unread.isEmpty)
  | .send => b.finished || b.reset

/-- What is still to be read; what comes to a stopped stream is dropped. -/
def rest (b : Buffers) : List UInt8 := if b.stopped then [] else b.unread ++ b.coming

/-- A read is at the end, finds nothing yet, or takes what there is. -/
theorem pollRead_cases (room : Nat) (b : Buffers) :
    b.isOver .recv = true ∧ b.pollRead room = (.atEnd, b) ∨
    b.isOver .recv = false ∧ b.pollRead room = (.pending, b) ∨
    b.isOver .recv = false ∧ (b.unread = [] → room = 0) ∧
      b.pollRead room = (.ready (.ok (b.unread.take room)), { b with unread := b.unread.drop room }) := by
  unfold pollRead
  cases hover : b.isOver .recv with
  | true => exact .inl ⟨rfl, if_pos hover⟩
  | false =>
      rw [isOver] at hover
      rw [if_neg (by rw [hover]; nofun)]
      split
      · exact .inr (.inl ⟨rfl, rfl⟩)
      · next hroom =>
        refine .inr (.inr ⟨rfl, fun hempty => ?_, rfl⟩)
        rw [hempty] at hroom
        simpa using hroom

end Buffers

def Crate.buffers : Crate where
  Halves := Buffers
  Packet := Nat
  pollRead := Buffers.pollRead
  pollWrite := Buffers.pollWrite
  pollFlush b := (some (.ok ()), b)
  command c b := b.command c
  packet n b := b.receive n
  isOver := Buffers.isOver
  isStopped := Buffers.stopped
  rest := Buffers.rest

theorem Buffers.isOver_pollRead {b : Buffers} {half : Half} (room : Nat)
    (h : b.isOver half = true) : (b.pollRead room).2.isOver half = true := by
  rcases b.pollRead_cases room with ⟨_, heq⟩ | ⟨_, heq⟩ | ⟨hopen, _, heq⟩ <;> rw [heq]
  · exact h
  · exact h
  · cases half with
    | recv =>
        rw [hopen] at h
        cases h
    | send => exact h

theorem Buffers.isOver_of_atEnd {b : Buffers} {room : Nat} (hroom : 0 < room)
    (h : (b.pollRead room).1 = .atEnd) : b.isOver .recv = true := by
  rcases b.pollRead_cases room with ⟨hover, _⟩ | ⟨_, heq⟩ | ⟨_, hunread, heq⟩
  · exact hover
  · rw [heq] at h
    cases h
  · rw [heq] at h
    rcases List.take_eq_nil_iff.mp (Except.ok.inj (Polled.ready.inj h)) with hzero | hnil
    · omega
    · have hzero := hunread hnil
      omega

theorem Buffers.isOver_receive {b : Buffers} {half : Half} (n : Nat)
    (h : b.isOver half = true) : (b.receive n).isOver half = true := by
  cases half with
  | recv =>
      rcases Bool.or_eq_true_iff.mp h with hstopped | hread
      · exact Bool.or_eq_true_iff.mpr (.inl hstopped)
      · obtain ⟨hfin, hunread⟩ := Bool.and_eq_true_iff.mp hread
        simp [receive, isOver, b.coming_of_fin hfin, List.isEmpty_iff.mp hunread]
  | send => exact h

theorem Buffers.rest_receive (n : Nat) (b : Buffers) : (b.receive n).rest = b.rest := by
  unfold rest receive
  cases b.stopped with
  | true => rfl
  | false =>
      show (b.unread ++ b.coming.take n) ++ b.coming.drop n = b.unread ++ b.coming
      rw [List.append_assoc, List.take_append_drop]

theorem Crate.lawful_buffers : Crate.buffers.Lawful where
  isOver_poll p b half h := by
    cases p with
    | read room => exact Buffers.isOver_pollRead room h
    | write bytes =>
        show Buffers.isOver (Buffers.pollWrite bytes b).2 half = true
        unfold Buffers.pollWrite
        split
        · exact h
        · exact h
    | flush => exact h
  isOver_command c b half h := by
    cases c <;> cases half <;> simp_all [Crate.buffers, Buffers.command, Buffers.isOver]
  isOver_packet n b half h := Buffers.isOver_receive n h
  isOver_of_atEnd room b hroom h :=
    Buffers.isOver_pollRead room (Buffers.isOver_of_atEnd hroom h)
  isOver_of_brokenPipe bytes b message h := by
    change (Buffers.pollWrite bytes b).1 = _ at h
    unfold Buffers.pollWrite at h
    split at h <;> cases h
  rest_pollRead room b := by
    show (Buffers.pollRead room b).1.bytes ++ (Buffers.pollRead room b).2.rest = b.rest
    rcases Buffers.pollRead_cases room b with ⟨_, heq⟩ | ⟨_, heq⟩ | ⟨hopen, _, heq⟩ <;> rw [heq]
    · rfl
    · rfl
    · have hstopped := (Bool.or_eq_false_iff.mp hopen).1
      show b.unread.take room ++ (if b.stopped then [] else b.unread.drop room ++ b.coming) =
        if b.stopped then [] else b.unread ++ b.coming
      rw [hstopped]
      show b.unread.take room ++ (b.unread.drop room ++ b.coming) = b.unread ++ b.coming
      rw [← List.append_assoc, List.take_append_drop]
  rest_of_atEnd room b hroom hstopped h := by
    have hover : (b.stopped || (b.fin && b.unread.isEmpty)) = true :=
      Buffers.isOver_of_atEnd hroom h
    change b.stopped = false at hstopped
    rw [hstopped, Bool.false_or, Bool.and_eq_true] at hover
    show (if b.stopped then [] else b.unread ++ b.coming) = []
    rw [hstopped, b.coming_of_fin hover.1, List.isEmpty_iff.mp hover.2]
    rfl
  rest_packet n b := Buffers.rest_receive n b
  rest_stopRead b := rfl
  isStopped_pollRead room b := by
    show (Buffers.pollRead room b).2.stopped = b.stopped
    rcases Buffers.pollRead_cases room b with ⟨_, heq⟩ | ⟨_, heq⟩ | ⟨_, _, heq⟩ <;> rw [heq]
  isStopped_packet n b := rfl

/-- A stream on which nothing has arrived yet of the three bytes that come. -/
def Clones.twoClones : Clones .buffers := .start (Buffers.start [1, 2, 3]) fun _ => true

/-- While a clone reads, another is at the end; while one writes, another finds the stream closed;
and no command has an effect. -/
theorem not_right_twoClones :
    ¬ Always Clones.step Clones.Right .twoClones [.take 0 (.read 8), .take 1 (.read 8)] ∧
      ¬ Always Clones.step Clones.Right .twoClones [.take 0 (.write [4]), .take 1 (.write [5])] ∧
      ¬ Always Clones.step Clones.Right .twoClones [.take 0 (.read 8), .command 1 .stopRead] ∧
      ¬ Always Clones.step Clones.Right .twoClones [.take 0 (.write [4]), .command 1 .finish] ∧
      ¬ Always Clones.step Clones.Right .twoClones
        [.take 0 (.write [4]), .command 1 .cancelWrite] := by
  have hfinds : ∀ ls, Always Clones.step Clones.Right .twoClones ls →
      Always Clones.step Clones.FindsHalf .twoClones ls :=
    fun ls => always_mono fun s l => Clones.findsHalf_of_right
  refine ⟨fun h => ?_, fun h => ?_, fun h => ?_, fun h => ?_, fun h => ?_⟩
  all_goals
    obtain ⟨_, hsecond⟩ := hfinds _ h
    rcases (hsecond _ rfl).1 rfl with hunheld | hsame
    · exact hunheld 0 rfl
  · cases hsame
  · cases hsame
  · cases hsame
  · cases hsame
  · cases hsame

/-- One clone after the other. -/
theorem right_twoClones :
    Always Clones.step Clones.Right .twoClones
      [.take 0 (.read 8), .poll 0, .restore 0, .take 1 (.read 8), .poll 1, .restore 1,
        .command 1 .finish] := by
  refine (Clones.right_iff_findsHalf Crate.lawful_buffers (Buffers.start [1, 2, 3]) (fun _ => true)
    _).1 ?_
  refine ⟨⟨fun _ => .inl nofun, Nat.zero_lt_succ 7⟩, ?_⟩
  rintro _ ⟨⟩
  refine ⟨⟨trivial, trivial⟩, ?_⟩
  rintro _ ⟨⟩
  refine ⟨⟨trivial, trivial⟩, ?_⟩
  rintro _ ⟨⟩
  refine ⟨⟨fun _ => .inl nofun, Nat.zero_lt_succ 7⟩, ?_⟩
  rintro _ ⟨⟩
  refine ⟨⟨trivial, trivial⟩, ?_⟩
  rintro _ ⟨⟩
  refine ⟨⟨trivial, trivial⟩, ?_⟩
  rintro _ ⟨⟩
  exact ⟨⟨fun _ => .inl nofun, trivial⟩, fun _ _ => trivial⟩

end Libcfd.Edge.Quic.Quinn
