import Libcfd.Foundation.Program

/-!
# Programs over a stream that comes and goes in pieces

A poll for reading offers some room and gets a piece that fits it; a poll for writing offers some
symbols and is told how many of them were taken. How a stream falls into pieces is nobody's
business: a program is `Coherent` if its loops take up where the last piece ended. A coherent
program may be followed one symbol at a time (`Receives`, `Sends`), and whatever it does then it
does however the stream is cut (`interpret_of_receives`).
-/

namespace Libcfd.Stream

open Program

inductive Op (Symbol : Type) (E : Signature) where
  | pollRead (room : Nat)
  | pollWrite (symbols : List Symbol)
  -- anything else the program asks for
  | effect (op : E.Op)

/-- What a stream replies: never more than fits. -/
def signature (Symbol Fault : Type) (E : Signature) : Signature where
  Op := Op Symbol E
  Reply
    | .pollRead room => Except Fault { piece : List Symbol // piece.length ≤ room }
    | .pollWrite symbols => Except Fault { n : Nat // n ≤ symbols.length }
    | .effect op => E.Reply op

variable {Symbol Fault : Type} {E : Signature} {α β : Type}

/-- A program over a stream. -/
abbrev StreamProgram (Symbol Fault : Type) (E : Signature) (α : Type) : Type :=
  Program (signature Symbol Fault E) α

/-- A poll for reading, with what is done with the reply. -/
abbrev reading (room : Nat)
    (next : Except Fault { piece : List Symbol // piece.length ≤ room } →
      StreamProgram Symbol Fault E α) : StreamProgram Symbol Fault E α :=
  .request (S := signature Symbol Fault E) (.pollRead room) next

abbrev writing (symbols : List Symbol)
    (next : Except Fault { n : Nat // n ≤ symbols.length } → StreamProgram Symbol Fault E α) :
    StreamProgram Symbol Fault E α :=
  .request (S := signature Symbol Fault E) (.pollWrite symbols) next

abbrev asking (op : E.Op) (next : E.Reply op → StreamProgram Symbol Fault E α) :
    StreamProgram Symbol Fault E α :=
  .request (S := signature Symbol Fault E) (.effect op) next

/-! ## One symbol at a time -/

/-- `p`, given the symbols `xs` one by one, has become `q`. -/
inductive Receives : StreamProgram Symbol Fault E α → List Symbol →
    StreamProgram Symbol Fault E α → Prop
  | nil (p : StreamProgram Symbol Fault E α) : Receives p [] p
  | cons {room : Nat}
      {next : Except Fault { piece : List Symbol // piece.length ≤ room } →
        StreamProgram Symbol Fault E α}
      {x : Symbol} {xs : List Symbol} {q : StreamProgram Symbol Fault E α} (hroom : 0 < room)
      (h : Receives (next (.ok ⟨[x], hroom⟩)) xs q) : Receives (reading room next) (x :: xs) q

/-- `p`, its symbols `xs` taken one by one, has become `q`. -/
inductive Sends : StreamProgram Symbol Fault E α → List Symbol →
    StreamProgram Symbol Fault E α → Prop
  | nil (p : StreamProgram Symbol Fault E α) : Sends p [] p
  | cons {x : Symbol} {ys xs : List Symbol}
      {next : Except Fault { n : Nat // n ≤ (x :: ys).length } → StreamProgram Symbol Fault E α}
      {q : StreamProgram Symbol Fault E α}
      (h : Sends (next (.ok ⟨1, Nat.succ_le_succ (Nat.zero_le _)⟩)) xs q) :
      Sends (writing (x :: ys) next) (x :: xs) q

theorem Receives.bind {p q : StreamProgram Symbol Fault E α} {xs : List Symbol}
    (h : Receives p xs q) (f : α → StreamProgram Symbol Fault E β) :
    Receives (p.bind f) xs (q.bind f) := by
  induction h with
  | nil => exact .nil _
  | cons hroom _ ih => exact .cons hroom ih

theorem Sends.bind {p q : StreamProgram Symbol Fault E α} {xs : List Symbol} (h : Sends p xs q)
    (f : α → StreamProgram Symbol Fault E β) : Sends (p.bind f) xs (q.bind f) := by
  induction h with
  | nil => exact .nil _
  | cons _ ih => exact .cons ih

theorem receives_append_iff {p r : StreamProgram Symbol Fault E α} {xs ys : List Symbol} :
    Receives p (xs ++ ys) r ↔ ∃ q, Receives p xs q ∧ Receives q ys r := by
  induction xs generalizing p with
  | nil =>
      constructor
      · intro h
        exact ⟨p, .nil p, h⟩
      · rintro ⟨q, ⟨⟩, h⟩
        exact h
  | cons x xs ih =>
      constructor
      · rintro (_ | ⟨hroom, h⟩)
        obtain ⟨q, hfirst, hrest⟩ := ih.mp h
        exact ⟨q, .cons hroom hfirst, hrest⟩
      · rintro ⟨q, _ | ⟨hroom, hfirst⟩, hrest⟩
        exact .cons hroom (ih.mpr ⟨q, hfirst, hrest⟩)

theorem Receives.append {p q r : StreamProgram Symbol Fault E α} {xs ys : List Symbol}
    (h : Receives p xs q) (h' : Receives q ys r) : Receives p (xs ++ ys) r :=
  receives_append_iff.mpr ⟨q, h, h'⟩

theorem Receives.unique {p q r : StreamProgram Symbol Fault E α} {xs : List Symbol}
    (h : Receives p xs q) (h' : Receives p xs r) : q = r := by
  induction h with
  | nil =>
      cases h'
      rfl
  | cons hroom _ ih =>
      cases h' with
      | cons _ h' => exact ih h'

theorem sends_append_iff {p r : StreamProgram Symbol Fault E α} {xs ys : List Symbol} :
    Sends p (xs ++ ys) r ↔ ∃ q, Sends p xs q ∧ Sends q ys r := by
  induction xs generalizing p with
  | nil =>
      constructor
      · intro h
        exact ⟨p, .nil p, h⟩
      · rintro ⟨q, ⟨⟩, h⟩
        exact h
  | cons x xs ih =>
      constructor
      · rintro (_ | h)
        obtain ⟨q, hfirst, hrest⟩ := ih.mp h
        exact ⟨q, .cons hfirst, hrest⟩
      · rintro ⟨q, _ | hfirst, hrest⟩
        exact .cons (ih.mpr ⟨q, hfirst, hrest⟩)

/-- A program sends what it sends. -/
theorem Sends.unique {p q r : StreamProgram Symbol Fault E α} {xs ys : List Symbol}
    (h : Sends p xs q) (h' : Sends p ys r) (hlength : xs.length = ys.length) :
    xs = ys ∧ q = r := by
  induction h generalizing ys with
  | nil =>
      cases List.length_eq_zero_iff.mp hlength.symm
      cases h'
      exact ⟨rfl, rfl⟩
  | cons _ ih =>
      cases h' with
      | nil => cases hlength
      | cons h' =>
          obtain ⟨rfl, rfl⟩ := ih h' (Nat.succ.inj hlength)
          exact ⟨rfl, rfl⟩

theorem Sends.append {p q r : StreamProgram Symbol Fault E α} {xs ys : List Symbol}
    (h : Sends p xs q) (h' : Sends q ys r) : Sends p (xs ++ ys) r :=
  sends_append_iff.mpr ⟨q, h, h'⟩

/-! ## Coherence -/

/-- A short piece leaves a poll for the rest of the room, and the two pieces together are as good
as one. -/
def CoherentRead (room : Nat)
    (next : Except Fault { piece : List Symbol // piece.length ≤ room } →
      StreamProgram Symbol Fault E α) : Prop :=
  0 < room ∧ ∀ (xs : List Symbol) (hxs : xs.length < room), xs ≠ [] →
    ∃ next', next (.ok ⟨xs, Nat.le_of_lt hxs⟩) = reading (room - xs.length) next' ∧
      ∀ (ys : List Symbol) (hys : ys.length ≤ room - xs.length)
        (h : (xs ++ ys).length ≤ room), ys ≠ [] → next' (.ok ⟨ys, hys⟩) = next (.ok ⟨xs ++ ys, h⟩)

/-- A short write leaves a poll for the rest of the symbols, and the two writes together are as
good as one. -/
def CoherentWrite (symbols : List Symbol)
    (next : Except Fault { n : Nat // n ≤ symbols.length } → StreamProgram Symbol Fault E α) :
    Prop :=
  symbols ≠ [] ∧ ∀ (n : Nat) (hn : n < symbols.length), 0 < n →
    ∃ next', next (.ok ⟨n, Nat.le_of_lt hn⟩) = writing (symbols.drop n) next' ∧
      ∀ (m : Nat) (hm : m ≤ (symbols.drop n).length) (h : n + m ≤ symbols.length), 0 < m →
        next' (.ok ⟨m, hm⟩) = next (.ok ⟨n + m, h⟩)

def Coherent : StreamProgram Symbol Fault E α → Prop
  | .done _ => True
  | .request (.pollRead room) next => CoherentRead room next ∧ ∀ reply, Coherent (next reply)
  | .request (.pollWrite symbols) next => CoherentWrite symbols next ∧ ∀ reply, Coherent (next reply)
  | .request (.effect _) next => ∀ reply, Coherent (next reply)

theorem coherent_done (a : α) : Coherent (.done a : StreamProgram Symbol Fault E α) := trivial

theorem coherent_reading_iff {room : Nat}
    {next : Except Fault { piece : List Symbol // piece.length ≤ room } →
      StreamProgram Symbol Fault E α} :
    Coherent (reading room next) ↔ CoherentRead room next ∧ ∀ reply, Coherent (next reply) :=
  Iff.rfl

theorem coherent_writing_iff {symbols : List Symbol}
    {next : Except Fault { n : Nat // n ≤ symbols.length } → StreamProgram Symbol Fault E α} :
    Coherent (writing symbols next) ↔ CoherentWrite symbols next ∧ ∀ reply, Coherent (next reply) :=
  Iff.rfl

theorem coherent_asking_iff {op : E.Op} {next : E.Reply op → StreamProgram Symbol Fault E α} :
    Coherent (asking op next) ↔ ∀ reply, Coherent (next reply) :=
  Iff.rfl

theorem Coherent.bind {p : StreamProgram Symbol Fault E α}
    {f : α → StreamProgram Symbol Fault E β} (h : Coherent p) (hf : ∀ a, Coherent (f a)) :
    Coherent (p.bind f) := by
  induction p with
  | done a => exact hf a
  | request op next ih =>
      cases op with
      | effect op => exact fun reply => ih reply (h reply)
      | pollRead room =>
          obtain ⟨⟨hroom, hread⟩, hnext⟩ := h
          refine ⟨⟨hroom, fun xs hxs hne => ?_⟩, fun reply => ih reply (hnext reply)⟩
          obtain ⟨next', heq, hmore⟩ := hread xs hxs hne
          refine ⟨fun reply => (next' reply).bind f, ?_, fun ys hys hlen hne' => ?_⟩
          · exact congrArg (fun q => Program.bind q f) heq
          · exact congrArg (fun q => Program.bind q f) (hmore ys hys hlen hne')
      | pollWrite symbols =>
          obtain ⟨⟨hsymbols, hwrite⟩, hnext⟩ := h
          refine ⟨⟨hsymbols, fun n hn hpos => ?_⟩, fun reply => ih reply (hnext reply)⟩
          obtain ⟨next', heq, hmore⟩ := hwrite n hn hpos
          refine ⟨fun reply => (next' reply).bind f, ?_, fun m hm hlen hpos' => ?_⟩
          · exact congrArg (fun q => Program.bind q f) heq
          · exact congrArg (fun q => Program.bind q f) (hmore m hm hlen hpos')

/-- Coherent performances of the requests make a coherent whole. -/
theorem coherent_handle {S : Signature} {h : (op : S.Op) → StreamProgram Symbol Fault E (S.Reply op)}
    (hh : ∀ op, Coherent (h op)) (p : Program S α) : Coherent (p.handle h) := by
  induction p with
  | done a => trivial
  | request op next ih => exact (hh op).bind ih

theorem Receives.coherent {p q : StreamProgram Symbol Fault E α} {xs : List Symbol}
    (h : Receives p xs q) (hcoherent : Coherent p) : Coherent q := by
  induction h with
  | nil => exact hcoherent
  | cons _ _ ih => exact ih (hcoherent.2 _)

/-- A piece is as good as its symbols one by one. -/
theorem receives_piece {room : Nat}
    {next : Except Fault { piece : List Symbol // piece.length ≤ room } →
      StreamProgram Symbol Fault E α}
    (h : Coherent (reading room next)) {piece : List Symbol} (hpiece : piece.length ≤ room)
    (hne : piece ≠ []) : Receives (reading room next) piece (next (.ok ⟨piece, hpiece⟩)) := by
  induction piece generalizing room with
  | nil => exact absurd rfl hne
  | cons x xs ih =>
      obtain ⟨⟨hroom, hread⟩, hnext⟩ := h
      cases xs with
      | nil => exact .cons hroom (.nil _)
      | cons y ys =>
          have hlt : [x].length < room := Nat.lt_of_lt_of_le (by simp) hpiece
          obtain ⟨next', heq, hmore⟩ := hread [x] hlt (List.cons_ne_nil _ _)
          have hrest : (y :: ys).length ≤ room - [x].length := Nat.le_sub_of_add_le hpiece
          have hcoherent : Coherent (reading (room - [x].length) next') := heq ▸ hnext (.ok ⟨[x], _⟩)
          have hstep := ih hcoherent hrest (List.cons_ne_nil _ _)
          rw [hmore (y :: ys) hrest hpiece (List.cons_ne_nil _ _)] at hstep
          refine .cons hroom ?_
          rw [heq]
          exact hstep

/-- Fewer symbols than there is room for leave a poll for the rest of the room. -/
theorem Receives.reading_of_lt {room : Nat}
    {next : Except Fault { piece : List Symbol // piece.length ≤ room } →
      StreamProgram Symbol Fault E α}
    {xs : List Symbol} {q : StreamProgram Symbol Fault E α} (hcoherent : Coherent (reading room next))
    (hxs : xs.length < room) (h : Receives (reading room next) xs q) :
    ∃ next', q = reading (room - xs.length) next' := by
  cases xs with
  | nil =>
      cases h
      exact ⟨next, rfl⟩
  | cons x xs =>
      have hpiece := receives_piece hcoherent (Nat.le_of_lt hxs) (List.cons_ne_nil x xs)
      obtain ⟨next', heq, _⟩ := hcoherent.1.2 (x :: xs) hxs (List.cons_ne_nil _ _)
      exact ⟨next', (h.unique hpiece).trans heq⟩

/-- A write is as good as its symbols one by one. -/
theorem sends_taken {symbols : List Symbol}
    {next : Except Fault { n : Nat // n ≤ symbols.length } → StreamProgram Symbol Fault E α}
    (h : Coherent (writing symbols next)) {n : Nat} (hn : n ≤ symbols.length) (hpos : 0 < n) :
    Sends (writing symbols next) (symbols.take n) (next (.ok ⟨n, hn⟩)) := by
  induction n generalizing symbols with
  | zero => cases hpos
  | succ n ih =>
      obtain ⟨⟨hne, hwrite⟩, hnext⟩ := h
      cases symbols with
      | nil => exact absurd rfl hne
      | cons x ys =>
          rw [List.take_succ_cons]
          cases n with
          | zero => exact .cons (.nil _)
          | succ n =>
              have hlt : 1 < (x :: ys).length := Nat.lt_of_lt_of_le (by simp) hn
              obtain ⟨next', heq, hmore⟩ := hwrite 1 hlt Nat.one_pos
              have hrest : n + 1 ≤ ((x :: ys).drop 1).length := Nat.le_of_succ_le_succ hn
              have hcoherent : Coherent (writing ((x :: ys).drop 1) next') :=
                heq ▸ hnext (.ok ⟨1, _⟩)
              have htotal : 1 + (n + 1) ≤ (x :: ys).length := Nat.add_comm .. ▸ hn
              have hlast := hmore (n + 1) hrest htotal (Nat.succ_pos n)
              refine .cons ?_
              rw [heq]
              have hsends := ih hcoherent hrest (Nat.succ_pos n)
              rw [hlast] at hsends
              have hindex : (⟨1 + (n + 1), htotal⟩ : { n : Nat // n ≤ (x :: ys).length }) =
                  ⟨n + 1 + 1, hn⟩ := Subtype.ext (Nat.add_comm ..)
              rw [hindex] at hsends
              exact hsends

/-- Fewer symbols than are offered leave a poll for the rest of them. -/
theorem Sends.writing_of_lt {symbols : List Symbol}
    {next : Except Fault { n : Nat // n ≤ symbols.length } → StreamProgram Symbol Fault E α}
    {xs : List Symbol} {q : StreamProgram Symbol Fault E α}
    (hcoherent : Coherent (writing symbols next)) (hxs : xs.length < symbols.length)
    (h : Sends (writing symbols next) xs q) :
    ∃ next', q = writing (symbols.drop xs.length) next' := by
  cases xs with
  | nil =>
      cases h
      exact ⟨next, rfl⟩
  | cons x xs =>
      have htaken := sends_taken hcoherent (Nat.le_of_lt hxs) (Nat.succ_pos xs.length)
      have hlength : (x :: xs).length = (symbols.take (x :: xs).length).length := by
        rw [List.length_take, Nat.min_eq_left (Nat.le_of_lt hxs)]
      obtain ⟨next', heq, _⟩ := hcoherent.1.2 (x :: xs).length hxs (Nat.succ_pos xs.length)
      exact ⟨next', (h.unique htaken hlength).2.trans heq⟩

/-! ## A stream with a beginning and an end -/

/-- What comes in, what has gone out, and how the two fall into pieces: the sizes the next polls
would like, clamped to what there is. -/
structure Pipe (Symbol : Type) where
  input : List Symbol
  output : List Symbol
  splits : Nat → Nat
  polls : Nat

/-- The stream of a `Pipe`, and its end: an empty piece. -/
def Pipe.reply (effects : (op : E.Op) → E.Reply op) :
    (op : (signature Symbol Fault E).Op) → Pipe Symbol →
      (signature Symbol Fault E).Reply op × Pipe Symbol
  | .pollRead room, pipe =>
      let n := min room (max 1 (pipe.splits pipe.polls))
      have h : (pipe.input.take n).length ≤ room := by
        rw [List.length_take]
        exact Nat.le_trans (Nat.min_le_left ..) (Nat.min_le_left ..)
      (.ok ⟨pipe.input.take n, h⟩, { pipe with input := pipe.input.drop n, polls := pipe.polls + 1 })
  | .pollWrite symbols, pipe =>
      let n := min symbols.length (max 1 (pipe.splits pipe.polls))
      (.ok ⟨n, Nat.min_le_left ..⟩,
        { pipe with output := pipe.output ++ symbols.take n, polls := pipe.polls + 1 })
  | .effect op, pipe => (effects op, pipe)

/-- Run a program on a pipe to its end. -/
def runOn (effects : (op : E.Op) → E.Reply op) (p : StreamProgram Symbol Fault E α)
    (pipe : Pipe Symbol) : α × Pipe Symbol :=
  p.interpret (Pipe.reply effects) pipe

/-- The program is at a poll for reading. -/
def IsReading (p : StreamProgram Symbol Fault E α) : Prop := ∃ room next, p = reading room next

/-- **The pieces do not matter.** What a coherent program does with symbols one by one it does with
them in any pieces, up to a point where it reads no further or there is nothing left to read. -/
theorem runOn_of_receives {effects : (op : E.Op) → E.Reply op}
    {p q : StreamProgram Symbol Fault E α} {xs rest : List Symbol} {pipe : Pipe Symbol}
    (hcoherent : Coherent p) (h : Receives p xs q) (hinput : pipe.input = xs ++ rest)
    (hstop : rest = [] ∨ ¬ IsReading q) :
    ∃ polls, runOn effects p pipe =
      runOn effects q { pipe with input := rest, polls := polls } := by
  induction p generalizing xs pipe with
  | done a =>
      cases h
      exact ⟨pipe.polls, by simp [← show pipe.input = rest from hinput]⟩
  | request op next ih =>
      cases xs with
      | nil =>
          cases h
          exact ⟨pipe.polls, by simp [← show pipe.input = rest from hinput]⟩
      | cons x xs =>
          have hall := h
          obtain _ | @⟨room, next, _, _, _, hroom, _⟩ := h
          let n := min room (max 1 (pipe.splits pipe.polls))
          -- the piece stops within `x :: xs`, or there is nothing after it
          have hwithin : n ≤ (x :: xs).length ∨ rest = [] := by
            rcases hstop with hrest | hreading
            · exact Or.inr hrest
            · refine Or.inl (Nat.le_of_not_lt fun hlt => hreading ?_)
              have hshort : (x :: xs).length < room := Nat.lt_of_lt_of_le hlt (Nat.min_le_left ..)
              obtain ⟨next', hq⟩ := hall.reading_of_lt hcoherent hshort
              exact ⟨_, next', hq⟩
          have htake : pipe.input.take n = (x :: xs).take n := by
            rw [hinput, List.take_append]
            rcases hwithin with hle | hrest
            · rw [Nat.sub_eq_zero_of_le hle]
              simp
            · simp [hrest]
          have hdrop : pipe.input.drop n = (x :: xs).drop n ++ rest := by
            rw [hinput, List.drop_append]
            rcases hwithin with hle | hrest
            · rw [Nat.sub_eq_zero_of_le hle]
              simp
            · simp [hrest]
          have hpos : 0 < n := by
            simp only [n]
            omega
          have hlength : ((x :: xs).take n).length ≤ room := by
            rw [List.length_take]
            exact Nat.le_trans (Nat.min_le_left ..) (Nat.min_le_left ..)
          have hne : (x :: xs).take n ≠ [] := by
            obtain ⟨m, hm⟩ : ∃ m, n = m + 1 := ⟨n - 1, by omega⟩
            simp [hm]
          rw [← List.take_append_drop n (x :: xs), receives_append_iff] at hall
          obtain ⟨q', hpiece, hmore⟩ := hall
          cases hpiece.unique (receives_piece hcoherent hlength hne)
          let pipe' : Pipe Symbol :=
            { pipe with input := (x :: xs).drop n ++ rest, polls := pipe.polls + 1 }
          have hreply : Pipe.reply effects (.pollRead room) pipe =
              ((.ok ⟨(x :: xs).take n, hlength⟩ : Except Fault _), pipe') := by
            refine Prod.ext (congrArg Except.ok (Subtype.ext htake)) ?_
            simp [Pipe.reply, pipe', ← hdrop, n]
          have hinput' : pipe'.input = (x :: xs).drop n ++ rest := rfl
          obtain ⟨polls, hrun⟩ := ih (.ok ⟨(x :: xs).take n, hlength⟩) (hcoherent.2 _) hmore hinput'
          refine ⟨polls, Eq.trans ?_ hrun⟩
          show runOn effects (next (Pipe.reply effects (.pollRead room) pipe).1)
            (Pipe.reply effects (.pollRead room) pipe).2 = _
          rw [hreply]

/-- The program is at a poll for writing. -/
def IsWriting (p : StreamProgram Symbol Fault E α) : Prop := ∃ symbols next, p = writing symbols next

/-- What a coherent program sends goes out, whatever the polls take at a time. -/
theorem runOn_of_sends {effects : (op : E.Op) → E.Reply op}
    {p q : StreamProgram Symbol Fault E α} {xs : List Symbol} {pipe : Pipe Symbol}
    (hcoherent : Coherent p) (h : Sends p xs q) (hstop : ¬ IsWriting q) :
    ∃ polls, runOn effects p pipe =
      runOn effects q { pipe with output := pipe.output ++ xs, polls := polls } := by
  induction p generalizing xs pipe with
  | done a =>
      cases h
      exact ⟨pipe.polls, by simp⟩
  | request op next ih =>
      cases xs with
      | nil =>
          cases h
          exact ⟨pipe.polls, by simp⟩
      | cons x xs =>
          have hall := h
          obtain _ | @⟨_, ys, _, next, _, _⟩ := h
          let n := min (x :: ys).length (max 1 (pipe.splits pipe.polls))
          have hle : n ≤ (x :: ys).length := Nat.min_le_left ..
          have hpos : 0 < n := by
            simp only [n, List.length_cons]
            omega
          -- the write ends before `q` is reached
          have hwithin : n ≤ (x :: xs).length := by
            refine Nat.le_of_not_lt fun hlt => hstop ?_
            obtain ⟨next', hq⟩ := hall.writing_of_lt hcoherent (Nat.lt_of_lt_of_le hlt hle)
            exact ⟨_, next', hq⟩
          rw [← List.take_append_drop n (x :: xs), sends_append_iff] at hall
          obtain ⟨q', htaken, hmore⟩ := hall
          have hlength : ((x :: xs).take n).length = ((x :: ys).take n).length := by
            rw [List.length_take, List.length_take, Nat.min_eq_left hle, Nat.min_eq_left hwithin]
          obtain ⟨htake, rfl⟩ := htaken.unique (sends_taken hcoherent hle hpos) hlength
          let pipe' : Pipe Symbol :=
            { pipe with output := pipe.output ++ (x :: xs).take n, polls := pipe.polls + 1 }
          have hreply : Pipe.reply effects (.pollWrite (x :: ys)) pipe =
              ((.ok ⟨n, hle⟩ : Except Fault _), pipe') := by
            refine Prod.ext rfl ?_
            simp only [Pipe.reply, pipe', htake, n]
          obtain ⟨polls, hrun⟩ := @ih (.ok ⟨n, hle⟩) ((x :: xs).drop n) pipe' (hcoherent.2 _) hmore
          refine ⟨polls, ?_⟩
          show runOn effects (next (Pipe.reply effects (.pollWrite (x :: ys)) pipe).1)
            (Pipe.reply effects (.pollWrite (x :: ys)) pipe).2 = _
          rw [hreply]
          refine hrun.trans ?_
          simp only [pipe', List.append_assoc, List.take_append_drop]

/-! ## Readers -/

/-- `p`, given `input` and then the end of the stream, does nothing but read, and is done with `a`
when `rest` has not been read. -/
inductive Reads : StreamProgram Symbol Fault E α → List Symbol → α → List Symbol → Prop
  | complete {p : StreamProgram Symbol Fault E α} {xs : List Symbol} {a : α}
      (h : Receives p xs (.done a)) (rest : List Symbol) : Reads p (xs ++ rest) a rest
  | starved {p : StreamProgram Symbol Fault E α} {xs : List Symbol} {a : α} {room : Nat}
      {next : Except Fault { piece : List Symbol // piece.length ≤ room } →
        StreamProgram Symbol Fault E α}
      (h : Receives p xs (reading room next))
      (hend : Reads (next (.ok ⟨[], Nat.zero_le room⟩)) [] a []) : Reads p xs a []

theorem Reads.length_le {p : StreamProgram Symbol Fault E α} {input rest : List Symbol} {a : α}
    (h : Reads p input a rest) : rest.length ≤ input.length := by
  cases h with
  | complete _ rest =>
      rw [List.length_append]
      exact Nat.le_add_left ..
  | starved _ _ => exact Nat.zero_le _

theorem Reads.rest_nil {p : StreamProgram Symbol Fault E α} {a : α} {rest : List Symbol}
    (h : Reads p [] a rest) : rest = [] :=
  List.length_eq_zero_iff.mp (Nat.le_zero.mp h.length_le)

theorem Reads.done (a : α) (rest : List Symbol) :
    Reads (.done a : StreamProgram Symbol Fault E α) rest a rest :=
  .complete (.nil _) rest

theorem Reads.of_receives {p q : StreamProgram Symbol Fault E α} {xs ys rest : List Symbol} {a : α}
    (h : Receives p xs q) (hq : Reads q ys a rest) : Reads p (xs ++ ys) a rest := by
  cases hq with
  | complete hq rest =>
      rw [← List.append_assoc]
      exact .complete (h.append hq) rest
  | starved hq hend => exact .starved (h.append hq) hend

theorem Reads.bind {p : StreamProgram Symbol Fault E α} {f : α → StreamProgram Symbol Fault E β}
    {input middle rest : List Symbol} {a : α} {b : β} (h : Reads p input a middle)
    (hf : Reads (f a) middle b rest) : Reads (p.bind f) input b rest := by
  induction h with
  | complete h middle => exact .of_receives (h.bind f) hf
  | starved h _ ih =>
      obtain rfl := hf.rest_nil
      exact .starved (h.bind f) (ih hf)

/-- What is read does not depend on the rest, if there is a rest. -/
theorem Reads.receives {p : StreamProgram Symbol Fault E α} {xs rest : List Symbol} {a : α}
    (h : Reads p (xs ++ rest) a rest) (hrest : rest ≠ []) : Receives p xs (.done a) := by
  generalize hinput : xs ++ rest = input at h
  cases h with
  | complete h rest =>
      obtain rfl := List.append_cancel_right hinput
      exact h
  | starved _ _ => exact absurd rfl hrest

/-- However its input is cut, a reader reads the same. -/
theorem Reads.runOn {effects : (op : E.Op) → E.Reply op} {p : StreamProgram Symbol Fault E α}
    {input rest : List Symbol} {a : α} (h : Reads p input a rest) {pipe : Pipe Symbol}
    (hcoherent : Coherent p) (hinput : pipe.input = input) :
    ∃ polls, Stream.runOn effects p pipe = (a, { pipe with input := rest, polls := polls }) := by
  induction h generalizing pipe with
  | complete h rest => exact runOn_of_receives hcoherent h hinput (Or.inr nofun)
  | @starved p xs a room next h _ ih =>
      have hinput' : pipe.input = xs ++ [] := by rw [hinput, List.append_nil]
      obtain ⟨polls, hrun⟩ := @runOn_of_receives _ _ _ _ effects _ _ _ _ _ hcoherent h hinput'
        (Or.inl rfl)
      have hnext := h.coherent hcoherent |>.2 (.ok ⟨[], Nat.zero_le room⟩)
      obtain ⟨polls', hlast⟩ :=
        @ih { pipe with input := [], polls := polls + 1 } hnext rfl
      have hreply : Pipe.reply effects (.pollRead room) { pipe with input := [], polls := polls } =
          ((.ok ⟨[], Nat.zero_le room⟩ : Except Fault _),
            { pipe with input := [], polls := polls + 1 }) := by
        refine Prod.ext (congrArg Except.ok (Subtype.ext List.take_nil)) ?_
        simp only [Pipe.reply, List.drop_nil]
      refine ⟨polls', hrun.trans (Eq.trans ?_ hlast)⟩
      show Stream.runOn effects (next (Pipe.reply effects (.pollRead room) _).1) _ = _
      rw [hreply]

/-! ## Writers -/

/-- A writer puts out the same, whatever the polls take at a time. -/
theorem Sends.runOn {effects : (op : E.Op) → E.Reply op} {p : StreamProgram Symbol Fault E α}
    {xs : List Symbol} {a : α} (h : Sends p xs (.done a)) (hcoherent : Coherent p)
    (pipe : Pipe Symbol) :
    ∃ polls, Stream.runOn effects p pipe =
      (a, { pipe with output := pipe.output ++ xs, polls := polls }) :=
  runOn_of_sends hcoherent h nofun

-- from here on `Coherent` is used by its lemmas: unfolding it runs the program
attribute [irreducible] Coherent

end Libcfd.Stream
