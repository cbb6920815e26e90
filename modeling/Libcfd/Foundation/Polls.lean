import Libcfd.Foundation.Stream

/-!
# The polls of an execution

A `Pipe` decides beforehand how its stream is cut. The trace of an execution leaves that open: all
that is said of it is that the pieces read are what came in, in order (`Delivers`), and that writes
are taken (`Accepts`). What a coherent program receives and sends symbol by symbol, its traces
receive and send in pieces, and what the program asks for in between is in the trace as well.
-/

namespace Libcfd.Stream

open Program

variable {Symbol Fault : Type} {E : Signature} {α β : Type}

/-- The polls of `trace` get `input` in order, up to `rest`: no read fails, and a piece is empty at
the end of the stream only. -/
def Delivers : List Symbol → List (Event (signature Symbol Fault E)) → List Symbol → Prop
  | input, [], rest => input = rest
  | input, ⟨.pollRead room, reply⟩ :: trace, rest =>
      ∃ piece h more, reply = .ok ⟨piece, h⟩ ∧ input = piece ++ more ∧
        (piece = [] → room = 0 ∨ input = []) ∧ Delivers more trace rest
  | input, ⟨.pollWrite _, _⟩ :: trace, rest => Delivers input trace rest
  | input, ⟨.effect _, _⟩ :: trace, rest => Delivers input trace rest

/-- No write of `trace` fails, and every write takes something. -/
def Accepts : List (Event (signature Symbol Fault E)) → Prop
  | [] => True
  | ⟨.pollWrite symbols, reply⟩ :: trace =>
      (∃ n h, reply = .ok ⟨n, h⟩ ∧ (n = 0 → symbols = [])) ∧ Accepts trace
  | _ :: trace => Accepts trace

/-- All that was read. -/
def received (trace : List (Event (signature Symbol Fault E))) : List Symbol :=
  trace.flatMap fun
    | ⟨.pollRead _, .ok piece⟩ => piece.val
    | _ => []

/-- All that was taken of what was written. -/
def sent (trace : List (Event (signature Symbol Fault E))) : List Symbol :=
  trace.flatMap fun
    | ⟨.pollWrite symbols, .ok n⟩ => symbols.take n.val
    | _ => []

/-- All that was asked for. -/
def asked (trace : List (Event (signature Symbol Fault E))) : List (Event E) :=
  trace.filterMap fun
    | ⟨.effect op, reply⟩ => some ⟨op, reply⟩
    | _ => none

section Append

variable {input rest : List Symbol} {xs ys : List (Event (signature Symbol Fault E))}

@[simp] theorem received_append : received (xs ++ ys) = received xs ++ received ys :=
  List.flatMap_append

@[simp] theorem sent_append : sent (xs ++ ys) = sent xs ++ sent ys := List.flatMap_append

@[simp] theorem asked_append : asked (xs ++ ys) = asked xs ++ asked ys := List.filterMap_append ..

theorem delivers_append_iff :
    Delivers input (xs ++ ys) rest ↔ ∃ middle, Delivers input xs middle ∧ Delivers middle ys rest := by
  induction xs generalizing input with
  | nil =>
      constructor
      · intro h
        exact ⟨input, rfl, h⟩
      · rintro ⟨middle, rfl, h⟩
        exact h
  | cons event xs ih =>
      obtain ⟨op, reply⟩ := event
      cases op with
      | pollRead room =>
          constructor
          · rintro ⟨piece, h, more, hreply, hinput, hend, htail⟩
            obtain ⟨middle, hxs, hys⟩ := ih.mp htail
            exact ⟨middle, ⟨piece, h, more, hreply, hinput, hend, hxs⟩, hys⟩
          · rintro ⟨middle, ⟨piece, h, more, hreply, hinput, hend, hxs⟩, hys⟩
            exact ⟨piece, h, more, hreply, hinput, hend, ih.mpr ⟨middle, hxs, hys⟩⟩
      | pollWrite symbols => exact ih
      | effect op => exact ih

theorem accepts_append_iff : Accepts (xs ++ ys) ↔ Accepts xs ∧ Accepts ys := by
  induction xs with
  | nil => exact (and_iff_right trivial).symm
  | cons event xs ih =>
      obtain ⟨op, reply⟩ := event
      cases op with
      | pollRead room => exact ih
      | pollWrite symbols =>
          show _ ∧ Accepts (xs ++ ys) ↔ (_ ∧ Accepts xs) ∧ Accepts ys
          rw [ih, and_assoc]
      | effect op => exact ih

/-- Nothing is lost between what came in and what was read. -/
theorem received_of_delivers (h : Delivers input xs rest) : received xs ++ rest = input := by
  induction xs generalizing input with
  | nil => exact h.symm
  | cons event xs ih =>
      obtain ⟨op, reply⟩ := event
      cases op with
      | pollRead room =>
          obtain ⟨piece, _, more, rfl, rfl, _, htail⟩ := h
          show (piece ++ received xs) ++ rest = piece ++ more
          rw [List.append_assoc, ih htail]
      | pollWrite symbols => exact ih h
      | effect op => exact ih h

end Append

section Exec

variable {p q : StreamProgram Symbol Fault E α} {xs rest input final : List Symbol} {value : α}
  {trace : List (Event (signature Symbol Fault E))}

/-- **However the input is cut**, a coherent program that has received `xs` is where it would be if
`xs` had come symbol by symbol, and it has done nothing but read. -/
theorem exec_of_receives (hcoherent : Coherent p) (h : Receives p xs q) (hexec : Exec p trace value)
    (hdelivers : Delivers (xs ++ rest) trace final) (hstop : rest = [] ∨ ¬ IsReading q) :
    ∃ polls trace', trace = polls ++ trace' ∧ received polls = xs ∧ sent polls = [] ∧
      asked polls = [] ∧ Exec q trace' value ∧ Delivers rest trace' final := by
  induction p generalizing xs trace with
  | done a =>
      cases h
      exact ⟨[], trace, rfl, rfl, rfl, rfl, hexec, hdelivers⟩
  | request op next ih =>
      cases xs with
      | nil =>
          cases h
          exact ⟨[], trace, rfl, rfl, rfl, rfl, hexec, hdelivers⟩
      | cons x xs =>
          have hall := h
          obtain _ | @⟨room, next, _, _, _, hroom, _⟩ := h
          obtain ⟨reply, trace, rfl, hnext⟩ := exec_request_iff.mp hexec
          obtain ⟨piece, hlength, more, rfl, hinput, hend, htail⟩ := hdelivers
          have hne : piece ≠ [] := by
            intro hnil
            rcases hend hnil with hzero | hnothing
            · omega
            · cases hnothing
          -- the piece stops within `x :: xs`, or `q` would read on
          have hwithin : piece.length ≤ (x :: xs).length := by
            apply Nat.le_of_not_lt
            intro hlt
            rcases hstop with hrest | hreading
            · have htotal := congrArg List.length hinput
              rw [hrest, List.append_nil, List.length_append] at htotal
              omega
            · obtain ⟨next', hq⟩ := hall.reading_of_lt hcoherent (Nat.lt_of_lt_of_le hlt hlength)
              exact hreading ⟨_, next', hq⟩
          obtain ⟨ys, hys⟩ : ∃ ys, x :: xs = piece ++ ys :=
            List.prefix_of_prefix_length_le ⟨more, hinput.symm⟩ ⟨rest, rfl⟩ hwithin
              |>.imp fun _ h => h.symm
          rw [hys, List.append_assoc] at hinput
          rw [hys, receives_append_iff] at hall
          obtain ⟨q', hpiece, hrest⟩ := hall
          cases hpiece.unique (receives_piece hcoherent hlength hne)
          rw [← List.append_cancel_left hinput] at htail
          obtain ⟨polls, trace', rfl, hreceived, hsent, hasked, hexec', hdelivers'⟩ :=
            ih _ ((coherent_reading_iff.mp hcoherent).2 _) hrest hnext htail
          refine ⟨⟨.pollRead room, .ok ⟨piece, hlength⟩⟩ :: polls, trace', rfl, ?_, hsent, hasked,
            hexec', hdelivers'⟩
          show piece ++ received polls = x :: xs
          rw [hreceived, hys]

/-- **However the writes are taken**, what a coherent program sends is what is taken, and it has
done nothing but write. -/
theorem exec_of_sends (hcoherent : Coherent p) (h : Sends p xs q) (hexec : Exec p trace value)
    (haccepts : Accepts trace) (hstop : ¬ IsWriting q) :
    ∃ polls trace', trace = polls ++ trace' ∧ sent polls = xs ∧ received polls = [] ∧
      asked polls = [] ∧ Exec q trace' value ∧ Accepts trace' := by
  induction p generalizing xs trace with
  | done a =>
      cases h
      exact ⟨[], trace, rfl, rfl, rfl, rfl, hexec, haccepts⟩
  | request op next ih =>
      cases xs with
      | nil =>
          cases h
          exact ⟨[], trace, rfl, rfl, rfl, rfl, hexec, haccepts⟩
      | cons x xs =>
          have hall := h
          obtain _ | @⟨_, ys, _, next, _, _⟩ := h
          obtain ⟨reply, trace, rfl, hnext⟩ := exec_request_iff.mp hexec
          obtain ⟨⟨n, hle, rfl, hzero⟩, htail⟩ := haccepts
          have hpos : 0 < n := Nat.pos_of_ne_zero fun hn => List.cons_ne_nil _ _ (hzero hn)
          -- the write ends before `q` is reached
          have hwithin : n ≤ (x :: xs).length := by
            apply Nat.le_of_not_lt
            intro hlt
            obtain ⟨next', hq⟩ := hall.writing_of_lt hcoherent (Nat.lt_of_lt_of_le hlt hle)
            exact hstop ⟨_, next', hq⟩
          rw [← List.take_append_drop n (x :: xs), sends_append_iff] at hall
          obtain ⟨q', htaken, hmore⟩ := hall
          have hlength : ((x :: xs).take n).length = ((x :: ys).take n).length := by
            rw [List.length_take, List.length_take, Nat.min_eq_left hle, Nat.min_eq_left hwithin]
          obtain ⟨htake, rfl⟩ := htaken.unique (sends_taken hcoherent hle hpos) hlength
          obtain ⟨polls, trace', rfl, hsent, hreceived, hasked, hexec', haccepts'⟩ :=
            ih _ ((coherent_writing_iff.mp hcoherent).2 _) hmore hnext htail
          refine ⟨⟨.pollWrite (x :: ys), .ok ⟨n, hle⟩⟩ :: polls, trace', rfl, ?_, hreceived, hasked,
            hexec', haccepts'⟩
          show (x :: ys).take n ++ sent polls = x :: xs
          rw [hsent, ← htake, List.take_append_drop]

/-- A program that is done once it has received `xs` is done with it. -/
theorem exec_of_receives_done {a : α} (hcoherent : Coherent p) (h : Receives p xs (.done a))
    (hexec : Exec p trace value) (hdelivers : Delivers (xs ++ rest) trace final) :
    value = a ∧ final = rest ∧ received trace = xs ∧ sent trace = [] ∧ asked trace = [] := by
  obtain ⟨polls, trace', rfl, hreceived, hsent, hasked, hexec', hdelivers'⟩ :=
    exec_of_receives hcoherent h hexec hdelivers (.inr nofun)
  obtain ⟨rfl, rfl⟩ := exec_done_iff.mp hexec'
  rw [List.append_nil]
  exact ⟨rfl, hdelivers'.symm, hreceived, hsent, hasked⟩

/-- A reader reads in pieces what it reads from the whole input. -/
theorem exec_of_reads {a : α} (h : Reads p input a rest) (hcoherent : Coherent p)
    (hexec : Exec p trace value) (hdelivers : Delivers input trace final) :
    value = a ∧ final = rest ∧ sent trace = [] ∧ asked trace = [] := by
  induction h generalizing trace with
  | complete h rest =>
      obtain ⟨rfl, rfl, _, hsent, hasked⟩ := exec_of_receives_done hcoherent h hexec hdelivers
      exact ⟨rfl, rfl, hsent, hasked⟩
  | @starved p xs a room next h _ ih =>
      have hreading := h.coherent hcoherent
      rw [← List.append_nil xs] at hdelivers
      obtain ⟨polls, trace', rfl, _, hsent, hasked, hexec', hdelivers'⟩ :=
        exec_of_receives hcoherent h hexec hdelivers (.inl rfl)
      obtain ⟨reply, trace, rfl, hnext⟩ := exec_request_iff.mp hexec'
      obtain ⟨piece, hlength, more, rfl, hinput, _, htail⟩ := hdelivers'
      obtain ⟨rfl, rfl⟩ := List.append_eq_nil_iff.mp hinput.symm
      obtain ⟨hvalue, hfinal, hsent', hasked'⟩ :=
        ih ((coherent_reading_iff.mp hreading).2 _) hnext htail
      refine ⟨hvalue, hfinal, ?_, ?_⟩
      · rw [sent_append, hsent]
        exact hsent'
      · rw [asked_append, hasked]
        exact hasked'

/-- A program that is done once it has sent `xs` is done with it. -/
theorem exec_of_sends_done {a : α} (hcoherent : Coherent p) (h : Sends p xs (.done a))
    (hexec : Exec p trace value) (haccepts : Accepts trace) :
    value = a ∧ sent trace = xs ∧ asked trace = [] := by
  obtain ⟨polls, trace', rfl, hsent, _, hasked, hexec', _⟩ :=
    exec_of_sends hcoherent h hexec haccepts nofun
  obtain ⟨rfl, rfl⟩ := exec_done_iff.mp hexec'
  rw [List.append_nil]
  exact ⟨rfl, hsent, hasked⟩

/-! ## What a program may do -/

/-- All that the program asks for is allowed. -/
def Makes (allowed : Op Symbol E → Prop) : StreamProgram Symbol Fault E α → Prop
  | .done _ => True
  | .request op next => allowed op ∧ ∀ reply, Makes allowed (next reply)

theorem Makes.bind {allowed : Op Symbol E → Prop} {f : α → StreamProgram Symbol Fault E β}
    (h : Makes allowed p) (hf : ∀ a, Makes allowed (f a)) : Makes allowed (p.bind f) := by
  induction p with
  | done a => exact hf a
  | request op next ih => exact ⟨h.1, fun reply => ih reply (h.2 reply)⟩

theorem Makes.mono {allowed allowed' : Op Symbol E → Prop} (h : Makes allowed p)
    (hall : ∀ op, allowed op → allowed' op) : Makes allowed' p := by
  induction p with
  | done a => trivial
  | request op next ih => exact ⟨hall op h.1, fun reply => ih reply (h.2 reply)⟩

theorem exec_makes {allowed : Op Symbol E → Prop} (hp : Makes allowed p)
    (hexec : Exec p trace value) : ∀ event ∈ trace, allowed event.1 := by
  induction p generalizing trace with
  | done a =>
      obtain ⟨rfl, _⟩ := exec_done_iff.mp hexec
      exact nofun
  | request op next ih =>
      obtain ⟨reply, trace, rfl, hnext⟩ := exec_request_iff.mp hexec
      intro event hevent
      rcases List.mem_cons.mp hevent with rfl | hevent
      · exact hp.1
      · exact ih reply (hp.2 reply) hnext event hevent

/-- A poll for reading. -/
def Op.IsRead : Op Symbol E → Prop
  | .pollRead _ => True
  | _ => False

/-- Anything but a poll for reading; what is asked for is allowed. -/
def Op.IsReply (allowed : E.Op → Prop) : Op Symbol E → Prop
  | .pollRead _ => False
  | .pollWrite _ => True
  | .effect op => allowed op

theorem exec_reads (hp : Makes Op.IsRead p) (hexec : Exec p trace value) :
    sent trace = [] ∧ asked trace = [] := by
  have hall := exec_makes hp hexec
  constructor
  · apply List.flatMap_eq_nil_iff.mpr
    intro ⟨op, reply⟩ hevent
    cases op with
    | pollRead room => rfl
    | pollWrite symbols => exact (hall _ hevent).elim
    | effect op => exact (hall _ hevent).elim
  · apply List.filterMap_eq_nil_iff.mpr
    intro ⟨op, reply⟩ hevent
    cases op with
    | pollRead room => rfl
    | pollWrite symbols => rfl
    | effect op => exact (hall _ hevent).elim

theorem exec_replies {allowed : E.Op → Prop} (hp : Makes (Op.IsReply allowed) p)
    (hexec : Exec p trace value) :
    received trace = [] ∧ ∀ event ∈ asked trace, allowed event.1 := by
  have hall := exec_makes hp hexec
  constructor
  · apply List.flatMap_eq_nil_iff.mpr
    intro ⟨op, reply⟩ hevent
    cases op with
    | pollRead room => exact (hall _ hevent).elim
    | pollWrite symbols => rfl
    | effect op => rfl
  · intro event hevent
    obtain ⟨⟨op, reply⟩, hmem, heq⟩ := List.mem_filterMap.mp hevent
    cases op with
    | pollRead room => cases heq
    | pollWrite symbols => cases heq
    | effect op =>
        cases heq
        exact hall _ hmem

/-! ## What only writes -/

/-- The program does nothing but write, and fails as soon as a write is not taken. -/
def Writes {ε : Type} : StreamProgram Symbol Fault E (Except ε α) → Prop
  | .done _ => True
  | .request (.pollWrite symbols) next =>
      ∀ reply, (∃ n h, reply = .ok ⟨n, h⟩ ∧ (n = 0 → symbols = [])) ∧ Writes (next reply) ∨
        ∃ e, next reply = .done (.error e)
  | .request _ _ => False

theorem Writes.bind {ε ε' : Type} {w : StreamProgram Symbol Fault E (Except ε α)}
    {f : Except ε α → StreamProgram Symbol Fault E (Except ε' β)} (h : Writes w)
    (hok : ∀ a, Writes (f (.ok a))) (herror : ∀ e, ∃ e', f (.error e) = .done (.error e')) :
    Writes (w.bind f) := by
  induction w with
  | done result =>
      cases result with
      | ok a => exact hok a
      | error e =>
          obtain ⟨e', heq⟩ := herror e
          rw [bind_done, heq]
          trivial
  | request op next ih =>
      cases op with
      | pollWrite symbols =>
          intro reply
          rcases h reply with ⟨htaken, hnext⟩ | ⟨e, hdone⟩
          · exact .inl ⟨htaken, ih reply hnext⟩
          · obtain ⟨e', heq⟩ := herror e
            refine .inr ⟨e', ?_⟩
            show (next reply).bind f = _
            rw [hdone, bind_done, heq]
      | _ => exact h.elim

/-- Such a program succeeds only if everything was taken. -/
theorem exec_writes {ε : Type} {w : StreamProgram Symbol Fault E (Except ε α)} (h : Writes w)
    {result : Except ε α} (hexec : Exec w trace result) :
    asked trace = [] ∧ ∀ a, result = .ok a → Accepts trace := by
  induction w generalizing trace with
  | done result =>
      obtain ⟨rfl, rfl⟩ := exec_done_iff.mp hexec
      exact ⟨rfl, fun _ _ => trivial⟩
  | request op next ih =>
      cases op with
      | pollWrite symbols =>
          obtain ⟨reply, trace, rfl, hnext⟩ := exec_request_iff.mp hexec
          rcases h reply with ⟨htaken, hwrites⟩ | ⟨e, hdone⟩
          · obtain ⟨hasked, haccepts⟩ := ih reply hwrites hnext
            exact ⟨hasked, fun a ha => ⟨htaken, haccepts a ha⟩⟩
          · rw [hdone] at hnext
            obtain ⟨rfl, rfl⟩ := exec_done_iff.mp hnext
            exact ⟨rfl, nofun⟩
      | _ => exact h.elim

/-- Where it fails, something was not taken. -/
theorem length_sent_lt {ε : Type} {w : StreamProgram Symbol Fault E (Except ε α)} {a : α} {e : ε}
    (h : Writes w) (hcoherent : Coherent w) (hsends : Sends w xs (.done (.ok a)))
    (hexec : Exec w trace (.error e)) : (sent trace).length < xs.length := by
  induction w generalizing xs trace with
  | done result =>
      obtain ⟨rfl, rfl⟩ := exec_done_iff.mp hexec
      cases hsends
  | request op next ih =>
      cases op with
      | pollWrite symbols =>
          obtain ⟨reply, trace, rfl, hnext⟩ := exec_request_iff.mp hexec
          have hall := hsends
          obtain _ | @⟨x, ys, xs, next, _, _⟩ := hsends
          match reply with
          | .error fault =>
              rcases h (.error fault) with ⟨⟨_, _, heq, _⟩, _⟩ | ⟨e', hdone⟩
              · cases heq
              · rw [hdone] at hnext
                obtain ⟨rfl, _⟩ := exec_done_iff.mp hnext
                exact Nat.succ_pos _
          | .ok ⟨0, hle⟩ =>
              rcases h (.ok ⟨0, hle⟩) with ⟨⟨n, _, heq, hzero⟩, _⟩ | ⟨e', hdone⟩
              · cases heq
                cases hzero rfl
              · rw [hdone] at hnext
                obtain ⟨rfl, _⟩ := exec_done_iff.mp hnext
                exact Nat.succ_pos _
          | .ok ⟨n + 1, hle⟩ =>
              have hrest : Writes (next (.ok ⟨n + 1, hle⟩)) := by
                rcases h (.ok ⟨n + 1, hle⟩) with ⟨_, hwrites⟩ | ⟨e', hdone⟩
                · exact hwrites
                · rw [hdone]
                  trivial
              have hwithin : n + 1 ≤ (x :: xs).length := by
                apply Nat.le_of_not_lt
                intro hlt
                obtain ⟨next', hq⟩ := hall.writing_of_lt hcoherent (Nat.lt_of_lt_of_le hlt hle)
                cases hq
              rw [← List.take_append_drop (n + 1) (x :: xs), sends_append_iff] at hall
              obtain ⟨q, htaken, hmore⟩ := hall
              have hlength :
                  ((x :: xs).take (n + 1)).length = ((x :: ys).take (n + 1)).length := by
                rw [List.length_take, List.length_take, Nat.min_eq_left hle,
                  Nat.min_eq_left hwithin]
              obtain ⟨-, rfl⟩ :=
                htaken.unique (sends_taken hcoherent hle (Nat.succ_pos n)) hlength
              have hlt := ih _ hrest ((coherent_writing_iff.mp hcoherent).2 _) hmore hnext
              show ((x :: ys).take (n + 1) ++ sent trace).length < (x :: xs).length
              rw [List.length_append, ← hlength, List.length_take, Nat.min_eq_left hwithin]
              rw [List.length_drop] at hlt
              omega
      | _ => exact h.elim

/-! ## Executions on a pipe -/

section Pipe

variable {σ : Type} (env : (op : E.Op) → σ → E.Reply op × σ)

/-- A pipe beside an environment with a state. -/
def Pipe.replyWith (op : (signature Symbol Fault E).Op) (side : Pipe Symbol × σ) :
    (signature Symbol Fault E).Reply op × (Pipe Symbol × σ) :=
  let (reply, pipe) := Pipe.reply (fun op => (env op side.2).1) op side.1
  (reply, pipe, match op with
    | .effect op => (env op side.2).2
    | _ => side.2)

/-- These are the environment's answers, and what they leave it in. -/
def Answers : σ → List (Event E) → σ → Prop
  | s, [], s' => s' = s
  | s, ⟨op, reply⟩ :: trace, s' => reply = (env op s).1 ∧ Answers (env op s).2 trace s'

/-- Every run beside an environment is an execution. -/
theorem exists_exec_of_interpret (p : StreamProgram Symbol Fault E α) (side : Pipe Symbol × σ) :
    let (value, side') := p.interpret (Pipe.replyWith env) side
    ∃ trace, Exec p trace value ∧ Delivers side.1.input trace side'.1.input ∧ Accepts trace ∧
      side'.1.output = side.1.output ++ sent trace ∧ Answers env side.2 (asked trace) side'.2 := by
  induction p generalizing side with
  | done a => exact ⟨[], .done a, rfl, trivial, (List.append_nil _).symm, rfl⟩
  | request op next ih =>
      obtain ⟨pipe, s⟩ := side
      obtain ⟨trace, hexec, hdelivers, haccepts, hsent, hanswers⟩ :=
        ih (Pipe.replyWith env op (pipe, s)).1 (Pipe.replyWith env op (pipe, s)).2
      refine ⟨⟨op, (Pipe.replyWith env op (pipe, s)).1⟩ :: trace, .request _ hexec, ?_⟩
      cases op with
      | pollRead room =>
          refine ⟨⟨_, _, _, rfl, (List.take_append_drop _ pipe.input).symm, ?_, hdelivers⟩, haccepts,
            hsent, hanswers⟩
          intro hnil
          rcases List.take_eq_nil_iff.mp hnil with hzero | hinput
          · left
            omega
          · right
            exact hinput
      | pollWrite symbols =>
          refine ⟨hdelivers, ⟨⟨_, _, rfl, ?_⟩, haccepts⟩, ?_, hanswers⟩
          · intro hzero
            apply List.length_eq_zero_iff.mp
            omega
          · exact hsent.trans (List.append_assoc ..)
      | effect op => exact ⟨hdelivers, haccepts, hsent, rfl, hanswers⟩

/-- Reading leaves the environment and what was written alone. -/
theorem interpret_of_reads {a : α} (h : Reads p input a rest) (hcoherent : Coherent p)
    {pipe : Pipe Symbol} (hinput : pipe.input = input) (s : σ) :
    ∃ pipe', p.interpret (Pipe.replyWith env) (pipe, s) = (a, pipe', s) ∧ pipe'.input = rest ∧
      pipe'.output = pipe.output := by
  obtain ⟨trace, hexec, hdelivers, -, hsent, hanswers⟩ :=
    exists_exec_of_interpret env p (pipe, s)
  generalize p.interpret (Pipe.replyWith env) (pipe, s) = result at *
  obtain ⟨value, pipe', s'⟩ := result
  rw [hinput] at hdelivers
  obtain ⟨rfl, rfl, hnothing, hasked⟩ := exec_of_reads h hcoherent hexec hdelivers
  rw [hnothing, List.append_nil] at hsent
  rw [hasked] at hanswers
  obtain rfl : s' = s := hanswers
  exact ⟨pipe', rfl, rfl, hsent⟩

/-- Writing leaves the environment and what is still to be read alone. -/
theorem interpret_of_sends {a : α} (h : Sends p xs (.done a)) (hcoherent : Coherent p)
    (pipe : Pipe Symbol) (s : σ) :
    ∃ pipe', p.interpret (Pipe.replyWith env) (pipe, s) = (a, pipe', s) ∧
      pipe'.input = pipe.input ∧ pipe'.output = pipe.output ++ xs := by
  obtain ⟨trace, hexec, hdelivers, haccepts, hsent, hanswers⟩ :=
    exists_exec_of_interpret env p (pipe, s)
  generalize p.interpret (Pipe.replyWith env) (pipe, s) = result at *
  obtain ⟨value, pipe', s'⟩ := result
  obtain ⟨polls, trace', rfl, hxs, hnothing, hasked, hdone, -⟩ :=
    exec_of_sends hcoherent h hexec haccepts nofun
  obtain ⟨rfl, rfl⟩ := exec_done_iff.mp hdone
  rw [List.append_nil] at hdelivers hsent hanswers
  rw [hxs] at hsent
  rw [hasked] at hanswers
  obtain rfl : s' = s := hanswers
  have hinput := received_of_delivers hdelivers
  rw [hnothing] at hinput
  exact ⟨pipe', rfl, hinput, hsent⟩

end Pipe

/-- A pipe by itself is one beside an environment without a state. -/
theorem interpret_replyWith (effects : (op : E.Op) → E.Reply op)
    (p : StreamProgram Symbol Fault E α) (pipe : Pipe Symbol) :
    p.interpret (Pipe.replyWith fun op (s : Unit) => (effects op, s)) (pipe, ()) =
      ((runOn effects p pipe).1, (runOn effects p pipe).2, ()) := by
  induction p generalizing pipe with
  | done a => rfl
  | request op next ih =>
      cases op with
      | _ => exact ih _ _

/-- Every run on a pipe is an execution. -/
theorem exists_exec_of_runOn (effects : (op : E.Op) → E.Reply op)
    (p : StreamProgram Symbol Fault E α) (pipe : Pipe Symbol) :
    ∃ trace, Exec p trace (runOn effects p pipe).1 ∧
      Delivers pipe.input trace (runOn effects p pipe).2.input ∧ Accepts trace := by
  have hrun := exists_exec_of_interpret (fun op (s : Unit) => (effects op, s)) p (pipe, ())
  rw [interpret_replyWith] at hrun
  obtain ⟨trace, hexec, hdelivers, haccepts, _, _⟩ := hrun
  exact ⟨trace, hexec, hdelivers, haccepts⟩

end Exec

end Libcfd.Stream
