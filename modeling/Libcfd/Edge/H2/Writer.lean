import Libcfd.Edge.Serve
import Libcfd.Foundation.Machine

/-!
# Writing the body of an HTTP/2 response

`SendStreamWriter` cuts what it is given to the capacity that the flow control of the stream has
assigned. It waits for capacity once, and takes what there is then: if that is none, it queues an
empty frame and returns that it wrote nothing, which the loops over it take for a broken stream.
-/

namespace Libcfd.Edge.H2

open Libcfd.Machine Libcfd.Program Libcfd.Stream Libcfd.Rpc

/-! ## The send side -/

/-- `Poll<Option<Result<usize, h2::Error>>>`, with the text of the error. -/
inductive CapacityPoll where
  | pending
  | reset
  | failed (message : String)
  | assigned (capacity : Nat)
  deriving DecidableEq, Repr

/-- The sending half of a stream, which is the h2 crate's. The connection may work on it between
any two calls: what a call finds is up to it. -/
structure SendSide (S : Type) where
  capacity : S → Nat × S
  reserveCapacity : Nat → S → S
  pollCapacity : S → CapacityPoll × S
  sendData : List UInt8 → (endOfStream : Bool) → S → Except String Unit × S

inductive WriteErrorKind where
  | brokenPipe
  | connectionReset
  | other
  deriving DecidableEq, Repr

/-- `std::io::Error`, by its kind and message. -/
structure WriteError where
  kind : WriteErrorKind
  message : String
  deriving DecidableEq, Repr

/-- What a poll for writing returns, or `none` while it is pending. -/
abbrev Written : Type := Option (Except WriteError Nat)

structure SendStreamWriter (S : Type) where
  send : S
  closed : Bool
  -- what `send_data` has queued
  frames : List (List UInt8)

namespace SendStreamWriter

variable {S : Type} (F : SendSide S)

def new (send : S) : SendStreamWriter S := ⟨send, false, []⟩

/-- `send_data`, and whether it failed. -/
def sendData (data : List UInt8) (endOfStream : Bool) (w : SendStreamWriter S) :
    Except String Unit × SendStreamWriter S :=
  match F.sendData data endOfStream w.send with
  | (.ok (), send) => (.ok (), { w with send := send, frames := w.frames ++ [data] })
  | (.error e, send) => (.error e, { w with send := send })

/-- The capacity that is waited for, once. -/
def waitCapacity (length : Nat) (w : SendStreamWriter S) :
    Option (Except WriteError Unit) × SendStreamWriter S :=
  let (capacity, send) := F.capacity w.send
  if capacity = 0 then
    match F.pollCapacity (F.reserveCapacity length send) with
    | (.assigned _, send) => (some (.ok ()), { w with send := send })
    | (.reset, send) =>
        (some (.error ⟨.connectionReset, "stream reset by peer"⟩), { w with send := send })
    | (.failed message, send) => (some (.error ⟨.other, message⟩), { w with send := send })
    | (.pending, send) => (none, { w with send := send })
  else (some (.ok ()), { w with send := send })

/-- As many bytes as the capacity allows are queued. -/
def sendPart (buffer : List UInt8) (w : SendStreamWriter S) : Written × SendStreamWriter S :=
  let (capacity, send) := F.capacity w.send
  let n := min buffer.length capacity
  match sendData F (buffer.take n) false { w with send := send } with
  | (.ok (), w) => (some (.ok n), w)
  | (.error e, w) => (some (.error ⟨.other, e⟩), w)

def pollWrite (buffer : List UInt8) (w : SendStreamWriter S) : Written × SendStreamWriter S :=
  if w.closed then (some (.error ⟨.brokenPipe, "stream already closed"⟩), w)
  else if buffer = [] then (some (.ok 0), w)
  else
    match waitCapacity F buffer.length w with
    | (some (.ok ()), w) => sendPart F buffer w
    | (some (.error e), w) => (some (.error e), w)
    | (none, w) => (none, w)

def pollClose (w : SendStreamWriter S) : SendStreamWriter S :=
  if w.closed then w else (sendData F [] true { w with closed := true }).2

/-! ## What a write is cut to -/

/-- The writer as it is when the buffer is cut, if a poll comes so far. -/
def atCut (buffer : List UInt8) (w : SendStreamWriter S) : Option (SendStreamWriter S) :=
  if w.closed ∨ buffer = [] then none
  else
    match waitCapacity F buffer.length w with
    | (some (.ok ()), w) => some w
    | _ => none

/-- The capacity the buffer is cut to. -/
def assigned (buffer : List UInt8) (w : SendStreamWriter S) : Option Nat :=
  (w.atCut F buffer).map fun w => (F.capacity w.send).1

/-- If the write is cut at all, there is capacity for a byte, or an empty frame would be refused. -/
def HasCapacity (w : SendStreamWriter S) (buffer : List UInt8) : Prop :=
  ∀ cut, w.atCut F buffer = some cut → 0 < (F.capacity cut.send).1 ∨
    ∃ e, (F.sendData [] false (F.capacity cut.send).2).1 = .error e

variable {F} {w : SendStreamWriter S} {buffer : List UInt8}

/-- A poll that comes so far sends a part; another one leaves the frames alone, and returns that
nothing was written of nothing only. -/
theorem pollWrite_cases (F : SendSide S) (buffer : List UInt8) (w : SendStreamWriter S) :
    (∃ cut, w.atCut F buffer = some cut ∧ buffer ≠ [] ∧ cut.frames = w.frames ∧
      w.pollWrite F buffer = cut.sendPart F buffer) ∨
    w.atCut F buffer = none ∧ (w.pollWrite F buffer).2.frames = w.frames ∧
      ∀ n, (w.pollWrite F buffer).1 = some (.ok n) → buffer = [] ∧ n = 0 := by
  unfold pollWrite atCut
  by_cases hclosed : w.closed = true
  · rw [if_pos hclosed, if_pos (.inl hclosed)]
    exact .inr ⟨rfl, rfl, nofun⟩
  by_cases hempty : buffer = []
  · rw [if_neg hclosed, if_pos hempty, if_pos (.inr hempty)]
    refine .inr ⟨rfl, rfl, ?_⟩
    rintro n ⟨⟩
    exact ⟨hempty, rfl⟩
  rw [if_neg hclosed, if_neg hempty, if_neg (not_or.mpr ⟨hclosed, hempty⟩)]
  have hframes : (waitCapacity F buffer.length w).2.frames = w.frames := by
    unfold waitCapacity
    dsimp only
    split
    · split <;> rfl
    · rfl
  rcases hwait : waitCapacity F buffer.length w with ⟨_ | e | _, cut⟩
  · rw [hwait] at hframes
    exact .inr ⟨rfl, hframes, nofun⟩
  · rw [hwait] at hframes
    exact .inr ⟨rfl, hframes, nofun⟩
  · rw [hwait] at hframes
    exact .inl ⟨cut, rfl, hempty, hframes, rfl⟩

/-- What a part that is sent returns and queues. -/
theorem sendPart_cases (F : SendSide S) (buffer : List UInt8) (cut : SendStreamWriter S) :
    let n := min buffer.length (F.capacity cut.send).1
    (F.sendData (buffer.take n) false (F.capacity cut.send).2).1 = .ok () ∧
      (cut.sendPart F buffer).1 = some (.ok n) ∧
      (cut.sendPart F buffer).2.frames = cut.frames ++ [buffer.take n] ∨
    (∃ e, (F.sendData (buffer.take n) false (F.capacity cut.send).2).1 = .error e) ∧
      (∃ e, (cut.sendPart F buffer).1 = some (.error e)) ∧
      (cut.sendPart F buffer).2.frames = cut.frames := by
  intro n
  unfold sendPart sendData
  dsimp only
  rcases hsent : F.sendData (buffer.take n) false (F.capacity cut.send).2 with ⟨⟨e⟩ | ⟨⟩, send⟩
  · exact .inr ⟨⟨e, rfl⟩, ⟨_, rfl⟩, rfl⟩
  · exact .inl ⟨rfl, rfl, rfl⟩

/-! ## A sequence of polls -/

/-- A poll for writing: what it was given, what it was cut to, and what it returned. -/
structure Write where
  buffer : List UInt8
  assigned : Option Nat
  written : Written

/-- The frame a poll says it has queued. -/
def Write.frame (write : Write) : Option (List UInt8) :=
  match write.written with
  | some (.ok n) => if write.buffer = [] then none else some (write.buffer.take n)
  | _ => none

/-- No more is written than was given, and than there was capacity for. -/
def Write.IsBounded (write : Write) : Prop :=
  ∀ n, write.written = some (.ok n) → write.buffer ≠ [] →
    n ≤ write.buffer.length ∧ ∃ capacity, write.assigned = some capacity ∧ n ≤ capacity

/-- Nothing is written of nothing only. -/
def Write.IsNonzero (write : Write) : Prop := write.written = some (.ok 0) → write.buffer = []

variable (F) in
/-- A poll leaves the writer for the next one. -/
def step (w : SendStreamWriter S) (buffer : List UInt8) : Option (SendStreamWriter S) :=
  some (w.pollWrite F buffer).2

variable (F) in
def write (w : SendStreamWriter S) (buffer : List UInt8) : Option Write :=
  some ⟨buffer, w.assigned F buffer, (w.pollWrite F buffer).1⟩

variable (F) in
/-- The polls with these buffers, one after the other. -/
def writes (w : SendStreamWriter S) (buffers : List (List UInt8)) : List Write :=
  observe (step F) (write F) w buffers

theorem frames_pollWrite (F : SendSide S) (buffer : List UInt8) (w : SendStreamWriter S) :
    (w.pollWrite F buffer).2.frames =
      w.frames ++ (Write.frame ⟨buffer, w.assigned F buffer, (w.pollWrite F buffer).1⟩).toList := by
  rcases pollWrite_cases F buffer w with ⟨cut, _, hne, hframes, heq⟩ | ⟨_, hframes, hnothing⟩
  · rw [heq]
    rcases sendPart_cases F buffer cut with ⟨_, hwritten, hsent⟩ | ⟨_, ⟨e, hwritten⟩, hsent⟩
    · rw [hsent, hframes, Write.frame, hwritten]
      dsimp only
      rw [if_neg hne]
      rfl
    · rw [hsent, hframes, Write.frame, hwritten]
      exact (List.append_nil _).symm
  · rw [hframes, Write.frame]
    rcases hwritten : (w.pollWrite F buffer).1 with _ | e | n
    · exact (List.append_nil _).symm
    · exact (List.append_nil _).symm
    · dsimp only
      rw [if_pos (hnothing n hwritten).1]
      exact (List.append_nil _).symm

theorem isBounded_pollWrite (F : SendSide S) (buffer : List UInt8) (w : SendStreamWriter S) :
    Write.IsBounded ⟨buffer, w.assigned F buffer, (w.pollWrite F buffer).1⟩ := by
  intro n hwritten hne
  dsimp only at hwritten hne ⊢
  rcases pollWrite_cases F buffer w with ⟨cut, hcut, _, _, heq⟩ | ⟨_, _, hnothing⟩
  · rw [heq] at hwritten
    rcases sendPart_cases F buffer cut with ⟨_, hsent, _⟩ | ⟨_, ⟨e, hsent⟩, _⟩
    · rw [hsent] at hwritten
      cases hwritten
      rw [assigned, hcut]
      exact ⟨Nat.min_le_left .., _, rfl, Nat.min_le_right ..⟩
    · rw [hsent] at hwritten
      cases hwritten
  · exact absurd (hnothing n hwritten).1 hne

/-- **A poll never returns that nothing was written if and only if there is capacity.** -/
theorem isNonzero_iff (F : SendSide S) (buffer : List UInt8) (w : SendStreamWriter S) :
    Write.IsNonzero ⟨buffer, w.assigned F buffer, (w.pollWrite F buffer).1⟩ ↔
      w.HasCapacity F buffer := by
  rw [Write.IsNonzero, HasCapacity]
  dsimp only
  rcases pollWrite_cases F buffer w with ⟨cut, hcut, hne, _, heq⟩ | ⟨hcut, _, hnothing⟩
  · have hlength : 0 < buffer.length := List.length_pos_iff.mpr hne
    rw [heq, hcut]
    rcases sendPart_cases F buffer cut with ⟨hok, hwritten, _⟩ | ⟨⟨e, hfails⟩, ⟨e', hwritten⟩, _⟩
    · rw [hwritten]
      constructor
      · rintro hnonzero _ ⟨⟩
        left
        refine Nat.pos_of_ne_zero fun hzero => hne (hnonzero ?_)
        rw [hzero, Nat.min_zero]
      · intro hcapacity hzero
        rcases hcapacity cut rfl with hpos | ⟨e, hfails⟩
        · have hmin : min buffer.length (F.capacity cut.send).1 = 0 := by
            simpa using hzero
          omega
        · have hmin : min buffer.length (F.capacity cut.send).1 = 0 := by
            simpa using hzero
          rw [hmin, List.take_zero, hfails] at hok
          cases hok
    · rw [hwritten]
      refine iff_of_true nofun ?_
      rintro _ ⟨⟩
      rcases Nat.eq_zero_or_pos (F.capacity cut.send).1 with hzero | hpos
      · rw [hzero, Nat.min_zero, List.take_zero] at hfails
        exact .inr ⟨e, hfails⟩
      · exact .inl hpos
  · rw [hcut]
    exact iff_of_true (fun hzero => (hnothing 0 hzero).1) nofun

/-! ## The loops over it -/

/-- `write_all` has been told that nothing was written. -/
def zeroWrite : RpcError := .protocol "write returned zero bytes"

/-- A poll of a trace was told that nothing was written of something. -/
def HasZero {E : Signature} (trace : List (Program.Event (signature UInt8 IoError E))) : Prop :=
  ∃ bytes h, bytes ≠ [] ∧
    (⟨.pollWrite bytes, .ok ⟨0, h⟩⟩ : Program.Event (signature UInt8 IoError E)) ∈ trace

theorem HasZero.mono {E : Signature} {trace trace' : List (Program.Event (signature UInt8 IoError E))}
    (h : HasZero trace) (hsub : trace ⊆ trace') : HasZero trace' := by
  obtain ⟨bytes, hle, hne, hmem⟩ := h
  exact ⟨bytes, hle, hne, hsub hmem⟩

theorem hasZero_of_writeAll {E : Signature} {buffer : List UInt8}
    {trace : List (Program.Event (signature UInt8 IoError E))}
    (h : Exec (writeAll buffer).run trace (.error zeroWrite)) : HasZero trace := by
  induction hlength : buffer.length using Nat.strongRecOn generalizing buffer trace with
  | ind length ih =>
      by_cases hne : buffer = []
      · rw [hne, run_writeAll_nil, exec_done_iff] at h
        cases h.2
      · obtain ⟨next, heq, herror, hzero, hmore⟩ := run_writeAll (E := E) hne
        rw [heq] at h
        obtain ⟨reply, rest, rfl, hrest⟩ := exec_request_iff.mp h
        match reply with
        | .error e =>
            rw [herror, exec_done_iff] at hrest
            cases hrest.2
        | .ok ⟨0, hle⟩ => exact ⟨buffer, hle, hne, List.mem_cons_self⟩
        | .ok ⟨n + 1, hle⟩ =>
            rw [hmore (n + 1) hle (Nat.succ_pos n)] at hrest
            have hpos : 0 < buffer.length := List.length_pos_iff.mpr hne
            have hlt : (buffer.drop (n + 1)).length < length := by
              rw [List.length_drop]
              omega
            exact (ih _ hlt hrest rfl).mono (List.subset_cons_self _ _)

theorem hasZero_of_copyPieces {E : Signature} {pieces : List (List UInt8)}
    {trace : List (Program.Event (signature UInt8 IoError E))}
    (h : Exec (Serve.copyPieces pieces).run trace (.error zeroWrite)) : HasZero trace := by
  induction pieces generalizing trace with
  | nil => cases (exec_done_iff.mp h).2
  | cons piece pieces ih =>
      rw [Serve.copyPieces, Async.run_bind, exec_bind_iff] at h
      obtain ⟨first, written, last, rfl, hfirst, hlast⟩ := h
      cases written with
      | error e =>
          obtain ⟨_, ⟨⟩⟩ := exec_done_iff.mp hlast
          exact (hasZero_of_writeAll hfirst).mono (List.subset_append_left _ _)
      | ok _ => exact (ih hlast).mono (List.subset_append_right _ _)

theorem hasZero_of_copy {E : Signature} {body : Origin.Body}
    {trace : List (Program.Event (signature UInt8 IoError E))}
    (h : Exec (Serve.copy body).run trace (.error zeroWrite)) : HasZero trace := by
  rw [Serve.copy, Async.run_bind, exec_bind_iff] at h
  obtain ⟨first, copied, last, rfl, hfirst, hlast⟩ := h
  cases copied with
  | error e =>
      obtain ⟨_, ⟨⟩⟩ := exec_done_iff.mp hlast
      exact (hasZero_of_copyPieces hfirst).mono (List.subset_append_left _ _)
  | ok _ =>
      generalize body.ending = ending at hlast
      cases ending with
      | ok _ => cases (exec_done_iff.mp hlast).2
      | error e => cases (exec_done_iff.mp hlast).2

/-- What a trace was told is what polls of the writer returned. -/
def Replies {E : Signature} (polls : List Write)
    (trace : List (Program.Event (signature UInt8 IoError E))) : Prop :=
  ∀ buffer n, (⟨.pollWrite buffer, .ok n⟩ : Program.Event (signature UInt8 IoError E)) ∈ trace →
    ∃ write ∈ polls, write.buffer = buffer ∧ write.written = some (.ok n.val)

theorem not_hasZero {E : Signature} {polls : List Write}
    {trace : List (Program.Event (signature UInt8 IoError E))} (hnonzero : ∀ write ∈ polls, write.IsNonzero)
    (hreplies : Replies polls trace) : ¬ HasZero trace := by
  rintro ⟨bytes, hle, hne, hmem⟩
  obtain ⟨write, hwrite, rfl, hwritten⟩ := hreplies bytes ⟨0, hle⟩ hmem
  exact hne (hnonzero write hwrite hwritten)

/-! ## What is queued -/

/-- The polls of a writer go well: the frames queued are what was returned to be written, none is
longer than the capacity there was, and nobody is told that nothing was written of something, so
that no loop over the writer fails with that. -/
structure GoesWell (F : SendSide S) (w : SendStreamWriter S) (buffers : List (List UInt8)) : Prop where
  frames : ∀ w', run (step F) w buffers = some w' →
    w'.frames = w.frames ++ (w.writes F buffers).filterMap Write.frame
  bounded : ∀ write ∈ w.writes F buffers, write.IsBounded
  nonzero : ∀ write ∈ w.writes F buffers, write.IsNonzero
  writeAll : ∀ {E : Signature} (buffer : List UInt8)
    (trace : List (Program.Event (signature UInt8 IoError E))), Replies (w.writes F buffers) trace →
    ¬ Exec (Rpc.writeAll buffer).run trace (.error zeroWrite)
  copy : ∀ {E : Signature} (body : Origin.Body)
    (trace : List (Program.Event (signature UInt8 IoError E))), Replies (w.writes F buffers) trace →
    ¬ Exec (Serve.copy body).run trace (.error zeroWrite)

theorem frames_run {buffers : List (List UInt8)} {w' : SendStreamWriter S}
    (hrun : run (step F) w buffers = some w') :
    w'.frames = w.frames ++ (w.writes F buffers).filterMap Write.frame := by
  refine @run_observe_invariant _ _ (step F) _ (write F) (fun _ _ => True)
    (fun seen t => t.frames = w.frames ++ seen.filterMap Write.frame) ?_ [] buffers w w'
    (List.append_nil _).symm hrun (always_of_forall (fun _ _ => trivial) w buffers)
  rintro seen t buffer t' ht - ⟨⟩
  rw [frames_pollWrite, ht, List.filterMap_append, List.append_assoc]
  rfl

/-- **The polls of a writer go well if and only if there is capacity whenever one comes to send.** -/
theorem goesWell_iff (F : SendSide S) (w : SendStreamWriter S) (buffers : List (List UInt8)) :
    GoesWell F w buffers ↔ Always (step F) (HasCapacity F) w buffers := by
  have hiff : (∀ write ∈ w.writes F buffers, write.IsNonzero) ↔
      Always (step F) (HasCapacity F) w buffers := by
    rw [writes, forall_mem_observe_iff]
    constructor
    · exact always_mono fun w buffer h => (isNonzero_iff F buffer w).mp (h _ rfl)
    · refine always_mono fun w buffer h => ?_
      rintro _ ⟨⟩
      exact (isNonzero_iff F buffer w).mpr h
  constructor
  · exact fun h => hiff.mp h.nonzero
  · intro h
    have hnonzero := hiff.mpr h
    refine ⟨fun w' => frames_run, ?_, hnonzero, ?_, ?_⟩
    · rw [writes, forall_mem_observe_iff]
      refine always_of_forall (fun w buffer => ?_) w buffers
      rintro _ ⟨⟩
      exact isBounded_pollWrite F buffer w
    · exact fun buffer trace hreplies hexec =>
        not_hasZero hnonzero hreplies (hasZero_of_writeAll hexec)
    · exact fun body trace hreplies hexec =>
        not_hasZero hnonzero hreplies (hasZero_of_copy hexec)

/-- A send side whose capacity is none, also when `poll_capacity` has reported some of it. -/
def SendSide.starved : SendSide Unit where
  capacity _ := (0, ())
  reserveCapacity _ _ := ()
  pollCapacity _ := (.assigned 0, ())
  sendData _ _ _ := (.ok (), ())

/-- One byte is written, and nothing of it. -/
theorem not_goesWell_starved : ¬ GoesWell SendSide.starved (.new ()) [[97]] := by
  intro h
  have hwritten : (⟨[97], some 0, some (.ok 0)⟩ : Write) ∈
      writes SendSide.starved (.new ()) [[97]] := List.mem_cons_self
  exact absurd (h.nonzero _ hwritten rfl) nofun

end SendStreamWriter

end Libcfd.Edge.H2
