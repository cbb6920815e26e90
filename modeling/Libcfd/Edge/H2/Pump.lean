import Libcfd.Edge.H2.Writer
import Libcfd.Origin.Axum.Serve
import Libcfd.Origin.Pump

/-!
# `pump` over an HTTP/2 stream

A websocket or a TCP connection is pumped between its origin and the two halves of an HTTP/2 stream.
`Pump` leaves open what its four halves do. Here those of the edge are the reader of the request's
body and the writer of the response's, and what a poll of either comes to is what the task goes on
with; the origin does as it likes.
-/

namespace Libcfd.Edge.H2

open Libcfd.Machine Libcfd.Origin Libcfd.Reader Libcfd.Rpc
open Libcfd.Origin.AxumBodyReader (chunks)

/-- The task, with what has passed through its halves, and the halves of the edge. -/
structure StreamPump (Flow S : Type) where
  task : Pump
  edgeRead : ReceiveStreamReader Flow
  edgeWrite : SendStreamWriter S

namespace StreamPump

inductive Label where
  -- a poll of `edge_read.read`, and of `write_all` and `close` of `edge_write`
  | pollRead
  | pollWrite
  | pollClose
  -- what a half of the origin does
  | origin (label : Pump.Label)

/-- The arm of the edge, by what its read comes to. -/
def readLabels : Polled UInt8 IoError → List Pump.Label
  | .pending => []
  | .ready (.ok []) => [.ends .toOrigin, .readEnd .toOrigin]
  | .ready (.ok piece) => [.arrives .toOrigin piece, .read .toOrigin piece.length]
  | .ready (.error _) => [.readFails .toOrigin]

/-- A poll of `write_all`. That nothing was written is an error to it. -/
def writeLabels : Written → List Pump.Label
  | none => []
  | some (.ok 0) => [.writeFails .toEdge]
  | some (.ok n) => [.write .toEdge n, .drains .toEdge n]
  | some (.error _) => [.writeFails .toEdge]

/-- The label is of one of the origin's halves. -/
def isOrigins : Pump.Label → Bool
  | .read d _ | .readEnd d | .readFails d | .arrives d _ | .ends d => d = .toEdge
  | .write d _ | .writeFails d | .closed d | .drains d _ => d = .toOrigin

variable {Flow S : Type}

def step (F : FlowControl Flow) (W : SendSide S) (s : StreamPump Flow S) :
    Label → Option (StreamPump Flow S)
  | .pollRead =>
      if s.task.phase = .selecting ∧ s.task.finished .toOrigin = false then
        let (polled, edgeRead) := s.edgeRead.pollRead F Pump.bufferSize
        (run Pump.step s.task (readLabels polled)).map fun task =>
          { s with task := task, edgeRead := edgeRead }
      else none
  | .pollWrite =>
      match s.task.phase with
      | .writing .toEdge pending =>
          let (written, edgeWrite) := s.edgeWrite.pollWrite W pending
          (run Pump.step s.task (writeLabels written)).map fun task =>
            { s with task := task, edgeWrite := edgeWrite }
      | _ => none
  | .pollClose =>
      (s.task.step (.closed .toEdge)).map fun task =>
        { s with task := task, edgeWrite := s.edgeWrite.pollClose W }
  | .origin label =>
      if isOrigins label then (s.task.step label).map fun task => { s with task := task } else none

/-- The edge sends these replies; the origin has something to begin with, and takes so much. -/
def start (replies : List StreamReply) (flow : Flow) (send : S) (available : List UInt8)
    (capacity : Nat) (lingers : Bool) : StreamPump Flow S where
  task := .start (fun | .toOrigin => [] | .toEdge => available)
    (fun | .toOrigin => capacity | .toEdge => Pump.bufferSize)
    (fun | .toOrigin => lingers | .toEdge => false)
  edgeRead := .new ⟨replies, flow, []⟩
  edgeWrite := .new send

/-- All that has come from the origin. -/
def sent (past : List Label) : List UInt8 :=
  past.flatMap fun
    | .origin (.arrives .toEdge bytes) => bytes
    | _ => []

theorem sent_append (past more : List Label) : sent (past ++ more) = sent past ++ sent more :=
  List.flatMap_append

/-! ## What is read from the edge -/

/-- The labels of the half that reads from the edge. -/
def isEdgeRead : Pump.Label → Bool
  | .read .toOrigin _ | .readEnd .toOrigin | .arrives .toOrigin _ | .ends .toOrigin => true
  | _ => false

/-- The labels of the half that writes to it. -/
def isEdgeWrite : Pump.Label → Bool
  | .write .toEdge _ | .closed .toEdge => true
  | _ => false

variable {F : FlowControl Flow} {W : SendSide S} {replies : List StreamReply} {s t : Pump}
  {l : Pump.Label} {ls past : List Pump.Label} {reader : ReceiveStreamReader Flow}
  {w w' : SendStreamWriter S}

variable (F) in
/-- What the task has read is what the reader has given out. -/
structure Reads (replies : List StreamReply) (s : Pump) (reader : ReceiveStreamReader Flow) :
    Prop where
  accounts : ∃ done, ReceiveStreamReader.Accounts F (chunks replies) done
    (s.source .toOrigin).taken reader
  drained : (s.source .toOrigin).available = []
  ended : (s.source .toOrigin).ended = true → reader.eof = true
  unended : s.finished .toOrigin = false → (s.source .toOrigin).ended = false

theorem open_of_finish {d d' : Direction} (h : s.finish d d' = false) : s.finished d' = false := by
  unfold Pump.finish at h
  by_cases hd : d' = d
  · subst hd
    simp at h
  · rwa [Function.update_of_ne hd] at h

theorem Reads.frame (h : Reads F replies s reader)
    (hsource : t.source .toOrigin = s.source .toOrigin)
    (hopen : t.finished .toOrigin = false → s.finished .toOrigin = false) :
    Reads F replies t reader where
  accounts := by
    rw [hsource]
    exact h.accounts
  drained := by
    rw [hsource]
    exact h.drained
  ended := by
    rw [hsource]
    exact h.ended
  unended hfinished := by
    rw [hsource]
    exact h.unended (hopen hfinished)

theorem Reads.step (h : Reads F replies s reader) (hl : isEdgeRead l = false)
    (hstep : Pump.Steps s l t) : Reads F replies t reader := by
  apply h.frame
  · cases hstep with
    | @read d | @arrives d | @ends d =>
        cases d with
        | toOrigin => cases hl
        | toEdge => simp
    | _ => rfl
  · cases hstep with
    | readEnd | readFails | writeFails => exact open_of_finish
    | _ => exact id

theorem reads_run (h : Reads F replies s reader) (hls : ∀ l ∈ ls, isEdgeRead l = false)
    (hrun : run Pump.step s ls = some t) : Reads F replies t reader := by
  refine run_invariant_of_always (C := fun _ l => isEdgeRead l = false)
    (fun s => Reads F replies s reader) ?_ h hrun (always_of_forall_mem (fun l hl _ => hls l hl) s)
  intro s l t hs hl hstep
  exact hs.step hl (Pump.steps_of_step hstep)

/-- **A poll of the reader**: the task has read what the poll has given out. -/
theorem reads_pollRead (hF : F.Lawful) (h : Reads F replies s reader)
    (hopen : s.finished .toOrigin = false)
    (hrun : run Pump.step s (readLabels (reader.pollRead F Pump.bufferSize).1) = some t) :
    Reads F replies t (reader.pollRead F Pump.bufferSize).2 := by
  obtain ⟨done, haccounts⟩ := h.accounts
  have hunended := h.unended hopen
  have hdrained := h.drained
  obtain ⟨⟨done', haccounts'⟩, hends, -, -, -⟩ :=
    ReceiveStreamReader.delivers_pollRead hF (show 0 < Pump.bufferSize by decide) haccounts
  generalize reader.pollRead F Pump.bufferSize = polled at hrun haccounts' hends
  obtain ⟨polled, reader'⟩ := polled
  dsimp only at hrun haccounts' hends ⊢
  rcases polled with _ | (e | (_ | ⟨b, piece⟩))
  · cases hrun
    simp only [Polled.bytes, List.append_nil] at haccounts'
    refine ⟨⟨done', haccounts'⟩, hdrained, fun hended => ?_, h.unended⟩
    cases hunended.symm.trans hended
  · obtain ⟨u, hu, hlast⟩ := run_cons_eq_some.mp hrun
    cases hlast
    cases Pump.steps_of_step hu with
    | readFails =>
        simp only [Polled.bytes, List.append_nil] at haccounts'
        refine ⟨⟨done', haccounts'⟩, hdrained, fun hended => ?_, fun _ => hunended⟩
        cases hunended.symm.trans hended
  · obtain ⟨u, hu, hrest⟩ := run_cons_eq_some.mp hrun
    obtain ⟨v, hv, hlast⟩ := run_cons_eq_some.mp hrest
    cases hlast
    cases Pump.steps_of_step hu with
    | ends =>
    cases Pump.steps_of_step hv with
    | readEnd =>
        simp only [Polled.bytes, List.append_nil] at haccounts'
        refine ⟨⟨done', ?_⟩, ?_, fun _ => hends rfl, fun hfinished => ?_⟩
        · simpa using haccounts'
        · simpa using hdrained
        · simp [Pump.finish] at hfinished
  · obtain ⟨u, hu, hrest⟩ := run_cons_eq_some.mp hrun
    obtain ⟨v, hv, hlast⟩ := run_cons_eq_some.mp hrest
    cases hlast
    cases Pump.steps_of_step hu with
    | arrives =>
    cases Pump.steps_of_step hv with
    | read =>
        refine ⟨⟨done', ?_⟩, ?_, ?_, ?_⟩
        · simpa [hdrained, Polled.bytes] using haccounts'
        · simp [hdrained]
        · intro hended
          simp [hunended] at hended
        · intro _
          simp [hunended]

/-! ## What is written to the edge -/

/-- Whatever is written to the half is taken at once: what it stands for keeps nothing back. -/
structure TakesAll (sink : Sink) : Prop where
  capacity : sink.capacity = Pump.bufferSize
  buffered : sink.buffered = []
  lingers : sink.lingers = false

/-- The frames are what the task has written. The writer is closed once the task is done with
closing it. -/
structure Writes (s : Pump) (w : SendStreamWriter S) : Prop where
  room : TakesAll (s.sink .toEdge)
  frames : w.frames.flatten = (s.sink .toEdge).received
  closing : s.phase = .closing .toEdge → 0 < (s.sink .toEdge).closes
  closed : w.closed = true → 0 < (s.sink .toEdge).closes ∧ s.phase ≠ .closing .toEdge
  unclosed : 0 < (s.sink .toEdge).closes → w.closed = true ∨ s.phase = .closing .toEdge

theorem Writes.frame {bytes : List UInt8} (h : Writes s w)
    (hframes : w'.frames.flatten = w.frames.flatten ++ bytes)
    (hreceived : (t.sink .toEdge).received = (s.sink .toEdge).received ++ bytes)
    (hclosed : w'.closed = w.closed) (hcloses : (t.sink .toEdge).closes = (s.sink .toEdge).closes)
    (hroom : TakesAll (s.sink .toEdge) → TakesAll (t.sink .toEdge))
    (hphase : t.phase = .closing .toEdge ↔ s.phase = .closing .toEdge) : Writes t w' where
  room := hroom h.room
  frames := by rw [hframes, hreceived, h.frames]
  closing := by
    rw [hcloses, hphase]
    exact h.closing
  closed := by
    rw [hcloses, hclosed, Ne, hphase]
    exact h.closed
  unclosed := by
    rw [hcloses, hclosed, hphase]
    exact h.unclosed

/-- The writer is left alone. -/
theorem Writes.step (h : Writes s w) (hfaithful : Pump.Faithful past s)
    (hl : isEdgeWrite l = false) (hstep : Pump.Steps s l t) : Writes t w := by
  have hframe : (t.sink .toEdge).received = (s.sink .toEdge).received →
      (t.sink .toEdge).closes = (s.sink .toEdge).closes →
      (TakesAll (s.sink .toEdge) → TakesAll (t.sink .toEdge)) →
        (t.phase = .closing .toEdge ↔ s.phase = .closing .toEdge) → Writes t w := by
    intro hreceived hcloses hroom hphase
    apply h.frame (List.append_nil _).symm _ rfl hcloses hroom hphase
    rw [hreceived, List.append_nil]
  cases hstep with
  | read hphase =>
      apply hframe rfl rfl id
      rw [hphase]
      simp
  | @readEnd d hphase hopen =>
      cases d with
      | toOrigin =>
          apply hframe (by simp) (by simp) (by simp)
          rw [hphase]
          simp
      | toEdge =>
          have hzero := (hfaithful.kept .toEdge).unclosed hopen
          obtain ⟨hcapacity, hbuffered, hlingers⟩ := h.room
          refine ⟨⟨?_, ?_, ?_⟩, ?_, fun _ => ?_, fun hclosed => ?_, fun _ => .inr rfl⟩
          · simpa using hcapacity
          · simpa using hbuffered
          · simpa using hlingers
          · simpa using h.frames
          · simp
          · exact absurd (h.closed hclosed).1 (by omega)
  | readFails hphase | writeFails hphase =>
      apply hframe rfl rfl id
      rw [hphase]
      simp [Pump.again_ne_closing]
  | @writeSome d _ _ hphase =>
      cases d with
      | toEdge => cases hl
      | toOrigin =>
          apply hframe (by simp) (by simp) (by simp)
          rw [hphase]
          simp
  | @writeLast d _ _ hphase =>
      cases d with
      | toEdge => cases hl
      | toOrigin =>
          apply hframe (by simp) (by simp) (by simp)
          rw [hphase]
          simp [Pump.again_ne_closing]
  | @closed d hphase =>
      cases d with
      | toEdge => cases hl
      | toOrigin =>
          apply hframe rfl rfl id
          rw [hphase]
          simp [Pump.again_ne_closing]
  | arrives | ends => exact hframe rfl rfl id Iff.rfl
  | @drains d =>
      cases d with
      | toOrigin => exact hframe (by simp) (by simp) (by simp) Iff.rfl
      | toEdge =>
          apply hframe (by simp) (by simp) _ Iff.rfl
          intro hroom
          constructor
          · simpa using hroom.capacity
          · simp [hroom.buffered]
          · simpa using hroom.lingers

theorem writes_run (h : Writes s w) (hfaithful : Pump.Faithful past s)
    (hls : ∀ l ∈ ls, isEdgeWrite l = false) (hrun : run Pump.step s ls = some t) : Writes t w := by
  refine (run_induction_of_always (C := fun _ l => isEdgeWrite l = false)
    (fun past s => Pump.Faithful past s ∧ Writes s w) ?_ ⟨hfaithful, h⟩ hrun
    (always_of_forall_mem (fun l hl _ => hls l hl) s)).2
  rintro past s l t ⟨hpast, hs⟩ hl hstep
  have hsteps := Pump.steps_of_step hstep
  exact ⟨Pump.faithful_step hpast hsteps, hs.step hpast hl hsteps⟩

theorem closed_pollWrite (W : SendSide S) (buffer : List UInt8) (w : SendStreamWriter S) :
    (w.pollWrite W buffer).2.closed = w.closed := by
  have hwait : (w.waitCapacity W buffer.length).2.closed = w.closed := by
    unfold SendStreamWriter.waitCapacity
    dsimp only
    split
    · split <;> rfl
    · rfl
  have hpart : ∀ w : SendStreamWriter S, (w.sendPart W buffer).2.closed = w.closed := by
    intro w
    unfold SendStreamWriter.sendPart SendStreamWriter.sendData
    dsimp only
    generalize W.sendData _ _ _ = sent
    obtain ⟨_ | _, _⟩ := sent <;> rfl
  unfold SendStreamWriter.pollWrite
  split
  · rfl
  split
  · rfl
  generalize w.waitCapacity W buffer.length = waited at hwait
  obtain ⟨_ | _ | _, w'⟩ := waited
  · exact hwait
  · exact hwait
  · exact (hpart w').trans hwait

theorem closed_pollClose (W : SendSide S) (w : SendStreamWriter S) :
    (w.pollClose W).closed = true ∧ (w.pollClose W).frames.flatten = w.frames.flatten := by
  unfold SendStreamWriter.pollClose
  split
  · next hclosed => exact ⟨hclosed, rfl⟩
  · unfold SendStreamWriter.sendData
    dsimp only
    generalize W.sendData _ _ _ = sent
    obtain ⟨_ | _, _⟩ := sent
    · exact ⟨rfl, rfl⟩
    · refine ⟨rfl, ?_⟩
      simp

/-- **A poll of the writer**: the task has written what the poll has queued. -/
theorem writes_pollWrite {pending : List UInt8} (h : Writes s w)
    (hfaithful : Pump.Faithful past s) (hphase : s.phase = .writing .toEdge pending)
    (hrun : run Pump.step s (writeLabels (w.pollWrite W pending).1) = some t) :
    Writes t (w.pollWrite W pending).2 := by
  have hframes := SendStreamWriter.frames_pollWrite W pending w
  have hclosed := closed_pollWrite W pending w
  -- nothing is queued, or nothing in a frame
  have hsilent : ∀ {u : Pump}, Writes u w →
      (w.pollWrite W pending).2.frames.flatten = w.frames.flatten →
        Writes u (w.pollWrite W pending).2 := by
    intro u hu hsame
    apply hu.frame _ (List.append_nil _).symm hclosed rfl id Iff.rfl
    rw [hsame, List.append_nil]
  rcases hwritten : (w.pollWrite W pending).1 with _ | e | _ | n <;> rw [hwritten] at hrun hframes
  · cases hrun
    apply hsilent h
    rw [hframes]
    simp [SendStreamWriter.Write.frame]
  · apply hsilent (writes_run h hfaithful (by simp [writeLabels, isEdgeWrite]) hrun)
    rw [hframes]
    simp [SendStreamWriter.Write.frame]
  · apply hsilent (writes_run h hfaithful (by simp [writeLabels, isEdgeWrite]) hrun)
    rw [hframes]
    simp [SendStreamWriter.Write.frame]
  · have hflatten : (w.pollWrite W pending).2.frames.flatten =
        w.frames.flatten ++ pending.take (n + 1) := by
      rw [hframes]
      simp only [SendStreamWriter.Write.frame]
      split
      · next hnil => simp [hnil]
      · simp
    obtain ⟨u, hu, hrest⟩ := run_cons_eq_some.mp hrun
    obtain ⟨v, hv, hlast⟩ := run_cons_eq_some.mp hrest
    cases hlast
    cases Pump.steps_of_step hv with
    | drains =>
    cases Pump.steps_of_step hu with
    | writeSome hphase' =>
        obtain ⟨-, rfl⟩ := Origin.Phase.writing.inj (hphase.symm.trans hphase')
        refine h.frame hflatten (by simp) hclosed (by simp) (fun hroom => ⟨?_, ?_, ?_⟩) ?_
        · simpa using hroom.capacity
        · simp [hroom.buffered]
        · simpa using hroom.lingers
        · rw [hphase]
          simp
    | writeLast hphase' _ hall =>
        obtain ⟨-, rfl⟩ := Origin.Phase.writing.inj (hphase.symm.trans hphase')
        have hdrop : pending.length ≤ n + 1 := by
          rw [← hall]
          exact List.length_take_le _ _
        rw [hall] at hflatten
        refine h.frame hflatten (by simp) hclosed (by simp) (fun hroom => ⟨?_, ?_, ?_⟩) ?_
        · simpa using hroom.capacity
        · simp [hroom.buffered, hdrop]
        · simpa using hroom.lingers
        · rw [hphase]
          simp [Pump.again_ne_closing]

/-- Once the task is done with closing. -/
theorem writes_pollClose (h : Writes s w) (hstep : s.step (.closed .toEdge) = some t) :
    Writes t (w.pollClose W) := by
  obtain ⟨hclosed, hflatten⟩ := closed_pollClose W w
  cases Pump.steps_of_step hstep with
  | closed hphase =>
      have hcloses := h.closing hphase
      refine ⟨h.room, hflatten.trans h.frames, fun _ => hcloses, fun _ => ?_, fun _ => .inl hclosed⟩
      exact ⟨hcloses, Pump.again_ne_closing _ _⟩

/-! ## How far the task is ahead -/

/-- The task holds no more than its buffer of what the origin has not taken yet. -/
structure Ahead (s : Pump) : Prop where
  fits : ∀ d bytes, s.phase = .writing d bytes → bytes.length ≤ Pump.bufferSize
  ahead : ∀ d, (s.source d).taken.length ≤ (s.sink d).received.length + Pump.bufferSize

theorem ahead_step (h : Ahead s) (hfaithful : Pump.Faithful past s)
    (hstep : s.step l = some t) : Ahead t := by
  cases Pump.steps_of_step hstep with
  | @read d n hphase hopen hn hle =>
      have hbuffer : n ≤ Pump.bufferSize := (Option.ite_none_right_eq_some.mp hstep).1.2.2.2.1
      refine ⟨?_, fun d' => ?_⟩
      · rintro _ _ ⟨⟩
        rw [List.length_take]
        omega
      · by_cases hne : d' = d
        · subst hne
          have howed := (hfaithful.kept d').owed hopen
          rw [Pump.pending_of_phase (by rw [hphase]; nofun), List.append_nil] at howed
          simp [howed]
          omega
        · simpa [hne] using h.ahead d'
  | @readEnd d =>
      refine ⟨nofun, fun d' => ?_⟩
      by_cases hne : d' = d
      · subst hne
        simpa using h.ahead d'
      · simpa [hne] using h.ahead d'
  | readFails | writeFails | closed =>
      exact ⟨fun d bytes hw => absurd hw (Pump.again_ne_writing _ _ _), h.ahead⟩
  | @writeSome d n pending hphase =>
      refine ⟨?_, fun d' => ?_⟩
      · rintro _ _ ⟨⟩
        have hfits := h.fits d pending hphase
        rw [List.length_drop]
        omega
      · have hahead := h.ahead d'
        by_cases hne : d' = d
        · subst hne
          simp
          omega
        · simpa [hne] using hahead
  | @writeLast d n pending =>
      refine ⟨fun d bytes hw => absurd hw (Pump.again_ne_writing _ _ _), fun d' => ?_⟩
      have hahead := h.ahead d'
      by_cases hne : d' = d
      · subst hne
        simp
        omega
      · simpa [hne] using hahead
  | @arrives d | ends d | drains d =>
      refine ⟨h.fits, fun d' => ?_⟩
      by_cases hne : d' = d
      · subst hne
        simpa using h.ahead d'
      · simpa [hne] using h.ahead d'

/-! ## Runs -/

section Run

variable {flow : Flow} {send : S} {available : List UInt8} {capacity : Nat} {lingers : Bool}

variable (F) in
/-- The task has made a run of its own, in which from the origin came what came, and both halves of
the edge agree with it. -/
structure Piped (replies : List StreamReply) (first : Pump) (past : List Label)
    (s : StreamPump Flow S) : Prop where
  pumped : ∃ labels, run Pump.step first labels = some s.task ∧
    Pump.arrived .toEdge labels = sent past ∧
      (.readEnd .toEdge ∈ labels ↔ .origin (.readEnd .toEdge) ∈ past)
  reads : Reads F replies s.task s.edgeRead
  writes : Writes s.task s.edgeWrite
  ahead : Ahead s.task

theorem sent_origin {label : Pump.Label} :
    sent [.origin label] = Pump.arrived .toEdge [label] := by
  cases label with
  | arrives d bytes =>
      cases d with
      | toOrigin | toEdge => rfl
  | _ => rfl

/-- The labels of a poll are none of the origin's. -/
theorem arrived_readLabels (polled : Polled UInt8 IoError) :
    Pump.arrived .toEdge (readLabels polled) = [] ∧ .readEnd .toEdge ∉ readLabels polled ∧
      ∀ l ∈ readLabels polled, isEdgeWrite l = false := by
  rcases polled with _ | (e | (_ | ⟨b, piece⟩)) <;>
    simp [readLabels, Pump.arrived, isEdgeWrite]

theorem arrived_writeLabels (written : Written) :
    Pump.arrived .toEdge (writeLabels written) = [] ∧ .readEnd .toEdge ∉ writeLabels written ∧
      ∀ l ∈ writeLabels written, isEdgeRead l = false := by
  rcases written with _ | (e | (_ | n)) <;>
    simp [writeLabels, Pump.arrived, isEdgeRead]

/-- The task goes on with the labels of a poll. -/
theorem pumped_append {first : Pump} {trace : List Label} {l : Label}
    (h : ∃ labels, run Pump.step first labels = some s ∧
      Pump.arrived .toEdge labels = sent trace ∧
        (.readEnd .toEdge ∈ labels ↔ .origin (.readEnd .toEdge) ∈ trace))
    (hrun : run Pump.step s ls = some t) (hsent : Pump.arrived .toEdge ls = sent [l])
    (hend : .readEnd .toEdge ∈ ls ↔ .origin (.readEnd .toEdge) = l) :
    ∃ labels, run Pump.step first labels = some t ∧
      Pump.arrived .toEdge labels = sent (trace ++ [l]) ∧
        (.readEnd .toEdge ∈ labels ↔ .origin (.readEnd .toEdge) ∈ trace ++ [l]) := by
  obtain ⟨labels, hlabels, harrived, hended⟩ := h
  refine ⟨labels ++ ls, run_append_eq_some.mpr ⟨s, hlabels, hrun⟩, ?_, ?_⟩
  · rw [sent_append, ← harrived, ← hsent]
    exact List.flatMap_append
  · rw [List.mem_append, List.mem_append, hended, hend, List.mem_singleton]

theorem piped_step (hF : F.Lawful) {first : Pump} (hfirst : Pump.Faithful [] first)
    {trace : List Label} {s t : StreamPump Flow S} {l : Label}
    (h : Piped F replies first trace s) (hstep : s.step F W l = some t) :
    Piped F replies first (trace ++ [l]) t := by
  obtain ⟨labels, hlabels, _⟩ := h.pumped
  have hfaithful : Pump.Faithful labels s.task :=
    run_induction Pump.Faithful
      (fun _ _ _ _ hs hstep => Pump.faithful_step hs (Pump.steps_of_step hstep)) hfirst hlabels
  have hahead : ∀ {ls task}, run Pump.step s.task ls = some task → Ahead task := by
    intro ls task hrun
    refine (run_induction (fun past s => Pump.Faithful past s ∧ Ahead s) ?_ ⟨hfaithful, h.ahead⟩
      hrun).2
    rintro past s l t ⟨hpast, hs⟩ hstep
    exact ⟨Pump.faithful_step hpast (Pump.steps_of_step hstep), ahead_step hs hpast hstep⟩
  cases l with
  | pollRead =>
      obtain ⟨⟨_, hopen⟩, hstep⟩ := Option.ite_none_right_eq_some.mp hstep
      obtain ⟨task, hrun, rfl⟩ := Option.map_eq_some_iff.mp hstep
      obtain ⟨harrived, hend, hwrites⟩ :=
        arrived_readLabels (s.edgeRead.pollRead F Pump.bufferSize).1
      refine ⟨?_, ?_, ?_, hahead hrun⟩
      · exact pumped_append h.pumped hrun harrived (iff_of_false hend nofun)
      · exact reads_pollRead hF h.reads hopen hrun
      · exact writes_run h.writes hfaithful hwrites hrun
  | pollWrite =>
      unfold step at hstep
      dsimp only at hstep
      split at hstep
      · next pending hphase =>
          obtain ⟨task, hrun, rfl⟩ := Option.map_eq_some_iff.mp hstep
          obtain ⟨harrived, hend, hreads⟩ :=
            arrived_writeLabels (s.edgeWrite.pollWrite W pending).1
          refine ⟨?_, ?_, ?_, hahead hrun⟩
          · exact pumped_append h.pumped hrun harrived (iff_of_false hend nofun)
          · exact reads_run h.reads hreads hrun
          · exact writes_pollWrite h.writes hfaithful hphase hrun
      · cases hstep
  | pollClose =>
      obtain ⟨task, htask, rfl⟩ := Option.map_eq_some_iff.mp hstep
      have hrun : run Pump.step s.task [.closed .toEdge] = some task :=
        run_cons_eq_some.mpr ⟨task, htask, rfl⟩
      refine ⟨?_, ?_, writes_pollClose h.writes htask, hahead hrun⟩
      · exact pumped_append h.pumped hrun rfl (iff_of_false (by simp) nofun)
      · exact reads_run h.reads (by simp [isEdgeRead]) hrun
  | origin label =>
      obtain ⟨horigin, hstep⟩ := Option.ite_none_right_eq_some.mp hstep
      obtain ⟨task, htask, rfl⟩ := Option.map_eq_some_iff.mp hstep
      have hrun : run Pump.step s.task [label] = some task :=
        run_cons_eq_some.mpr ⟨task, htask, rfl⟩
      have hsteps := Pump.steps_of_step htask
      have hhalves : isEdgeRead label = false ∧ isEdgeWrite label = false := by
        cases label with
        | read d | readEnd d | readFails d | write d | writeFails d | closed d | arrives d
        | ends d | drains d =>
            cases d with
            | toOrigin | toEdge => first | exact ⟨rfl, rfl⟩ | cases horigin
      refine ⟨?_, h.reads.step hhalves.1 hsteps, h.writes.step hfaithful hhalves.2 hsteps,
        hahead hrun⟩
      apply pumped_append h.pumped hrun sent_origin.symm
      rw [List.mem_singleton, Label.origin.injEq]

theorem piped_start : Piped F replies (start replies flow send available capacity lingers).task []
    (start replies flow send available capacity lingers) where
  pumped := ⟨[], rfl, rfl, iff_of_false List.not_mem_nil List.not_mem_nil⟩
  reads := by
    refine ⟨⟨[], rfl, rfl, rfl, fun _ => rfl, nofun⟩, rfl, nofun, fun _ => rfl⟩
  writes := ⟨⟨rfl, rfl, rfl⟩, rfl, nofun, nofun, nofun⟩
  ahead := ⟨nofun, fun d => Nat.zero_le _⟩

/-- What a poll of the edge comes to, the task can go on with. -/
theorem Piped.isSome_step {first : Pump} {trace : List Label} {s : StreamPump Flow S}
    (h : Piped F replies first trace s) (hF : F.Lawful) :
    (s.task.phase = .selecting → s.task.finished .toOrigin = false →
      (s.step F W .pollRead).isSome = true) ∧
    (∀ pending, s.task.phase = .writing .toEdge pending → (s.step F W .pollWrite).isSome = true) ∧
    (s.task.phase = .closing .toEdge → (s.step F W .pollClose).isSome = true) := by
  refine ⟨fun hphase hopen => ?_, fun pending hphase => ?_, fun hphase => ?_⟩
  · have hunended := h.reads.unended hopen
    have hdrained := h.reads.drained
    have hfits := (ReceiveStream.honest hF).fits s.edgeRead Pump.bufferSize
    simp only [step, hphase, hopen, and_self, if_true, Option.isSome_map]
    generalize (s.edgeRead.pollRead F Pump.bufferSize).1 = polled at hfits
    rcases polled with _ | (e | (_ | ⟨b, piece⟩))
    · rfl
    · simp [readLabels, Pump.step, hphase, hopen]
    · simp [readLabels, Pump.step, hphase, hopen, hdrained]
    · have hlength : piece.length + 1 ≤ Pump.bufferSize := hfits
      simp [readLabels, Pump.step, hphase, hopen, hdrained, hunended, hlength]
  · have hlength := h.ahead.fits .toEdge pending hphase
    obtain ⟨hcapacity, hbuffered, -⟩ := h.writes.room
    have hwritten : ∀ n, (s.edgeWrite.pollWrite W pending).1 = some (.ok (n + 1)) →
        n + 1 ≤ pending.length := by
      intro n hn
      have hne : pending ≠ [] := by
        rcases SendStreamWriter.pollWrite_cases W pending s.edgeWrite with
          ⟨_, _, hne, _⟩ | ⟨_, _, hnothing⟩
        · exact hne
        · cases (hnothing _ hn).2
      exact (SendStreamWriter.isBounded_pollWrite W pending s.edgeWrite _ hn hne).1
    simp only [step, hphase, Option.isSome_map]
    generalize (s.edgeWrite.pollWrite W pending).1 = written at hwritten
    rcases written with _ | (e | (_ | n))
    · rfl
    · simp [writeLabels, Pump.step, hphase]
    · simp [writeLabels, Pump.step, hphase]
    · have hn := hwritten n rfl
      have hroom : n + 1 ≤ (s.task.sink .toEdge).room := by
        rw [Sink.room, hcapacity, hbuffered, List.length_nil]
        omega
      simp [writeLabels, Pump.step, hphase, hn, hroom]
  · have hclosable : (s.task.sink .toEdge).isClosable = true := by
      rw [Sink.isClosable, h.writes.room.lingers]
      rfl
    simp [step, Pump.step, hphase, hclosable]

theorem length_delivered_le (n : Nat) (all : List (List UInt8)) :
    (ReceiveStreamReader.delivered n all).flatten.length ≤ n := by
  induction all generalizing n with
  | nil => exact Nat.zero_le n
  | cons chunk all ih =>
      rw [ReceiveStreamReader.delivered]
      split
      · next hle =>
          have hrest := ih (n - chunk.length)
          rw [List.flatten_cons, List.length_append]
          omega
      · exact Nat.zero_le n

/-- **A connection is carried over an HTTP/2 stream as it is.** In every run: the origin has been
given a beginning of what the edge has sent, its half is closed only after all of it, and no more
window is given back to the edge than the origin has taken and the buffer holds; the frames of the
response are a beginning of what the origin has sent, and once the writer is closed all of it; and
when the task returns, the writer is closed if and only if the end of the origin was read. No poll
of the edge comes to something the task cannot go on with. -/
theorem streamPump_carries (hF : F.Lawful) {ls : List Label} {s : StreamPump Flow S}
    (hrun : run (step F W) (start replies flow send available capacity lingers) ls = some s) :
    ((s.task.sink .toOrigin).received <+: (chunks replies).flatten ∧
      s.edgeRead.receive.released.sum ≤
        (s.task.sink .toOrigin).received.length + Pump.bufferSize ∧
      (0 < (s.task.sink .toOrigin).closes →
        (s.task.sink .toOrigin).received = (chunks replies).flatten ∧
        s.edgeRead.receive.released = ReceiveStreamReader.releasesOf (chunks replies))) ∧
    (s.edgeWrite.frames.flatten <+: available ++ sent ls ∧
      (s.edgeWrite.closed = true → s.edgeWrite.frames.flatten = available ++ sent ls)) ∧
    (s.task.phase = .returned →
      (s.edgeWrite.closed = true ↔ .origin (.readEnd .toEdge) ∈ ls)) ∧
    (s.task.phase = .selecting → s.task.finished .toOrigin = false →
      (s.step F W .pollRead).isSome = true) ∧
    (∀ pending, s.task.phase = .writing .toEdge pending → (s.step F W .pollWrite).isSome = true) ∧
    (s.task.phase = .closing .toEdge → (s.step F W .pollClose).isSome = true) := by
  have hpiped := run_induction (Piped F replies _)
    (fun _ _ _ _ h hstep => piped_step hF (Pump.faithful_start _ _ _) h hstep)
    piped_start hrun
  rw [List.nil_append] at hpiped
  obtain ⟨labels, hlabels, harrived, hended⟩ := hpiped.pumped
  have hfaithful := Pump.faithful_run hlabels
  have hsent := Pump.conserved_run hlabels .toEdge
  rw [harrived] at hsent
  obtain ⟨done, haccounts⟩ := hpiped.reads.accounts
  have horigin := hfaithful.kept .toOrigin
  have hedge := hfaithful.kept .toEdge
  refine ⟨⟨horigin.written.trans haccounts.inOrder, ?_, fun hcloses => ?_⟩, ⟨?_, fun hclosed => ?_⟩,
    fun hreturned => ?_, hpiped.isSome_step hF⟩
  · rw [haccounts.sum_released]
    exact (length_delivered_le _ _).trans (hpiped.ahead.ahead .toOrigin)
  · have heof := hpiped.reads.ended (horigin.exhausted hcloses).2
    obtain ⟨hdone, htaken⟩ := haccounts.done_eq heof
    refine ⟨(horigin.complete hcloses).trans htaken, ?_⟩
    rw [← hdone]
    exact haccounts.released_eq
  · rw [hpiped.writes.frames]
    apply hedge.written.trans
    rw [← hsent]
    exact List.prefix_append _ _
  · have hcloses := (hpiped.writes.closed hclosed).1
    rw [(hedge.exhausted hcloses).1, List.append_nil] at hsent
    rw [hpiped.writes.frames, hedge.complete hcloses]
    exact hsent
  · rw [← hended, ← List.count_pos_iff, ← hedge.closes_eq]
    constructor
    · exact fun hclosed => (hpiped.writes.closed hclosed).1
    · intro hcloses
      rcases hpiped.writes.unclosed hcloses with hclosed | hclosing
      · exact hclosed
      · cases hreturned.symm.trans hclosing

end Run

/-! ## A short connection -/

/-- A send side with room for all that is written. -/
def roomy : SendSide Unit where
  capacity _ := (65535, ())
  reserveCapacity _ _ := ()
  pollCapacity _ := (.assigned 65535, ())
  sendData _ _ _ := (.ok (), ())

/-- The edge says "hi" and ends its stream, the origin answers "!" and ends its own. -/
def hiRun : List Label :=
  [.pollRead, .pollRead, .origin (.write .toOrigin 2), .origin (.read .toEdge 1), .pollWrite,
    .pollRead, .origin (.closed .toOrigin), .origin (.ends .toEdge), .origin (.readEnd .toEdge),
    .pollClose]

theorem streamPump_carries_hi :
    ∃ s, run (step ReceiveStreamReader.inFlight roomy)
        (start [.pending, .data [104, 105]] 0 () [33] 16 false) hiRun = some s ∧
      (s.task.sink .toOrigin).received = [104, 105] ∧ s.edgeRead.receive.released = [2] ∧
      s.edgeWrite.closed = true ∧ s.edgeWrite.frames.flatten = [33] := by
  obtain ⟨s, hrun, hreturned, hcloses⟩ : ∃ s, run (step ReceiveStreamReader.inFlight roomy)
      (start [.pending, .data [104, 105]] 0 () [33] 16 false) hiRun = some s ∧
        s.task.phase = .returned ∧ (s.task.sink .toOrigin).closes = 1 := ⟨_, rfl, rfl, rfl⟩
  obtain ⟨⟨_, _, horigin⟩, ⟨_, hedge⟩, hends, _⟩ :=
    streamPump_carries ReceiveStreamReader.lawful_inFlight hrun
  obtain ⟨hreceived, hreleased⟩ := horigin (by rw [hcloses]; exact Nat.one_pos)
  have hclosed : s.edgeWrite.closed = true := (hends hreturned).mpr (by simp [hiRun])
  exact ⟨s, hrun, hreceived, hreleased, hclosed, hedge hclosed⟩

end StreamPump

end Libcfd.Edge.H2
