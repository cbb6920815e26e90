import Libcfd.Foundation.Polls
import Libcfd.Rpc.Serve

/-!
# The end of an RPC stream

`read_message` fails with `RpcError::Eof` wherever in a message the stream ends, and also where it
ends before one. `serve_cloudflared` and `read_incoming` take that error for the end of their work, so
that for them a stream that ends in the middle of a message has ended well.
-/

namespace Libcfd.Rpc

open Program Libcfd.Stream

variable {T : SegmentTable} {σ : Type}

/-! ## `read_incoming` -/

inductive Incoming where
  | bootstrap (questionIdentifier : UInt32)
  | call (questionIdentifier : UInt32) (interfaceIdentifier : UInt64) (methodIdentifier : UInt16)
  | finish (questionIdentifier : UInt32)
  | release
  | other
  deriving DecidableEq, Repr

/-- What `read_incoming` sees of messages: `Capnp`, and the question of a `Finish`. -/
structure IncomingCapnp (T : SegmentTable) extends Capnp T where
  finishQuestionId : T.OwnedSegments → Except CapnpError UInt32

def Incoming.ofMessage (C : IncomingCapnp T) (message : T.OwnedSegments) :
    Except RpcError Incoming := do
  match ← rootWhich (C.getRoot message) with
  | .bootstrap b => return .bootstrap (← orCapnp b)
  | .call c =>
      let c ← orCapnp c
      return .call c.questionId c.interfaceId c.methodId
  | .finish => return .finish (← orCapnp (C.finishQuestionId message))
  | .release => return .release
  | _ => return .other

section

variable {E : Signature} (C : IncomingCapnp T)

def readIncoming : StreamProgram UInt8 IoError E (Except RpcError (Option Incoming)) :=
  (readMessage T).run.bind fun
    | .ok message => .done ((Incoming.ofMessage C message).map some)
    | .error .eof => .done (.ok none)
    | .error e => .done (.error e)

/-- `read_incoming` until it returns `None` or an error, at most so many times: what came in, and
how that ended. -/
def readAll : Nat → List Incoming →
    StreamProgram UInt8 IoError E (Option (List Incoming × Except RpcError Unit))
  | 0, _ => .done none
  | turns + 1, incoming => (readIncoming C).bind fun
      | .ok (some message) => readAll turns (incoming ++ [message])
      | .ok none => .done (some (incoming, .ok ()))
      | .error e => .done (some (incoming, .error e))

end

/-- `serve_cloudflared` on bytes. -/
def serveBytes (C : Capnp T) (turns : Nat) :
    StreamProgram UInt8 IoError handlerCalls (Option (Except RpcError Unit)) :=
  (serveCloudflared turns).handle (overBytes C handlerCalls)

/-! ## What is sent -/

/-- Messages, and of one more message the first `cut` bytes, after which the stream ends. -/
structure Transmission where
  frames : List Frame
  last : Frame
  cut : Nat
  cut_lt : cut < last.bytes.length

namespace Transmission

variable (t : Transmission)

def bytes : List UInt8 := (t.frames.map Frame.bytes).flatten ++ t.last.bytes.take t.cut

/-- The stream ends where a message does. -/
def AtBoundary : Prop := t.cut = 0

theorem endsInside_cut : EndsInside (t.last.bytes.take t.cut) := by
  have hmore : t.last.bytes.drop t.cut ≠ [] := by
    rw [Ne, List.drop_eq_nil_iff, Nat.not_le]
    exact t.cut_lt
  exact endsInside_of_append hmore (List.take_append_drop ..)

end Transmission

/-- What `read_message` makes of a frame. -/
def IsMessage (frame : Frame) (message : T.OwnedSegments) : Prop :=
  T.segments message = frame.segments ∧
    Receives (readMessage (E := handlerCalls) T).run frame.bytes (.done (.ok message))

theorem exists_messages (T : SegmentTable) (frames : List Frame) :
    ∃ messages : List T.OwnedSegments, List.Forall₂ IsMessage frames messages := by
  induction frames with
  | nil => exact ⟨[], .nil⟩
  | cons frame frames ih =>
      obtain ⟨messages, hmessages⟩ := ih
      obtain ⟨message, hmessage⟩ := receives_readMessage (E := handlerCalls) T frame
      exact ⟨message :: messages, .cons hmessage hmessages⟩

/-! ## Up to the first message that cannot be decoded -/

section Decode

variable {μ β : Type} (decode : μ → Except RpcError β)

def decodeUntil : List μ → List β × Option RpcError
  | [] => ([], none)
  | message :: rest =>
      match decode message with
      | .error e => ([], some e)
      | .ok decoded => (decoded :: (decodeUntil rest).1, (decodeUntil rest).2)

/-- All of them can be decoded. -/
def Decodable (messages : List μ) : Prop :=
  ∀ message ∈ messages, ∃ decoded, decode message = .ok decoded

/-- What a server returns that takes the end of the stream for the end of its work. -/
def ending : Option RpcError → Except RpcError Unit
  | none => .ok ()
  | some e => .error e

theorem decodeUntil_snd_eq_none_iff (messages : List μ) :
    (decodeUntil decode messages).2 = none ↔ Decodable decode messages := by
  induction messages with
  | nil => exact iff_of_true rfl nofun
  | cons message rest ih =>
      rw [decodeUntil, Decodable, List.forall_mem_cons]
      cases h : decode message with
      | error e =>
          refine iff_of_false nofun ?_
          rintro ⟨⟨_, ⟨⟩⟩, _⟩
      | ok decoded =>
          rw [and_iff_right ⟨decoded, rfl⟩]
          exact ih

theorem map_decodeUntil {messages : List μ} (h : Decodable decode messages) :
    messages.map decode = (decodeUntil decode messages).1.map .ok := by
  induction messages with
  | nil => rfl
  | cons message rest ih =>
      rw [Decodable, List.forall_mem_cons] at h
      obtain ⟨⟨decoded, hdecoded⟩, hrest⟩ := h
      rw [List.map_cons, decodeUntil, hdecoded, ih hrest]
      rfl

theorem decodeAll_eq (incoming : List Root) :
    decodeAll incoming = decodeUntil decodeRequest incoming := by
  induction incoming with
  | nil => rfl
  | cons root rest ih =>
      rw [decodeAll, decodeUntil, ih]
      cases decodeRequest root with
      | _ => rfl

theorem outcome_eof (incoming : List Root) :
    outcome incoming .eof = ending (decodeUntil decodeRequest incoming).2 := by
  rw [outcome, decodeAll_eq]
  cases (decodeUntil decodeRequest incoming).2 with
  | _ => rfl

end Decode

/-! ## A loop over `read_incoming` -/

section ReadAll

variable (C : IncomingCapnp T) {frame : Frame} {frames : List Frame} {message : T.OwnedSegments}
  {messages : List T.OwnedSegments} {cut : List UInt8}

theorem coherent_readIncoming : Coherent (readIncoming (E := handlerCalls) C) :=
  (coherent_readMessage T).bind fun
    | .ok _ => coherent_done _
    | .error .eof => coherent_done _
    | .error (.protocol _) => coherent_done _
    | .error (.abort ..) => coherent_done _
    | .error (.remoteCall _) => coherent_done _
    | .error (.io _) => coherent_done _
    | .error (.panicked _) => coherent_done _

theorem coherent_readAll (turns : Nat) (incoming : List Incoming) :
    Coherent (readAll (E := handlerCalls) C turns incoming) := by
  induction turns generalizing incoming with
  | zero => exact coherent_done _
  | succ turns ih =>
      refine (coherent_readIncoming C).bind fun result => ?_
      match result with
      | .ok (some message) => exact ih _
      | .ok none => exact coherent_done _
      | .error e => exact coherent_done _

theorem reads_readIncoming (h : IsMessage frame message) (rest : List UInt8) :
    Reads (readIncoming (E := handlerCalls) C) (frame.bytes ++ rest)
      ((Incoming.ofMessage C message).map some) rest :=
  .bind (.complete h.2 rest) (.done _ rest)

/-- Wherever the stream ends, `read_incoming` returns `None`. -/
theorem reads_readIncoming_of_endsInside (h : EndsInside cut) :
    Reads (readIncoming (E := handlerCalls) C) cut (.ok none) [] :=
  .bind (reads_readMessage_of_endsInside h) (.done _ [])

theorem reads_readAll (hmessages : List.Forall₂ IsMessage frames messages) (hcut : EndsInside cut)
    (incoming : List Incoming) (turns : Nat) :
    ∃ rest, Reads (readAll (E := handlerCalls) C (messages.length + 1 + turns) incoming)
      ((frames.map Frame.bytes).flatten ++ cut)
      (some (incoming ++ (decodeUntil (Incoming.ofMessage C) messages).1,
        ending (decodeUntil (Incoming.ofMessage C) messages).2)) rest := by
  induction hmessages generalizing incoming with
  | nil =>
      rw [List.length_nil, Nat.add_right_comm, decodeUntil, List.append_nil]
      exact ⟨[], .bind (reads_readIncoming_of_endsInside C hcut) (.done _ [])⟩
  | @cons frame message frames messages hmessage _ ih =>
      rw [List.map_cons, List.flatten_cons, List.append_assoc, List.length_cons,
        Nat.add_right_comm _ 1 turns, decodeUntil]
      have hfirst := reads_readIncoming C hmessage ((frames.map Frame.bytes).flatten ++ cut)
      cases hdecode : Incoming.ofMessage C message with
      | error e =>
          rw [hdecode] at hfirst
          dsimp only
          rw [List.append_nil]
          exact ⟨_, .bind hfirst (.done _ _)⟩
      | ok decoded =>
          rw [hdecode] at hfirst
          obtain ⟨rest, hrest⟩ := ih (incoming ++ [decoded])
          rw [List.append_assoc] at hrest
          exact ⟨rest, .bind hfirst hrest⟩

end ReadAll

/-! ## `serve_cloudflared` -/

section Serve

variable {C : Capnp T} (handler : CloudflaredHandler σ)

/-- The stream has in it what the edge is still to send, and what was written to the edge. -/
structure Carries (C : Capnp T) (side : Pipe UInt8 × σ) (edge : Edge σ) : Prop where
  input : ∃ frames messages cut, side.1.input = (frames.map Frame.bytes).flatten ++ cut ∧
    List.Forall₂ (IsMessage (T := T)) frames messages ∧ EndsInside cut ∧
      edge.incoming = messages.map C.getRoot
  ending : edge.ending = .eof
  output : side.1.output = (written edge.log).flatMap C.serialize
  handler : side.2 = edge.handler

theorem endsInside_nil : EndsInside [] := .inl (by decide)

/-- One request of the loop, on the stream and at the edge. -/
theorem carries_perform (op : (wire handlerCalls).Op) {side : Pipe UInt8 × σ} {edge : Edge σ}
    (h : Carries C side edge) :
    ∃ side', (overBytes C handlerCalls op).interpret (Pipe.replyWith handler.answer) side =
        ((respond handler op edge).1, side') ∧
      Carries C side' (respond handler op edge).2 := by
  obtain ⟨pipe, s⟩ := side
  obtain ⟨⟨frames, messages, cut, hinput, hmessages, hcut, hincoming⟩, hending, houtput, hs⟩ := h
  dsimp only at hinput houtput hs
  cases op with
  | write message =>
      obtain ⟨pipe', hrun, hinput', houtput'⟩ := interpret_of_sends (E := handlerCalls)
        handler.answer (sends_writeAll (C.serialize message)) (coherent_writeAll _) pipe s
      refine ⟨(pipe', s), hrun,
        ⟨frames, messages, cut, hinput'.trans hinput, hmessages, hcut, hincoming⟩, hending, ?_, hs⟩
      show pipe'.output = (written (edge.log ++ [wrote message (.ok ())])).flatMap C.serialize
      rw [houtput', houtput, written_append, List.flatMap_append]
      congr 1
      exact (List.append_nil _).symm
  | effect op =>
      refine ⟨(pipe, (handler.answer op s).2), ?_,
        ⟨frames, messages, cut, hinput, hmessages, hcut, hincoming⟩, hending, ?_, ?_⟩
      · rw [hs]
        rfl
      · show pipe.output = (written (edge.log ++ [_])).flatMap C.serialize
        rw [written_append, houtput]
        exact congrArg _ (List.append_nil _).symm
      · rw [hs]
        rfl
  | read =>
      obtain ⟨incoming, ending, log, s'⟩ := edge
      dsimp only at hincoming hending houtput hs
      subst hincoming hending hs
      cases hmessages with
      | nil =>
          have hreads : Reads (overBytes C handlerCalls .read) cut (.error .eof) [] :=
            .bind (reads_readMessage_of_endsInside hcut) (.done _ [])
          obtain ⟨pipe', hrun, hinput', houtput'⟩ := interpret_of_reads handler.answer hreads
            (coherent_overBytes C _) hinput s
          refine ⟨(pipe', s), hrun, ⟨[], [], [], hinput', .nil, endsInside_nil, rfl⟩, rfl, ?_, rfl⟩
          show pipe'.output = (written (log ++ [gotten (.error .eof)])).flatMap C.serialize
          rw [houtput', houtput, written_append, written_gotten]
          exact congrArg _ (List.append_nil _).symm
      | @cons frame message frames messages hmessage hrest =>
          rw [List.map_cons, List.flatten_cons, List.append_assoc] at hinput
          have hreads : Reads (overBytes C handlerCalls .read)
              (frame.bytes ++ ((frames.map Frame.bytes).flatten ++ cut)) (.ok (C.getRoot message))
              ((frames.map Frame.bytes).flatten ++ cut) :=
            .bind (.complete hmessage.2 _) (.done _ _)
          obtain ⟨pipe', hrun, hinput', houtput'⟩ := interpret_of_reads handler.answer hreads
            (coherent_overBytes C _) hinput s
          refine ⟨(pipe', s), hrun, ⟨frames, messages, cut, hinput', hrest, hcut, rfl⟩, rfl, ?_, rfl⟩
          show pipe'.output =
            (written (log ++ [gotten (.ok (C.getRoot message))])).flatMap C.serialize
          rw [houtput', houtput, written_append, written_gotten]
          exact congrArg _ (List.append_nil _).symm

end Serve

/-! ## What is reported -/

section Reports

variable (C : IncomingCapnp T) (handler : CloudflaredHandler σ) (s : σ) (t : Transmission)
  (splits : Nat → Nat) (turns : Nat)

/-- The stream, cut into pieces in one way or another, and the handler. -/
def start : Pipe UInt8 × σ := (⟨t.bytes, [], splits, 0⟩, s)

def serveRun : Option (Except RpcError Unit) × (Pipe UInt8 × σ) :=
  (serveBytes C.toCapnp (t.frames.length + 1 + turns)).interpret (Pipe.replyWith handler.answer)
    (start s t splits)

def readRun : Option (List Incoming × Except RpcError Unit) × (Pipe UInt8 × σ) :=
  (readAll (E := handlerCalls) C (t.frames.length + 1 + turns) []).interpret
    (Pipe.replyWith handler.answer) (start s t splits)

/-- A server processes the complete messages, and reports an error exactly if the stream ends within a
message. -/
structure ReportsEnd (t : Transmission) (decodable processed : Prop)
    (result : Option (Except RpcError Unit)) : Prop where
  processed : decodable → processed
  error : ¬ t.AtBoundary → ∃ e, result = some (.error e)
  clean : t.AtBoundary → decodable → result = some (.ok ())

variable {t} {messages : List T.OwnedSegments}

theorem serveRun_eq (hmessages : List.Forall₂ IsMessage t.frames messages) :
    let decoded := decodeUntil decodeRequest (messages.map C.getRoot)
    ∃ pipe, serveRun C handler s t splits turns =
        (some (ending decoded.2), pipe, afterAll handler decoded.1 s) ∧
      pipe.output = (serveAll handler decoded.1 s).reduceOption.flatMap C.serialize := by
  have hstart : Carries C.toCapnp (start s t splits) ⟨messages.map C.getRoot, .eof, [], s⟩ :=
    ⟨⟨t.frames, messages, _, rfl, hmessages, t.endsInside_cut, rfl⟩, rfl, rfl, rfl⟩
  obtain ⟨⟨pipe, s'⟩, hrun, hcarries⟩ := interpret_handle (carries_perform handler)
    (serveCloudflared (t.frames.length + 1 + turns)) hstart
  obtain ⟨edge, hserve, hlog, hhandler⟩ :=
    serveCloudflared_run handler (messages.map C.getRoot) .eof [] s turns
  rw [List.length_map, ← hmessages.length_eq] at hserve
  rw [hserve] at hrun hcarries
  have houtput := hcarries.output
  have hs : s' = edge.handler := hcarries.handler
  rw [hlog, List.nil_append, written_serveLog] at houtput
  rw [hs, hhandler, outcome_eof] at hrun
  rw [decodeAll_eq] at hrun houtput
  exact ⟨pipe, hrun, houtput⟩

theorem readRun_eq (hmessages : List.Forall₂ IsMessage t.frames messages) :
    let decoded := decodeUntil (Incoming.ofMessage C) messages
    (readRun C handler s t splits turns).1 = some (decoded.1, ending decoded.2) := by
  obtain ⟨rest, hreads⟩ := reads_readAll C hmessages t.endsInside_cut [] turns
  rw [← hmessages.length_eq] at hreads
  have hinput : (Pipe.mk t.bytes [] splits 0).input = t.bytes := rfl
  obtain ⟨pipe, hrun, -, -⟩ := interpret_of_reads handler.answer hreads (coherent_readAll C _ _) hinput s
  exact congrArg Prod.fst hrun

/-- Wherever the stream ends, a server that can decode the messages ends well. -/
theorem reportsEnd_iff {decodable processed : Prop} {error : Option RpcError}
    (hdecodable : error = none ↔ decodable) (hprocessed : decodable → processed) :
    ReportsEnd t decodable processed (some (ending error)) ↔ t.AtBoundary ∨ ¬ decodable := by
  constructor
  · intro h
    by_contra hnot
    rw [not_or, not_not] at hnot
    obtain ⟨e, he⟩ := h.error hnot.1
    rw [hdecodable.mpr hnot.2] at he
    cases he
  · intro h
    refine ⟨hprocessed, fun hcut => ?_, fun _ hdecoded => ?_⟩
    · have hsome : error ≠ none := fun hnone => h.resolve_left hcut (hdecodable.mp hnone)
      obtain ⟨e, rfl⟩ := Option.ne_none_iff_exists'.mp hsome
      exact ⟨e, rfl⟩
    · rw [hdecodable.mpr hdecoded]
      rfl

variable (t)

/-- `serve_cloudflared` answers the messages, all of which can be decoded, and reports how the stream
ends. -/
def ServeReportsEnd (messages : List T.OwnedSegments) : Prop :=
  let run := serveRun C handler s t splits turns
  let roots := messages.map C.getRoot
  ReportsEnd t (Decodable decodeRequest roots)
    (∃ requests, roots.map decodeRequest = requests.map .ok ∧
      run.2.1.output = (serveAll handler requests s).reduceOption.flatMap C.serialize ∧
      run.2.2 = afterAll handler requests s) run.1

/-- So does a loop over `read_incoming`, which returns what came in. -/
def ReadReportsEnd (messages : List T.OwnedSegments) : Prop :=
  let run := readRun C handler s t splits turns
  ReportsEnd t (Decodable (Incoming.ofMessage C) messages)
    (∃ incoming result, messages.map (Incoming.ofMessage C) = incoming.map .ok ∧
      run.1 = some (incoming, result)) (run.1.map Prod.snd)

variable {t} {C handler s splits turns}

theorem serveReportsEnd_iff (hmessages : List.Forall₂ IsMessage t.frames messages) :
    ServeReportsEnd C handler s t splits turns messages ↔
      t.AtBoundary ∨ ¬ Decodable decodeRequest (messages.map C.getRoot) := by
  obtain ⟨pipe, hrun, houtput⟩ := serveRun_eq C handler s splits turns hmessages
  dsimp only [ServeReportsEnd]
  rw [hrun]
  refine reportsEnd_iff (decodeUntil_snd_eq_none_iff _ _) fun hdecodable => ?_
  exact ⟨_, map_decodeUntil _ hdecodable, houtput, rfl⟩

theorem readReportsEnd_iff (hmessages : List.Forall₂ IsMessage t.frames messages) :
    ReadReportsEnd C handler s t splits turns messages ↔
      t.AtBoundary ∨ ¬ Decodable (Incoming.ofMessage C) messages := by
  have hrun := readRun_eq C handler s splits turns hmessages
  dsimp only [ReadReportsEnd]
  rw [hrun]
  refine reportsEnd_iff (decodeUntil_snd_eq_none_iff _ _) fun hdecodable => ?_
  exact ⟨_, _, map_decodeUntil _ hdecodable, rfl⟩

end Reports

/-- **How a stream ends is reported exactly if it ends at a message boundary**, or if a message before
that cannot be decoded: the messages, and how they and the end come in pieces, do not matter. -/
theorem reportsEnd_iff_atBoundary (C : IncomingCapnp T) (handler : CloudflaredHandler σ) (s : σ)
    (t : Transmission) (splits : Nat → Nat) (turns : Nat) :
    ∃ messages : List T.OwnedSegments, List.Forall₂ IsMessage t.frames messages ∧
      (ServeReportsEnd C handler s t splits turns messages ↔
        t.AtBoundary ∨ ¬ Decodable decodeRequest (messages.map C.getRoot)) ∧
      (ReadReportsEnd C handler s t splits turns messages ↔
        t.AtBoundary ∨ ¬ Decodable (Incoming.ofMessage C) messages) := by
  obtain ⟨messages, hmessages⟩ := exists_messages T t.frames
  exact ⟨messages, hmessages, serveReportsEnd_iff hmessages, readReportsEnd_iff hmessages⟩

/-- A word, of which the first byte of its segment table is sent. -/
def oneByte : Transmission where
  frames := []
  last := .single (List.replicate 8 0) (by decide) (by decide)
  cut := 1
  cut_lt := by decide

/-- Every message is a `Finish` of question 0. -/
def onlyFinishes : IncomingCapnp SegmentTable.ofLists where
  serialize _ := []
  getRoot _ := .ok (.ok .finish)
  finishQuestionId _ := .ok 0

/-- One byte of a message, and both servers are content. -/
theorem not_reportsEnd_oneByte :
    let handler : CloudflaredHandler Unit :=
      { updateConfiguration := fun version _ s => (⟨version, ""⟩, s) }
    ¬ ServeReportsEnd onlyFinishes handler () oneByte (fun _ => 1) 0 [] ∧
      ¬ ReadReportsEnd onlyFinishes handler () oneByte (fun _ => 1) 0 [] := by
  have hcut : ¬ oneByte.AtBoundary := Nat.one_ne_zero
  have hmessages : List.Forall₂ (IsMessage (T := .ofLists)) oneByte.frames [] := .nil
  intro handler
  refine ⟨fun h => ?_, fun h => ?_⟩
  · rcases (serveReportsEnd_iff hmessages).mp h with hboundary | hdecodable
    · exact hcut hboundary
    · exact hdecodable fun _ hmem => absurd hmem List.not_mem_nil
  · rcases (readReportsEnd_iff hmessages).mp h with hboundary | hdecodable
    · exact hcut hboundary
    · exact hdecodable fun _ hmem => absurd hmem List.not_mem_nil

end Libcfd.Rpc
