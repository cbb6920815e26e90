import Libcfd.Edge.Serve
import Libcfd.Origin.Pump

/-!
# What comes and goes on a data stream

The body of a request follows its framing with nothing in between, and so does the body of a
response. `serveStream` reads the framing to its last byte, invokes one handler with a request made
of the `ConnectRequest` alone, and leaves the body to it; what it writes starts with the same
framing, which reads back as the `ConnectResponse` it was made of (`serveStream_layout`).
-/

namespace Libcfd.Edge.Serve

open Program Libcfd.Rpc Libcfd.Origin Libcfd.Stream

section Layout

variable {H : Http} {S : Type} {T : SegmentTable} {C : QuicCapnp T} {origin : Origin H S}

/-! ## The opening -/

/-- The bytes of an opening. -/
def opening (frame : Frame) : List UInt8 :=
  dataStreamProtocolSignature ++ protocolV1 ++ frame.bytes

theorem coherent_question {α β : Type} {convert : RpcError → Error} {p : Io (serving H S) α}
    {f : α → Serving H S (Except Error β)} (hp : Coherent p.run) (hf : ∀ a, Coherent (f a)) :
    Coherent (question convert p f) := by
  apply hp.bind
  intro result
  cases result with
  | ok a => exact hf a
  | error e => exact coherent_done _

theorem receives_question {α β : Type} {convert : RpcError → Error} {p : Io (serving H S) α}
    {f : α → Serving H S (Except Error β)} {xs ys : List UInt8} {a : α}
    {q : Serving H S (Except Error β)} (hp : Receives p.run xs (.done (.ok a)))
    (hf : Receives (f a) ys q) : Receives (question convert p f) (xs ++ ys) q :=
  (hp.bind _).append hf

theorem reads_question {α β : Type} {convert : RpcError → Error} {p : Io (serving H S) α}
    {f : α → Serving H S (Except Error β)} {xs ys rest : List UInt8} {a : α} {b : Except Error β}
    (hp : Receives p.run xs (.done (.ok a))) (hf : Reads (f a) ys b rest) :
    Reads (question convert p f) (xs ++ ys) b rest :=
  .of_receives (hp.bind _) hf

theorem sends_question {α β : Type} {convert : RpcError → Error} {p : Io (serving H S) α}
    {f : α → Serving H S (Except Error β)} {xs ys : List UInt8} {a : α}
    {q : Serving H S (Except Error β)} (hp : Sends p.run xs (.done (.ok a)))
    (hf : Sends (f a) ys q) : Sends (question convert p f) (xs ++ ys) q :=
  (hp.bind _).append hf

theorem coherent_openStream (id : Nat) :
    Coherent (openStream (H := H) (S := S) C id) := by
  apply coherent_question (coherent_readExact 6)
  intro signature
  split
  · exact coherent_done _
  · split
    · exact coherent_done _
    · apply coherent_question (coherent_readExact 2)
      intro version
      split
      · exact coherent_done _
      · apply coherent_question coherent_readConnectRequest
        intro connect
        exact coherent_done _

theorem receives_openStream (hC : C.Lawful) {connect : ConnectRequest} {frame : Frame}
    (hframe : C.serializeRequest connect = frame.bytes) (id : Nat) :
    Receives (openStream (H := H) (S := S) C id) (opening frame)
      (.done (.ok (.data connect))) := by
  rw [opening, List.append_assoc]
  refine receives_question (receives_readExact rfl) ?_
  rw [if_neg (by decide), if_neg (by decide)]
  refine receives_question (receives_readExact rfl) ?_
  rw [if_neg (by decide), ← List.append_nil frame.bytes]
  exact receives_question (receives_readConnectRequest hC hframe) (.nil _)

/-! ### Streams that do not open -/

theorem makes_readExactFrom (filled : List UInt8) (room : Nat) :
    Makes Op.IsRead (readExactFrom (E := serving H S) filled room).run := by
  induction room using Nat.strongRecOn generalizing filled with
  | ind room ih =>
      by_cases hroom : room = 0
      · rw [hroom, run_readExactFrom_zero]
        trivial
      obtain ⟨next, heq, herror, hend, hpiece⟩ :=
        run_readExactFrom (E := serving H S) filled hroom
      rw [heq]
      refine ⟨trivial, fun reply => ?_⟩
      match reply with
      | .error e =>
          rw [herror]
          trivial
      | .ok ⟨piece, h⟩ =>
          by_cases hne : piece = []
          · subst hne
            rw [hend]
            trivial
          · have hpos : 0 < piece.length := List.length_pos_iff.mpr hne
            rw [hpiece piece h hne]
            exact ih (room - piece.length) (by omega) _

/-- What a `read_exact` returns is what it has read. -/
theorem received_of_readExactFrom {filled bytes : List UInt8} {room : Nat}
    {trace : List (Program.Event (signature UInt8 IoError (serving H S)))}
    (h : Exec (readExactFrom filled room).run trace (.ok bytes)) :
    filled ++ received trace = bytes := by
  induction room using Nat.strongRecOn generalizing filled trace with
  | ind room ih =>
      by_cases hroom : room = 0
      · rw [hroom, run_readExactFrom_zero] at h
        obtain ⟨rfl, ⟨⟩⟩ := exec_done_iff.mp h
        exact List.append_nil bytes
      obtain ⟨next, heq, herror, hend, hpiece⟩ :=
        run_readExactFrom (E := serving H S) filled hroom
      rw [heq] at h
      obtain ⟨reply, trace, rfl, hnext⟩ := exec_request_iff.mp h
      match reply with
      | .error e =>
          rw [herror] at hnext
          obtain ⟨_, ⟨⟩⟩ := exec_done_iff.mp hnext
      | .ok ⟨piece, hlength⟩ =>
          by_cases hne : piece = []
          · subst hne
            rw [hend] at hnext
            obtain ⟨_, ⟨⟩⟩ := exec_done_iff.mp hnext
          · have hpos : 0 < piece.length := List.length_pos_iff.mpr hne
            rw [hpiece piece hlength hne] at hnext
            have hrest := ih (room - piece.length) (by omega) hnext
            rw [List.append_assoc] at hrest
            exact hrest

/-- A step of an opening that reads: it fails, or it goes on with what it has read. -/
theorem exec_question_readExact {α : Type} {room : Nat}
    {f : List UInt8 → Serving H S (Except Error α)} {result : Except Error α}
    {trace : List (Program.Event (signature UInt8 IoError (serving H S)))}
    (h : Exec (question .ofIo (readExact room) f) trace result) :
    ∃ polls trace', trace = polls ++ trace' ∧ sent polls = [] ∧ asked polls = [] ∧
      (trace' = [] ∧ (∃ e, result = .error e) ∨ Exec (f (received polls)) trace' result) := by
  obtain ⟨polls, got, trace', rfl, hread, hrest⟩ := exec_bind_iff.mp h
  obtain ⟨hsent, hasked⟩ := exec_reads (makes_readExactFrom [] room) hread
  refine ⟨polls, trace', rfl, hsent, hasked, ?_⟩
  cases got with
  | error e =>
      obtain ⟨rfl, rfl⟩ := exec_done_iff.mp hrest
      exact .inl ⟨rfl, _, rfl⟩
  | ok bytes =>
      cases received_of_readExactFrom hread
      exact .inr hrest

/-- An opening that comes to nothing has only read. -/
theorem exec_openStream_of_not_prefix {id : Nat} {input rest : List UInt8}
    {result : Except Error Opened}
    {trace : List (Program.Event (signature UInt8 IoError (serving H S)))}
    (hexec : Exec (openStream C id) trace result) (hdelivers : Delivers input trace rest)
    (hrpc : ¬ rpcStreamProtocolSignature <+: input)
    (hdata : ¬ dataStreamProtocolSignature ++ protocolV1 <+: input) :
    sent trace = [] ∧ asked trace = [] ∧ ∃ e, result = .error e := by
  have hinput := received_of_delivers hdelivers
  obtain ⟨first, trace, rfl, hsent, hasked, h⟩ := exec_question_readExact hexec
  rw [received_append, List.append_assoc] at hinput
  rcases h with ⟨rfl, herror⟩ | hnext
  · rw [List.append_nil]
    exact ⟨hsent, hasked, herror⟩
  · split at hnext
    · next hsignature =>
        rw [hsignature] at hinput
        exact absurd ⟨_, hinput⟩ hrpc
    · split at hnext
      · obtain ⟨rfl, rfl⟩ := exec_done_iff.mp hnext
        rw [List.append_nil]
        exact ⟨hsent, hasked, _, rfl⟩
      · next hsignature =>
          obtain ⟨second, trace, rfl, hsent', hasked', h⟩ := exec_question_readExact hnext
          rw [sent_append, hsent, asked_append, hasked, sent_append, hsent', asked_append, hasked']
          rcases h with ⟨rfl, herror⟩ | hnext
          · exact ⟨rfl, rfl, herror⟩
          · split at hnext
            · obtain ⟨rfl, rfl⟩ := exec_done_iff.mp hnext
              exact ⟨rfl, rfl, _, rfl⟩
            · next hversion =>
                rw [Decidable.not_not.mp hsignature, received_append,
                  Decidable.not_not.mp hversion, List.append_assoc, ← List.append_assoc] at hinput
                exact absurd ⟨_, hinput⟩ hdata

/-! ## The reply -/

/-- The bytes of a response, up to the body. -/
def preamble (C : QuicCapnp T) (response : ConnectResponse) : List UInt8 :=
  dataStreamProtocolSignature ++ protocolV1 ++
    C.serializeResponse (encodeConnectResponse response)

theorem coherent_writeResponsePreamble (response : ConnectResponse) :
    Coherent (writeResponsePreamble (H := H) (S := S) C response) := by
  apply coherent_question (coherent_writeAll _)
  intro _
  apply coherent_question (coherent_writeAll _)
  intro _
  apply coherent_question (coherent_writeAll _)
  intro _
  exact coherent_done _

theorem sends_writeResponsePreamble (response : ConnectResponse) :
    Sends (writeResponsePreamble (H := H) (S := S) C response) (preamble C response)
      (.done (.ok ())) := by
  rw [preamble, List.append_assoc, ← List.append_nil (C.serializeResponse _)]
  exact sends_question (sends_writeAll _)
    (sends_question (sends_writeAll _) (sends_question (sends_writeAll _) (.nil _)))

theorem coherent_copy {E : Signature} (body : Body) : Coherent (copy (E := E) body).run := by
  have hpieces : ∀ pieces, Coherent (copyPieces (E := E) pieces).run := by
    intro pieces
    induction pieces with
    | nil => exact Io.coherent_pure ()
    | cons piece pieces ih => exact Io.coherent_bind (coherent_writeAll piece) fun _ => ih
  apply Io.coherent_bind (hpieces body.pieces)
  intro _
  cases body.ending with
  | ok => exact Io.coherent_pure ()
  | error e => exact coherent_done _

/-- How a `copy` that is not kept from writing ends. -/
def copied (body : Body) : Except RpcError Unit :=
  match body.ending with
  | .ok () => .ok ()
  | .error e => .error (.io e)

theorem sends_copy {E : Signature} (body : Body) :
    Sends (copy (E := E) body).run body.pieces.flatten (.done (copied body)) := by
  have hpieces : ∀ pieces,
      Sends (copyPieces (E := E) pieces).run pieces.flatten (.done (.ok ())) := by
    intro pieces
    induction pieces with
    | nil => exact .nil _
    | cons piece pieces ih => exact ((sends_writeAll piece).bind _).append ih
  have hbind := (hpieces body.pieces).bind (Async.andThen fun _ =>
    (match body.ending with
      | .ok () => pure ()
      | .error e => liftM (Except.error (RpcError.io e) : Except RpcError Unit) :
        Io E Unit))
  unfold copied
  show Sends ((copyPieces (E := E) body.pieces).run.bind _) body.pieces.flatten _
  cases hending : body.ending with
  | ok =>
      rw [hending] at hbind
      exact hbind
  | error e =>
      rw [hending] at hbind
      exact hbind

/-! ### What a reply may do -/

/-- Writes, and requests that do not invoke a handler. -/
abbrev IsAnswer : Op UInt8 (serving H S) → Prop := Op.IsReply fun op => ¬ ServeOp.IsInvocation op

theorem makes_writeAll (buffer : List UInt8) :
    Makes IsAnswer (writeAll (E := serving H S) buffer).run := by
  induction hsize : buffer.length using Nat.strongRecOn generalizing buffer with
  | ind size ih =>
      by_cases hne : buffer = []
      · rw [hne, run_writeAll_nil]
        trivial
      obtain ⟨next, heq, herror, hzero, hsome⟩ := run_writeAll (E := serving H S) hne
      rw [heq]
      refine ⟨trivial, fun reply => ?_⟩
      match reply with
      | .error e =>
          rw [herror]
          trivial
      | .ok ⟨0, h⟩ =>
          rw [hzero]
          trivial
      | .ok ⟨n + 1, h⟩ =>
          have hlength : 0 < buffer.length := List.length_pos_iff.mpr hne
          have hdrop : (buffer.drop (n + 1)).length < size := by
            rw [List.length_drop]
            omega
          rw [hsome (n + 1) h (Nat.succ_pos n)]
          exact ih _ hdrop _ rfl

theorem makes_question {α β : Type} {allowed : Op UInt8 (serving H S) → Prop}
    {convert : RpcError → Error} {p : Io (serving H S) α} {f : α → Serving H S (Except Error β)}
    (hp : Makes allowed p.run) (hf : ∀ a, Makes allowed (f a)) :
    Makes allowed (question convert p f) := by
  apply hp.bind
  intro result
  cases result with
  | ok a => exact hf a
  | error e => trivial

theorem makes_writeResponsePreamble (response : ConnectResponse) :
    Makes IsAnswer (writeResponsePreamble (H := H) (S := S) C response) := by
  apply makes_question (makes_writeAll _)
  intro _
  apply makes_question (makes_writeAll _)
  intro _
  apply makes_question (makes_writeAll _)
  intro _
  trivial

theorem makes_writeStreamError (message : String) :
    Makes IsAnswer (writeStreamError (H := H) (S := S) C message) := by
  apply (makes_writeResponsePreamble _).bind
  intro result
  cases result with
  | ok => exact ⟨id, fun _ => trivial⟩
  | error e => trivial

theorem makes_copy (body : Body) : Makes IsAnswer (copy (E := serving H S) body).run := by
  have hpieces : ∀ pieces, Makes IsAnswer (copyPieces (E := serving H S) pieces).run := by
    intro pieces
    induction pieces with
    | nil => trivial
    | cons piece pieces ih =>
        apply (makes_writeAll piece).bind
        intro result
        cases result with
        | ok => exact ih
        | error e => trivial
  apply (hpieces body.pieces).bind
  intro result
  cases result with
  | error e => trivial
  | ok =>
      show Makes IsAnswer (Async.run (match body.ending with
        | .ok () => pure ()
        | .error e => liftM (Except.error (RpcError.io e) : Except RpcError Unit)))
      cases body.ending with
      | ok => trivial
      | error e => trivial

theorem makes_respondHttp (answer : Except String (Response H)) :
    Makes IsAnswer (respondHttp (S := S) C answer) := by
  cases answer with
  | error message => exact makes_writeStreamError message
  | ok response =>
      apply (makes_writeResponsePreamble _).bind
      intro result
      cases result with
      | error e => exact ⟨id, fun _ => trivial⟩
      | ok =>
          apply (makes_copy response.body).bind
          intro result
          cases result with
          | error e => exact ⟨id, fun _ => trivial⟩
          | ok => exact ⟨id, fun _ => ⟨id, fun _ => trivial⟩⟩

theorem makes_respondStream (answer : Except String (ConnectResponse × S)) :
    Makes IsAnswer (respondStream (H := H) C answer) := by
  cases answer with
  | error message => exact makes_writeStreamError message
  | ok answer =>
      apply (makes_writeResponsePreamble answer.1).bind
      intro result
      cases result with
      | error e => trivial
      | ok => exact ⟨id, fun _ => trivial⟩

/-! ### What a reply comes to -/

/-- A failure, written back. -/
def FailureReplied (C : QuicCapnp T) (message : String)
    (trace : List (Program.Event (signature UInt8 IoError (serving H S))))
    (result : Except Error Unit) :
    Prop :=
  sent trace = preamble C (streamError message) ∧ asked trace = [⟨.cancelWrite, ()⟩] ∧
    result = .ok ()

/-- A response and its body, written back. -/
def ResponseReplied (C : QuicCapnp T) (response : Response H)
    (trace : List (Program.Event (signature UInt8 IoError (serving H S))))
    (result : Except Error Unit) :
    Prop :=
  sent trace = preamble C (success response) ++ response.body.pieces.flatten ∧
    match response.body.ending with
    | .ok () => asked trace = [⟨.drainUnread, ()⟩, ⟨.finish, ()⟩] ∧ result = .ok ()
    | .error e => asked trace = [⟨.cancelWrite, ()⟩] ∧ result = .error (.ofIo (.io e))

/-- A response is written back, and the rest is left to `pump`. -/
def StreamReplied (C : QuicCapnp T) (response : ConnectResponse) (stream : S)
    (trace : List (Program.Event (signature UInt8 IoError (serving H S))))
    (result : Except Error Unit) :
    Prop :=
  sent trace = preamble C response ∧ asked trace = [⟨.pump stream, result⟩]

section Replied

variable {trace : List (Program.Event (signature UInt8 IoError (serving H S)))}
  {result : Except Error Unit}

theorem exec_writeStreamError {message : String}
    (hexec : Exec (writeStreamError C message) trace result) (haccepts : Accepts trace) :
    FailureReplied C message trace result := by
  obtain ⟨first, written, second, rfl, hwrite, hrest⟩ := exec_bind_iff.mp hexec
  obtain ⟨hfirst, hsecond⟩ := accepts_append_iff.mp haccepts
  obtain ⟨rfl, hsent, hasked⟩ := exec_of_sends_done (coherent_writeResponsePreamble _)
    (sends_writeResponsePreamble _) hwrite hfirst
  obtain ⟨⟨⟩, _, rfl, hdone⟩ := exec_request_iff.mp hrest
  obtain ⟨rfl, rfl⟩ := exec_done_iff.mp hdone
  rw [FailureReplied, sent_append, asked_append, hsent, hasked]
  exact ⟨List.append_nil _, rfl, rfl⟩

theorem exec_respondHttp {response : Response H}
    (hexec : Exec (respondHttp C (.ok response)) trace result) (haccepts : Accepts trace) :
    ResponseReplied C response trace result := by
  obtain ⟨first, written, second, rfl, hwrite, hrest⟩ := exec_bind_iff.mp hexec
  obtain ⟨hfirst, hsecond⟩ := accepts_append_iff.mp haccepts
  obtain ⟨rfl, hsent, hasked⟩ := exec_of_sends_done (coherent_writeResponsePreamble _)
    (sends_writeResponsePreamble _) hwrite hfirst
  obtain ⟨copying, ended, last, rfl, hcopy, hlast⟩ := exec_bind_iff.mp hrest
  obtain ⟨hcopying, _⟩ := accepts_append_iff.mp hsecond
  obtain ⟨rfl, hsent', hasked'⟩ := exec_of_sends_done (coherent_copy response.body)
    (sends_copy response.body) hcopy hcopying
  rw [ResponseReplied, sent_append, sent_append, asked_append, asked_append, hsent, hsent', hasked,
    hasked']
  unfold copied at hlast
  cases hending : response.body.ending with
  | ok =>
      rw [hending] at hlast
      obtain ⟨⟨⟩, _, rfl, hfinish⟩ := exec_request_iff.mp hlast
      obtain ⟨⟨⟩, _, rfl, hdone⟩ := exec_request_iff.mp hfinish
      obtain ⟨rfl, rfl⟩ := exec_done_iff.mp hdone
      refine ⟨?_, rfl, rfl⟩
      show _ ++ (_ ++ []) = _
      rw [List.append_nil]
  | error e =>
      rw [hending] at hlast
      obtain ⟨⟨⟩, _, rfl, hdone⟩ := exec_request_iff.mp hlast
      obtain ⟨rfl, rfl⟩ := exec_done_iff.mp hdone
      refine ⟨?_, rfl, rfl⟩
      show _ ++ (_ ++ []) = _
      rw [List.append_nil]

theorem exec_respondStream {response : ConnectResponse} {stream : S}
    (hexec : Exec (respondStream C (.ok (response, stream))) trace result)
    (haccepts : Accepts trace) : StreamReplied C response stream trace result := by
  obtain ⟨first, written, second, rfl, hwrite, hrest⟩ := exec_bind_iff.mp hexec
  obtain ⟨hfirst, hsecond⟩ := accepts_append_iff.mp haccepts
  obtain ⟨rfl, hsent, hasked⟩ := exec_of_sends_done (coherent_writeResponsePreamble _)
    (sends_writeResponsePreamble _) hwrite hfirst
  obtain ⟨outcome, _, rfl, hdone⟩ := exec_request_iff.mp hrest
  obtain ⟨rfl, rfl⟩ := exec_done_iff.mp hdone
  rw [StreamReplied, sent_append, asked_append, hsent, hasked]
  exact ⟨List.append_nil _, rfl⟩

end Replied

/-! ## Invocations -/

/-- The handler to invoke, and the request to invoke it with: nothing but the `ConnectRequest`
goes into them. -/
def invocation (H : Http) (S : Type) (connect : ConnectRequest) : Except Error (ServeOp H S) :=
  match connect.connectionType with
  | .http => (buildRequest H connect).map fun request => .http { request with body := .stream }
  | .websocket => (buildRequest H connect).map .websocket
  | .tcp => .ok (.tcp (.tcp H connect.destination))

/-- A `pump` that finds `body` on the stream hands on the body and nothing else, and writes back
what the origin says. -/
def PumpsExactly (body : List UInt8) : Prop :=
  ∀ (available : Direction → List UInt8) (capacity : Direction → Nat)
    (lingers : Direction → Bool) (ls : List Pump.Label) (t : Pump),
    Machine.run Pump.step (.start available capacity lingers) ls = some t →
    available .toOrigin ++ Pump.arrived .toOrigin ls = body →
    (t.sink .toOrigin).received <+: body ∧
    (t.sink .toEdge).received <+: available .toEdge ++ Pump.arrived .toEdge ls ∧
    (t.phase = .returned → (∀ l ∈ ls, l.isFailure = false) →
      (t.sink .toOrigin).received = body ∧
        (t.sink .toEdge).received = available .toEdge ++ Pump.arrived .toEdge ls)

theorem pumpsExactly (body : List UInt8) : PumpsExactly body := by
  intro available capacity lingers ls t hrun hbody
  subst hbody
  refine ⟨Pump.received_prefix_of_run hrun _, Pump.received_prefix_of_run hrun _, ?_⟩
  intro hphase hnone
  exact ⟨(Pump.received_eq_of_returned hrun hphase hnone _).1,
    (Pump.received_eq_of_returned hrun hphase hnone _).1⟩

/-- What comes after an invocation: the handler of an HTTP request reads what it reads and answers,
and its answer is written back; an origin stream is given to `pump` with nothing read. -/
def Handled (C : QuicCapnp T) (origin : Origin H S) (body : List UInt8) :
    (op : ServeOp H S) → (serving H S).Reply op →
      List (Program.Event (signature UInt8 IoError (serving H S))) → Except Error Unit → Prop
  | .http call, _, handled, result =>
      ∃ polls answer after, handled = polls ++ after ∧ Exec (origin.http call) polls answer ∧
        sent polls = [] ∧ asked polls = [] ∧ received after = [] ∧
        (Accepts handled →
          match answer with
          | .ok response => ResponseReplied C response after result
          | .error message => FailureReplied C message after result)
  | .websocket _, answer, handled, result =>
      received handled = [] ∧ PumpsExactly body ∧
        (Accepts handled →
          match answer with
          | .ok connection =>
              StreamReplied C (success connection.response) connection.origin handled result
          | .error message => FailureReplied C message handled result)
  | .tcp _, answer, handled, result =>
      received handled = [] ∧ PumpsExactly body ∧
        (Accepts handled →
          match answer with
          | .ok stream => StreamReplied C ⟨"", []⟩ stream handled result
          | .error message => FailureReplied C message handled result)
  | _, _, _, _ => False

section Handled

variable {trace : List (Program.Event (signature UInt8 IoError (serving H S)))}
  {result : Except Error Unit}
  {connect : ConnectRequest}

theorem buildRequest_eq_ok {uri : H.Uri} (h : H.uriTryFrom connect.destination = .ok uri) :
    ∃ request, buildRequest H connect = .ok request := by
  unfold buildRequest
  rw [h]
  exact ⟨_, rfl⟩

theorem exec_handleData (hhandles : origin.Handles connect.connectionType)
    (hparse : connect.connectionType ≠ .tcp → ∃ uri, H.uriTryFrom connect.destination = .ok uri)
    (hexec : Exec (handleData C origin connect) trace result) (body : List UInt8) :
    ∃ op reply handled, invocation H S connect = .ok op ∧
      trace = ⟨.effect op, reply⟩ :: handled ∧
      (∀ event ∈ asked handled, ¬ ServeOp.IsInvocation event.1) ∧
      Handled C origin body op reply handled result := by
  unfold handleData at hexec
  unfold invocation
  cases htype : connect.connectionType with
  | http =>
      rw [htype] at hexec hparse
      obtain ⟨uri, huri⟩ := hparse nofun
      obtain ⟨request, hrequest⟩ := buildRequest_eq_ok huri
      simp only [handleQuicHttp, hrequest] at hexec
      obtain ⟨⟨⟩, handled, rfl, hhandled⟩ := exec_request_iff.mp hexec
      obtain ⟨polls, answer, after, rfl, hhttp, hafter⟩ := exec_bind_iff.mp hhandled
      obtain ⟨hsent, hasked⟩ := exec_reads (origin.http_reads _) hhttp
      obtain ⟨hreceived, hinvocations⟩ := exec_replies (makes_respondHttp answer) hafter
      refine ⟨_, _, polls ++ after, by rw [hrequest]; rfl, rfl, ?_, polls, answer, after, rfl, hhttp,
        hsent, hasked, hreceived, ?_⟩
      · rw [asked_append, hasked]
        exact hinvocations
      · intro haccepts
        obtain ⟨_, hsecond⟩ := accepts_append_iff.mp haccepts
        cases answer with
        | ok response => exact exec_respondHttp hafter hsecond
        | error message => exact exec_writeStreamError hafter hsecond
  | websocket =>
      rw [htype] at hexec hparse hhandles
      obtain ⟨uri, huri⟩ := hparse nofun
      obtain ⟨request, hrequest⟩ := buildRequest_eq_ok huri
      simp only [handleQuicWebsocket, hrequest, if_pos (show origin.websocket = true from hhandles)]
        at hexec
      obtain ⟨answer, handled, rfl, hhandled⟩ := exec_request_iff.mp hexec
      obtain ⟨hreceived, hinvocations⟩ := exec_replies (makes_respondStream _) hhandled
      refine ⟨_, answer, handled, by rw [hrequest]; rfl, rfl, hinvocations, hreceived,
        pumpsExactly body, ?_⟩
      intro haccepts
      cases answer with
      | ok connection => exact exec_respondStream hhandled haccepts
      | error message => exact exec_writeStreamError hhandled haccepts
  | tcp =>
      rw [htype] at hexec hhandles
      simp only [handleQuicTcp, if_pos (show origin.tcp = true from hhandles)] at hexec
      obtain ⟨answer, handled, rfl, hhandled⟩ := exec_request_iff.mp hexec
      obtain ⟨hreceived, hinvocations⟩ := exec_replies (makes_respondStream _) hhandled
      refine ⟨_, answer, handled, rfl, rfl, hinvocations, hreceived, pumpsExactly body, ?_⟩
      intro haccepts
      cases answer with
      | ok stream => exact exec_respondStream hhandled haccepts
      | error message => exact exec_writeStreamError hhandled haccepts

end Handled

/-! ## The layout -/

/-- Serving a data stream: its opening is read, to the last byte, then one handler is invoked, and
what is left of the body is left. -/
def Serves (C : QuicCapnp T) (origin : Origin H S) (connect : ConnectRequest) (frame : Frame)
    (body rest : List UInt8) (trace : List (Program.Event (signature UInt8 IoError (serving H S))))
    (result : Except Error Unit) : Prop :=
  ∃ framing op reply handled, invocation H S connect = .ok op ∧
    trace = framing ++ ⟨.effect op, reply⟩ :: handled ∧
    received framing = opening frame ∧ sent framing = [] ∧ asked framing = [] ∧
    (∀ event ∈ asked handled, ¬ ServeOp.IsInvocation event.1) ∧
    received handled ++ rest = body ∧ Handled C origin body op reply handled result

end Layout

/-! ### A stream, served -/

/-- An origin that reads three bytes of a body before it answers, and takes TCP. -/
def greedyOrigin : Origin Http.ofLists Unit where
  http _ := (readExact 3).run.bind fun _ => .done (.ok ⟨200, [], ⟨[[111, 107]], .ok (), by decide⟩⟩)
  http_reads _ := (makes_readExactFrom [] 3).bind fun _ => trivial
  websocket := false
  tcp := true

def plainRequest : ConnectRequest := ⟨"http://a/", .http, []⟩

def plainResponse : ConnectResponse := ⟨"", [(httpStatusKey, "200")]⟩

/-- `plainRequest`, as capnp lays it out. -/
def plainRequestFrame : Frame :=
  Frame.single
    ([0, 0, 0, 0, 1, 0, 2, 0] ++ [0, 0, 0, 0, 0, 0, 0, 0] ++
      [5, 0, 0, 0, 82, 0, 0, 0] ++ [9, 0, 0, 0, 7, 0, 0, 0] ++
      [104, 116, 116, 112, 58, 47, 47, 97] ++ [47, 0, 0, 0, 0, 0, 0, 0] ++
      [0, 0, 0, 0, 0, 0, 2, 0]) (by decide) (by decide)

/-- `plainResponse`, as capnp lays it out. -/
def plainResponseFrame : Frame :=
  Frame.single
    ([0, 0, 0, 0, 0, 0, 2, 0] ++ [0, 0, 0, 0, 0, 0, 0, 0] ++
      [1, 0, 0, 0, 23, 0, 0, 0] ++ [4, 0, 0, 0, 0, 0, 2, 0] ++
      [5, 0, 0, 0, 90, 0, 0, 0] ++ [9, 0, 0, 0, 34, 0, 0, 0] ++
      [72, 116, 116, 112, 83, 116, 97, 116] ++ [117, 115, 0, 0, 0, 0, 0, 0] ++
      [50, 48, 48, 0, 0, 0, 0, 0]) (by decide) (by decide)

def plainCapnp : QuicCapnp SegmentTable.ofLists :=
  .single .ofLists plainRequest plainRequestFrame.bytes (encodeConnectResponse plainResponse)
    plainResponseFrame.bytes

theorem lawful_plainCapnp : plainCapnp.Lawful := QuicCapnp.lawful_single ..

def idle (op : ServeOp Http.ofLists Unit) : (serving Http.ofLists Unit).Reply op :=
  match op with
  | .http _ => ()
  | .websocket _ => .error "no websocket"
  | .tcp _ => .ok ()
  | .pump _ => .ok ()
  | .serveRpc => .ok ()
  | .cancelWrite | .finish | .drainUnread => ()

/-- A destination of 64 MiB. -/
def largeRequest : ConnectRequest := ⟨String.ofList (List.replicate (2 ^ 26) 'a'), .tcp, []⟩

/-- The segment table of `largeRequest`: capnp puts the text into a segment of its own. -/
def largeTable : List UInt8 := [1, 0, 0, 0, 5, 0, 0, 0, 2, 0, 128, 0, 0, 0, 0, 0]

def largeSegments : List UInt8 :=
  [0, 0, 0, 0, 1, 0, 2, 0] ++ [2, 0, 0, 0, 0, 0, 0, 0] ++
    [2, 0, 0, 0, 1, 0, 0, 0] ++ [1, 0, 0, 0, 7, 0, 0, 0] ++
    [0, 0, 0, 0, 0, 0, 2, 0] ++
    [1, 0, 0, 0, 10, 0, 0, 32] ++ List.replicate (2 ^ 26) 97 ++ [0, 0, 0, 0, 0, 0, 0, 0]

def largeCapnp : QuicCapnp SegmentTable.ofLists :=
  .single .ofLists largeRequest (largeTable ++ largeSegments) (encodeConnectResponse plainResponse)
    plainResponseFrame.bytes

theorem badTable_largeTable (rest : List UInt8) : BadTable (largeTable ++ rest) := by
  have hlength : 16 ≤ (largeTable ++ rest).length := by
    rw [List.length_append]
    exact Nat.le_add_right 16 rest.length
  have hannounced : announced (largeTable ++ rest) = 2 := rfl
  have hcounts : announcedCounts (largeTable ++ rest) =
    [little [5, 0, 0, 0], little [2, 0, 128, 0]] := rfl
  refine ⟨Nat.le_trans (by decide) hlength, .inr (.inr ⟨?_, ?_⟩)⟩
  · rw [hannounced]
    exact hlength
  · rw [hcounts]
    decide

theorem reads_openStream_of_badTable {H : Http} {S : Type} {T : SegmentTable} (C : QuicCapnp T)
    {input : List UInt8} (h : BadTable input) (id : Nat) :
    ∃ e rest, Reads (openStream (H := H) (S := S) C id)
      (dataStreamProtocolSignature ++ (protocolV1 ++ input)) (.error e) rest := by
  obtain ⟨message, consumed, _, hread⟩ := reads_readMessage_of_badTable (E := serving H S) (T := T) h
  have hconnect : Reads (readConnectRequest (E := serving H S) C).run input
      (.error (.protocol message)) (input.drop consumed) := Io.reads_bind_error hread
  refine ⟨.ofRpc (.protocol message), input.drop consumed, ?_⟩
  refine reads_question (receives_readExact rfl) ?_
  rw [if_neg (by decide), if_neg (by decide)]
  refine reads_question (receives_readExact rfl) ?_
  rw [if_neg (by decide)]
  exact hconnect.bind (.done _ _)

end Libcfd.Edge.Serve
