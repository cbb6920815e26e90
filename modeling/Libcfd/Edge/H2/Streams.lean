import Libcfd.Edge.Configuration
import Libcfd.Edge.H2.Headers
import Libcfd.Edge.H2.Tcp
import Libcfd.Edge.H2.Writer
import Libcfd.Edge.Serve.Way
import Libcfd.Foundation.Monitor
import Libcfd.Origin.Body

/-!
# The streams of an HTTP/2 connection

A request of the edge is told apart by its headers and served by a task of its own, which invokes
one handler and answers on the stream. Whatever the handler, the edge and the connection do, and
wherever the task is aborted, what it has queued is the beginning of a response: one HEADERS frame
first, DATA frames after it, and nothing after END_STREAM (`handleStream_isResponse`).
-/

namespace Libcfd.Edge.H2

open Libcfd.Program Libcfd.Stream Libcfd.Origin Libcfd.Rpc

/-! ## Kinds of streams -/

/-- `INTERNAL_UPGRADE_HEADER`. -/
def internalUpgradeHeader : String := "cf-cloudflared-proxy-connection-upgrade"

/-- `INTERNAL_TCP_SRC_HEADER`. -/
def internalTcpSrcHeader : String := "cf-cloudflared-proxy-src"

def websocketUpgrade : String := "websocket"

def controlStreamUpgrade : String := "control-stream"

def configurationUpdate : String := "update-configuration"

inductive StreamType where
  | http
  | websocket
  | tcp
  | control
  | configuration
  deriving DecidableEq, Repr

def classify (H : Http) (headers : H.HeaderMap) : StreamType :=
  let upgrade := ((H.find headers internalUpgradeHeader).bind H.valueToStr).getD ""
  if upgrade = configurationUpdate then .configuration
  else if upgrade = websocketUpgrade then .websocket
  else if (H.find headers internalTcpSrcHeader).isSome then .tcp
  else if upgrade = controlStreamUpgrade then .control
  else .http

/-! ## Requests of a task -/

/-- A `Response`, with the size hint of its body. -/
structure HintedResponse (H : Http) where
  status : UInt16
  headers : H.HeaderMap
  body : HintedBody

def HintedResponse.toResponse {H : Http} (response : HintedResponse H) : Response H :=
  ⟨response.status, response.headers, response.body.toBody⟩

/-- What the task of a stream asks for besides writing to it; `sendResponse` and `close` are calls
on the stream's sending half. -/
inductive StreamOp (H : Http) (S : Type) where
  -- the handler is invoked, and its outcome waited for
  | http (request : Request H)
  | websocket (request : Request H)
  | tcp (request : Request H)
  | updateConfiguration (version : Int32) (configuration : List UInt8)
  -- `read_to_end` of the request body
  | readToEnd
  | sendResponse (status : UInt16) (headers : H.HeaderMap) (endOfStream : Bool)
  -- `pump`, between the stream and the origin's
  | pump (origin : S)
  | close

def streaming (H : Http) (S : Type) : Signature where
  Op := StreamOp H S
  Reply
    | .http _ => Except String (HintedResponse H)
    | .websocket _ => Except String (WebSocketConnection H S)
    | .tcp _ => Except String S
    | .updateConfiguration .. => UpdateConfigurationResponse
    | .readToEnd => Except Error (List UInt8)
    -- with the text of the error
    | .sendResponse .. => Except String Unit
    | .pump _ => Except Error Unit
    | .close => Unit

/-- A task on an HTTP/2 stream. -/
abbrev Streaming (H : Http) (S : Type) (α : Type) : Type :=
  StreamProgram UInt8 IoError (streaming H S) α

/-- A request of such a task, with its reply. -/
abbrev StreamEvent (H : Http) (S : Type) : Type :=
  Program.Event (signature UInt8 IoError (streaming H S))

/-- `parts` of a request. -/
structure Parts (H : Http) extends RequestParts H where
  method : H.Method

/-- `H2Shared`, as far as the tasks of requests use it, and the crates they use. -/
structure H2Shared (H : Http) where
  -- the handlers that are configured
  websocket : Bool
  tcp : Bool
  codec : TextCodec
  json : SerdeJson
  uri : UriAccess H
  -- `HeaderMap::remove`
  remove : H.HeaderMap → String → H.HeaderMap
  websocketAccept : String → String

structure H2Shared.Lawful {H : Http} (X : H2Shared H) : Prop where
  codec : X.codec.Lawful
  json : X.json.Lawful
  getAll_remove : ∀ headers n name, H.getAll (X.remove headers n) name =
    if n = name then [] else H.getAll headers name

/-! ## Responses -/

/-- HTTP/2 has no 101. -/
def remapStatus (status : UInt16) : UInt16 := if status = 101 then 200 else status

theorem remapStatus_ne (status : UInt16) : remapStatus status ≠ 101 := by
  rw [remapStatus]
  split
  · decide
  · assumption

/-- A panic, which ends the task. -/
def unwrapped {α : Type} : Except Error α :=
  .error (.other "called `Result::unwrap()` on an `Err` value")

section Task

variable {H : Http} {S : Type} (X : H2Shared H)

def writeH2Headers (response : Response H) : Streaming H S (Except Error Unit) :=
  match encodeResponseHeaders H X.codec response with
  | none => .done unwrapped
  | some headers =>
      asking (E := streaming H S) (.sendResponse (remapStatus response.status) headers false) fun
        | .error e => .done (.error (.h2 ("failed to send response headers: " ++ e)))
        | .ok () => .done (.ok ())

/-- The body of a response, to the end of the stream. -/
def writeBody (body : Body) : Streaming H S (Except Error Unit) :=
  (Serve.copy body).run.bind fun
    | .error e => .done (.error (.ofIo e))
    | .ok () => asking (E := streaming H S) .close fun _ => .done (.ok ())

def writeH2Response (response : HintedResponse H) : Streaming H S (Except Error Unit) :=
  if response.body.sizeHint = some 0 then
    match encodeResponseHeaders H X.codec response.toResponse with
    | none => .done unwrapped
    | some headers =>
        asking (E := streaming H S) (.sendResponse (remapStatus response.status) headers true) fun
          | .error e => .done (.error (.h2 e))
          | .ok () => .done (.ok ())
  else
    (writeH2Headers X response.toResponse).bind fun
      | .error e => .done (.error e)
      | .ok () => writeBody response.body.toBody

/-- The headers of an error response; `none` where an `unwrap` panics. -/
def errorHeaders (H : Http) (message : String) : Option H.HeaderMap := do
  let contentType ← H.valueFromStr "text/plain"
  let contentLength ← H.valueFromStr (toString (utf8 message).length)
  let headers := H.insert H.emptyMap (H.nameFromStatic "content-type") contentType
  return H.insert headers (H.nameFromStatic "content-length") contentLength

def errorResponse (message : String) (headers : H.HeaderMap) : HintedResponse H :=
  ⟨502, headers, .fromBytes (utf8 message)⟩

def writeH2Error (message : String) : Streaming H S (Except Error Unit) :=
  match errorHeaders H message with
  | none => .done unwrapped
  | some headers => writeH2Response X (errorResponse message headers)

/-! ## The handlers -/

/-- The request that is made of `parts`, without the internal header. -/
def requestOf (parts : Parts H) (body : RequestBody) : Request H where
  method := parts.method
  uri := parts.uri
  headers := X.remove parts.headers internalUpgradeHeader
  body := body

def handleH2Http (parts : Parts H) : Streaming H S (Except Error Unit) :=
  asking (E := streaming H S) (.http (requestOf X parts .stream)) fun
    | .error message => writeH2Error X message
    | .ok response => writeH2Response X response

def handleH2Websocket (parts : Parts H) : Streaming H S (Except Error Unit) :=
  if X.websocket then
    asking (E := streaming H S) (.websocket (requestOf X parts .empty)) fun
      | .error message => writeH2Error X message
      | .ok connection =>
          (writeH2Headers X connection.response).bind fun
            | .error e => .done (.error e)
            | .ok () => asking (E := streaming H S) (.pump connection.origin) .done
  else writeH2Error X "no websocket origin handler"

/-- What `handle_h2_tcp` asks for, in full. -/
def performTcp : (op : H2Op H S) → Streaming H S ((h2Serving H S).Reply op)
  | .tcp call => asking (E := streaming H S) (.tcp call) .done
  | .writeError message => writeH2Error X message
  | .writeHeaders response => writeH2Headers X response
  | .pump origin => asking (E := streaming H S) (.pump origin) .done

/-- What `handle_h2_configuration` asks for, in full. -/
def performConfiguration : (op : H2StreamOp) → Streaming H S (h2Stream.Reply op)
  | .readToEnd => asking (E := streaming H S) .readToEnd .done
  | .updateConfiguration version configuration =>
      asking (E := streaming H S) (.updateConfiguration version configuration) .done
  | .sendResponse =>
      asking (E := streaming H S) (.sendResponse 200 H.emptyMap false) fun
        | .error e => .done (.error (.h2 e))
        | .ok () => .done (.ok ())
  | .writeAll bytes =>
      (writeAll bytes).run.bind fun
        | .error e => .done (.error (.ofIo e))
        | .ok () => .done (.ok ())
  | .close => asking (E := streaming H S) .close fun _ => .done (.ok ())

def handleStream (parts : Parts H) : Streaming H S (Except Error Unit) :=
  match classify H parts.headers with
  | .http => handleH2Http X parts
  | .websocket => handleH2Websocket X parts
  | .tcp =>
      (handleH2Tcp H X.uri X.websocketAccept X.tcp parts.toRequestParts).handle (performTcp X)
  | .configuration => (handleH2Configuration X.json).handle performConfiguration
  | .control => .done (.ok ())

end Task

/-! ## What a task does on its stream -/

def StreamOp.IsInvocation {H : Http} {S : Type} : StreamOp H S → Prop
  | .http _ | .websocket _ | .tcp _ | .updateConfiguration .. => True
  | _ => False

/-- How far a task has come. -/
inductive Progress where
  | unasked
  -- a handler has been invoked
  | asked
  -- the headers are sent, and the stream goes on
  | streaming
  | ended
  deriving DecidableEq, Repr

/-- One handler, one HEADERS frame, and then what is streamed. -/
def responding (H : Http) (S : Type) : Monitor (signature UInt8 IoError (streaming H S)) where
  State := Progress
  allows
    | _, .pollRead _ => False
    | progress, .pollWrite _ => progress = .streaming
    | progress, .effect (.sendResponse status _ _) =>
        (progress = .unasked ∨ progress = .asked) ∧ status ≠ 101
    | progress, .effect (.pump _) => progress = .streaming
    | progress, .effect .close => progress = .streaming
    | progress, .effect _ => progress = .unasked
  next
    | _, .effect (.sendResponse _ _ endOfStream), .ok () =>
        if endOfStream then .ended else .streaming
    | _, .effect (.sendResponse ..), .error _ => .ended
    | _, .effect (.pump _), _ => .ended
    | _, .effect .close, _ => .ended
    | progress, .effect .readToEnd, _ => progress
    | _, .effect _, _ => .asked
    | progress, .pollRead _, _ => progress
    | progress, .pollWrite _, _ => progress

section Conforms

variable {H : Http} {S : Type} {X : H2Shared H} {progress : Progress}

/-- The headers are still to be sent. -/
def Progress.IsSilent (progress : Progress) : Prop := progress = .unasked ∨ progress = .asked

/-- A task that has failed may be anywhere; one that has not is to go on streaming. -/
def Streams (progress : Progress) (result : Except Error Unit) : Prop :=
  result = .ok () → progress = .streaming

theorem conforms_writing {ε : Type} {w : Streaming H S (Except ε Unit)} (h : Writes w) :
    Conforms (responding H S) .streaming w fun progress _ => progress = .streaming :=
  conforms_of_writes (M := responding H S) (s := .streaming) (fun _ => rfl) (fun _ _ => rfl) h

theorem conforms_writeH2Headers (hsilent : progress.IsSilent) (response : Response H) :
    Conforms (responding H S) progress (writeH2Headers X response) Streams := by
  unfold writeH2Headers
  cases encodeResponseHeaders H X.codec response with
  | none =>
      intro h
      cases h
  | some headers =>
      refine ⟨⟨hsilent, remapStatus_ne _⟩, fun reply => ?_⟩
      cases reply with
      | error e =>
          intro h
          cases h
      | ok => exact fun _ => rfl

theorem conforms_writeBody (body : Body) :
    Conforms (responding H S) .streaming (writeBody body) fun _ _ => True := by
  refine (conforms_writing (Serve.writes_copy body)).bind fun progress result h => ?_
  subst h
  cases result with
  | error e => trivial
  | ok => exact ⟨rfl, fun _ => trivial⟩

theorem conforms_writeH2Response (hsilent : progress.IsSilent) (response : HintedResponse H) :
    Conforms (responding H S) progress (writeH2Response X response) fun _ _ => True := by
  unfold writeH2Response
  split
  · cases encodeResponseHeaders H X.codec response.toResponse with
    | none => trivial
    | some headers =>
        refine ⟨⟨hsilent, remapStatus_ne _⟩, fun reply => ?_⟩
        cases reply with
        | error e => trivial
        | ok => trivial
  · refine (conforms_writeH2Headers hsilent _).bind fun progress result h => ?_
    cases result with
    | error e => trivial
    | ok =>
        obtain rfl := h rfl
        exact conforms_writeBody _

theorem conforms_writeH2Error (hsilent : progress.IsSilent) (message : String) :
    Conforms (responding H S) progress (writeH2Error X message) fun _ _ => True := by
  unfold writeH2Error
  cases errorHeaders H message with
  | none => trivial
  | some headers => exact conforms_writeH2Response hsilent _

/-- Headers, and then the pump. -/
theorem conforms_pump (hsilent : progress.IsSilent) (response : Response H) (origin : S) :
    Conforms (responding H S) progress
      ((writeH2Headers X response).bind fun
        | .error e => .done (.error e)
        | .ok () => asking (E := streaming H S) (.pump origin) .done) fun _ _ => True := by
  refine (conforms_writeH2Headers hsilent response).bind fun progress result h => ?_
  cases result with
  | error e => trivial
  | ok =>
      obtain rfl := h rfl
      exact ⟨rfl, fun _ => trivial⟩

theorem conforms_handleH2Http (parts : Parts H) :
    Conforms (responding H S) .unasked (handleH2Http X parts) fun _ _ => True := by
  refine ⟨rfl, fun answer => ?_⟩
  cases answer with
  | error message => exact conforms_writeH2Error (.inr rfl) message
  | ok response => exact conforms_writeH2Response (.inr rfl) response

theorem conforms_handleH2Websocket (parts : Parts H) :
    Conforms (responding H S) .unasked (handleH2Websocket X parts) fun _ _ => True := by
  unfold handleH2Websocket
  split
  · refine ⟨rfl, fun answer => ?_⟩
    cases answer with
    | error message => exact conforms_writeH2Error (.inr rfl) message
    | ok connection => exact conforms_pump (.inr rfl) _ _
  · exact conforms_writeH2Error (.inl rfl) _

theorem conforms_handleH2Tcp (parts : RequestParts H) :
    Conforms (responding H S) .unasked
      ((handleH2Tcp H X.uri X.websocketAccept X.tcp parts).handle (performTcp X))
      fun _ _ => True := by
  have herror : ∀ {progress : Progress} (message : String), progress.IsSilent →
      Conforms (responding H S) progress
        ((writeH2Error X message).bind fun reply =>
          (Program.done reply : Program (h2Serving H S) _).handle (performTcp X))
        fun _ _ => True :=
    fun message hsilent => (conforms_writeH2Error hsilent message).bind fun _ _ _ => trivial
  unfold handleH2Tcp
  split
  · refine ⟨rfl, fun answer => ?_⟩
    cases answer with
    | error message => exact herror message (.inr rfl)
    | ok origin =>
        cases ackHeaders H X.websocketAccept parts with
        | none => trivial
        | some headers =>
            refine (conforms_writeH2Headers (.inr rfl) _).bind fun progress result h => ?_
            cases result with
            | error e => trivial
            | ok =>
                obtain rfl := h rfl
                exact ⟨rfl, fun _ => trivial⟩
  · exact herror _ (.inl rfl)

theorem conforms_replyOnH2 (hsilent : progress.IsSilent) (response : UpdateConfigurationResponse) :
    Conforms (responding H S) progress
      ((replyOnH2 X.json response).handle (performConfiguration (H := H) (S := S)))
      fun _ _ => True := by
  unfold replyOnH2
  cases X.json.reply response with
  | error e => trivial
  | ok reply =>
      refine ⟨⟨hsilent, by decide⟩, fun sent => ?_⟩
      cases sent with
      | error e => trivial
      | ok =>
          have hwrites := conforms_writing (H := H) (S := S) (Serve.writes_writeAll reply)
          refine (hwrites.bind (R := fun progress _ => progress = Progress.streaming) ?_).bind ?_
          · intro progress result h
            cases result with
            | error e => exact h
            | ok => exact h
          · intro progress result h
            obtain rfl := h
            cases result with
            | error e => trivial
            | ok => exact ⟨rfl, fun _ => trivial⟩

theorem conforms_readToEnd {α : Type} {f : Except Error (List UInt8) → Streaming H S α}
    {Q : Progress → α → Prop} (h : ∀ body, Conforms (responding H S) .unasked (f body) Q) :
    Conforms (responding H S) .unasked ((performConfiguration .readToEnd).bind f) Q :=
  ⟨rfl, h⟩

theorem conforms_updateConfiguration {α : Type} {version : Int32} {configuration : List UInt8}
    {f : UpdateConfigurationResponse → Streaming H S α} {Q : Progress → α → Prop}
    (h : ∀ response, Conforms (responding H S) .asked (f response) Q) :
    Conforms (responding H S) .unasked
      ((performConfiguration (.updateConfiguration version configuration)).bind f) Q :=
  ⟨rfl, h⟩

theorem conforms_handleH2Configuration :
    Conforms (responding H S) .unasked
      ((handleH2Configuration X.json).handle (performConfiguration (H := H) (S := S)))
      fun _ _ => True := by
  refine conforms_readToEnd fun body => ?_
  cases body with
  | error e => trivial
  | ok data =>
      dsimp only
      cases X.json.configurationUpdateBody data with
      | error e => exact conforms_replyOnH2 (.inl rfl) _
      | ok update =>
          obtain ⟨version, value⟩ := update
          dsimp only
          cases X.json.toVec value with
          | error e => trivial
          | ok configuration =>
              exact conforms_updateConfiguration fun response =>
                conforms_replyOnH2 (.inr rfl) response

theorem conforms_handleStream (parts : Parts H) :
    Conforms (responding H S) .unasked (handleStream X parts) fun _ _ => True := by
  unfold handleStream
  cases classify H parts.headers with
  | http => exact conforms_handleH2Http parts
  | websocket => exact conforms_handleH2Websocket parts
  | tcp => exact conforms_handleH2Tcp parts.toRequestParts
  | configuration => exact conforms_handleH2Configuration
  | control => trivial

end Conforms

/-! ## What is queued for the edge -/

inductive H2Frame (H : Http) where
  | headers (status : UInt16) (headers : H.HeaderMap) (endOfStream : Bool)
  | data (bytes : List UInt8) (endOfStream : Bool)

/-- `SendResponse`, and the sending half it gives. -/
structure RespondSide (H : Http) (S : Type) extends SendSide S where
  sendResponse : UInt16 → H.HeaderMap → (endOfStream : Bool) → S → Except String Unit × S

/-- The sending half beside the frames it has queued. -/
def RespondSide.recording {H : Http} {S : Type} (F : RespondSide H S) :
    SendSide (S × List (H2Frame H)) where
  capacity s := ((F.capacity s.1).1, (F.capacity s.1).2, s.2)
  reserveCapacity n s := (F.reserveCapacity n s.1, s.2)
  pollCapacity s := ((F.pollCapacity s.1).1, (F.pollCapacity s.1).2, s.2)
  sendData data endOfStream s :=
    ((F.sendData data endOfStream s.1).1, (F.sendData data endOfStream s.1).2,
      if (F.sendData data endOfStream s.1).1.isOk then s.2 ++ [.data data endOfStream] else s.2)

/-- The writer of a stream, from the request on: nothing is written to it before the headers are
sent. -/
abbrev Outgoing (H : Http) (S : Type) : Type := SendStreamWriter (S × List (H2Frame H))

def Outgoing.start {H : Http} {S : Type} (send : S) : Outgoing H S := .new (send, [])

/-- The frames queued. -/
def SendStreamWriter.queued {H : Http} {S : Type} (w : Outgoing H S) : List (H2Frame H) := w.send.2

/-- A call of `pump` on the writer. -/
inductive WriterCall where
  | write (buffer : List UInt8)
  | flush
  | close

section Queue

variable {H : Http} {S S' : Type} (F : RespondSide H S)

def SendStreamWriter.call (w : Outgoing H S) : WriterCall → Outgoing H S
  | .write buffer => (w.pollWrite F.recording buffer).2
  | .flush => w
  | .close => w.pollClose F.recording

/-- A write is polled until it is ready. -/
inductive WritesTo (buffer : List UInt8) :
    Outgoing H S → Except WriteError Nat → Outgoing H S → Prop
  | ready {w w' : Outgoing H S} {result : Except WriteError Nat}
      (h : w.pollWrite F.recording buffer = (some result, w')) : WritesTo buffer w result w'
  | pending {w w' w'' : Outgoing H S} {result : Except WriteError Nat}
      (h : w.pollWrite F.recording buffer = (none, w')) (hrest : WritesTo buffer w' result w'') :
      WritesTo buffer w result w''

/-- The reply is the result, an error by its message. -/
def IsReplyOf {buffer : List UInt8} (result : Except WriteError Nat) :
    Except IoError { n : Nat // n ≤ buffer.length } → Prop
  | .ok n => result = .ok n.val
  | .error e => ∃ kind, result = .error ⟨kind, e.message⟩

/-- What the requests of a task do to its stream. -/
def Queues (w : Outgoing H S) : StreamEvent H S' → Outgoing H S → Prop
  | ⟨.pollWrite buffer, reply⟩, w' =>
      ∃ result, WritesTo F buffer w result w' ∧ IsReplyOf result reply
  | ⟨.effect (.sendResponse status headers endOfStream), reply⟩, w' =>
      (F.sendResponse status headers endOfStream w.send.1).1 = reply ∧
        w' = { w with
          send := ((F.sendResponse status headers endOfStream w.send.1).2,
            if reply.isOk then w.queued ++ [.headers status headers endOfStream] else w.queued) }
  | ⟨.effect (.pump _), _⟩, w' =>
      ∃ calls : List WriterCall, w' = calls.foldl (SendStreamWriter.call F) w
  | ⟨.effect .close, _⟩, w' => w' = w.pollClose F.recording
  | ⟨.effect _, _⟩, w' => w' = w
  | ⟨.pollRead _, _⟩, w' => w' = w

end Queue

/-! ### Responses -/

section Response

variable {H : Http} {S S' : Type} {F : RespondSide H S} {w w' : Outgoing H S}

/-- A HEADERS frame that does not end the stream, and what was queued behind it. -/
def begun (status : UInt16) (headers : H.HeaderMap) (pieces : List (List UInt8)) :
    List (H2Frame H) :=
  .headers status headers false :: pieces.map fun piece => .data piece false

/-- The frames of a response, or the first of them. -/
inductive IsResponse : List (H2Frame H) → Prop
  | nothing : IsResponse []
  | whole {status : UInt16} {headers : H.HeaderMap} (h : status ≠ 101) :
      IsResponse [.headers status headers true]
  | streamed {status : UInt16} {headers : H.HeaderMap} (h : status ≠ 101)
      (pieces : List (List UInt8)) : IsResponse (begun status headers pieces)
  | ended {status : UInt16} {headers : H.HeaderMap} (h : status ≠ 101)
      (pieces : List (List UInt8)) :
      IsResponse (begun status headers pieces ++ [.data [] true])

/-- A writer that is open has a response to go on with; one that is closed may have ended it. -/
inductive IsWriting : Outgoing H S → Prop
  | opened {w : Outgoing H S} {status : UInt16} {headers : H.HeaderMap} (h : status ≠ 101)
      (pieces : List (List UInt8)) (hclosed : w.closed = false)
      (hqueued : w.queued = begun status headers pieces) : IsWriting w
  | closed {w : Outgoing H S} (hclosed : w.closed = true) (hqueued : IsResponse w.queued) :
      IsWriting w

theorem IsWriting.isResponse (h : IsWriting w) : IsResponse w.queued := by
  cases h with
  | opened h pieces hclosed hqueued =>
      rw [hqueued]
      exact .streamed h pieces
  | closed hclosed hqueued => exact hqueued

/-- Of the calls on the sending half, waiting for capacity queues nothing. -/
theorem waitCapacity_queued (length : Nat) (w : Outgoing H S) :
    (w.waitCapacity F.recording length).2.queued = w.queued ∧
      (w.waitCapacity F.recording length).2.closed = w.closed := by
  unfold SendStreamWriter.waitCapacity RespondSide.recording
  rcases hpoll : F.pollCapacity (F.reserveCapacity length (F.capacity w.send.1).2) with
    ⟨result, send⟩
  simp only [hpoll]
  split
  · cases result <;> exact ⟨rfl, rfl⟩
  · exact ⟨rfl, rfl⟩

theorem sendData_queued (data : List UInt8) (endOfStream : Bool) (w : Outgoing H S) :
    (w.sendData F.recording data endOfStream).2.closed = w.closed ∧
      (w.sendData F.recording data endOfStream).2.queued =
        if (w.sendData F.recording data endOfStream).1.isOk
        then w.queued ++ [.data data endOfStream] else w.queued := by
  unfold SendStreamWriter.sendData RespondSide.recording
  rcases hsent : F.sendData data endOfStream w.send.1 with ⟨result, send⟩
  simp only [hsent]
  cases result with
  | ok => exact ⟨rfl, rfl⟩
  | error e => exact ⟨rfl, rfl⟩

/-- What a call for writing returns says what it has queued. -/
def Queued (buffer : List UInt8) (w : Outgoing H S) : Written × Outgoing H S → Prop
  | (some (.ok n), w') => w'.closed = w.closed ∧
      (buffer = [] ∧ n = 0 ∧ w'.queued = w.queued ∨
        w.closed = false ∧ n ≤ buffer.length ∧
          w'.queued = w.queued ++ [.data (buffer.take n) false])
  | (some (.error _), w') => w'.closed = w.closed ∧ w'.queued = w.queued
  | (none, w') => w'.closed = w.closed ∧ w'.queued = w.queued

theorem Queued.of_eq {buffer : List UInt8} {cut : Outgoing H S} {result : Written × Outgoing H S}
    (h : Queued buffer cut result) (hclosed : cut.closed = w.closed)
    (hqueued : cut.queued = w.queued) : Queued buffer w result := by
  obtain ⟨written, w'⟩ := result
  unfold Queued at h ⊢
  rw [← hclosed, ← hqueued]
  exact h

theorem sendPart_queued (buffer : List UInt8) {cut : Outgoing H S} (hopen : cut.closed = false) :
    Queued buffer cut (cut.sendPart F.recording buffer) := by
  unfold SendStreamWriter.sendPart
  dsimp only
  generalize hn : min buffer.length (F.recording.capacity cut.send).1 = n
  have hsent := sendData_queued (F := F) (buffer.take n) false
    { cut with send := (F.recording.capacity cut.send).2 }
  rcases hdata : SendStreamWriter.sendData F.recording (buffer.take n) false
    { cut with send := (F.recording.capacity cut.send).2 } with ⟨⟨e⟩ | ⟨⟩, w'⟩
  · rw [hdata] at hsent
    exact hsent
  · rw [hdata] at hsent
    refine ⟨hsent.1, .inr ⟨hopen, ?_, hsent.2⟩⟩
    rw [← hn]
    exact Nat.min_le_left _ _

theorem pollWrite_queued (buffer : List UInt8) (w : Outgoing H S) :
    Queued buffer w (w.pollWrite F.recording buffer) := by
  unfold SendStreamWriter.pollWrite
  by_cases hclosed : w.closed = true
  · rw [if_pos hclosed]
    exact ⟨rfl, rfl⟩
  by_cases hempty : buffer = []
  · rw [if_neg hclosed, if_pos hempty]
    exact ⟨rfl, .inl ⟨hempty, rfl, rfl⟩⟩
  rw [if_neg hclosed, if_neg hempty]
  obtain ⟨hqueued, hkept⟩ := waitCapacity_queued (F := F) buffer.length w
  rcases hwait : w.waitCapacity F.recording buffer.length with ⟨_ | e | _, cut⟩
  · rw [hwait] at hqueued hkept
    exact ⟨hkept, hqueued⟩
  · rw [hwait] at hqueued hkept
    exact ⟨hkept, hqueued⟩
  · rw [hwait] at hqueued hkept
    have hopen : cut.closed = false := by
      rw [hkept]
      exact Bool.eq_false_of_not_eq_true hclosed
    exact (sendPart_queued buffer hopen).of_eq hkept hqueued

/-! ### What keeps a response a response -/

theorem begun_concat (status : UInt16) (headers : H.HeaderMap) (pieces : List (List UInt8))
    (piece : List UInt8) : begun status headers pieces ++ [.data piece false] =
      begun status headers (pieces ++ [piece]) := by
  rw [begun, begun, List.map_append, List.cons_append]
  rfl

theorem IsWriting.of_queued {buffer : List UInt8} {result : Written × Outgoing H S}
    (h : IsWriting w) (hqueued : Queued buffer w result) : IsWriting result.2 := by
  obtain ⟨written, w'⟩ := result
  have hsame : w'.closed = w.closed → w'.queued = w.queued → IsWriting w' := by
    intro hclosed hqueued
    cases h with
    | opened h pieces hopen hbegun =>
        exact .opened h pieces (hclosed.trans hopen) (hqueued.trans hbegun)
    | closed hover hresponse =>
        refine .closed (hclosed.trans hover) ?_
        rw [hqueued]
        exact hresponse
  match written, hqueued with
  | none, hqueued => exact hsame hqueued.1 hqueued.2
  | some (.error e), hqueued => exact hsame hqueued.1 hqueued.2
  | some (.ok n), ⟨hclosed, .inl ⟨_, _, hqueued⟩⟩ => exact hsame hclosed hqueued
  | some (.ok n), ⟨hclosed, .inr ⟨hopen, _, hqueued⟩⟩ =>
      cases h with
      | closed hover _ =>
          rw [hopen] at hover
          cases hover
      | opened h pieces _ hbegun =>
          rw [hbegun, begun_concat] at hqueued
          exact .opened h (pieces ++ [buffer.take n]) (hclosed.trans hopen) hqueued

theorem IsWriting.pollClose (h : IsWriting w) : IsWriting (w.pollClose F.recording) := by
  unfold SendStreamWriter.pollClose
  cases h with
  | closed hclosed hqueued =>
      rw [if_pos hclosed]
      exact .closed hclosed hqueued
  | @opened status headers h pieces hclosed hqueued =>
      rw [if_neg (by rw [hclosed]; exact Bool.false_ne_true)]
      obtain ⟨hover, hsent⟩ := sendData_queued (F := F) [] true { w with closed := true }
      refine .closed hover ?_
      rw [hsent]
      split
      · show IsResponse (w.queued ++ [.data [] true])
        rw [hqueued]
        exact .ended h pieces
      · show IsResponse w.queued
        rw [hqueued]
        exact .streamed h pieces

theorem IsWriting.call (h : IsWriting w) (c : WriterCall) : IsWriting (w.call F c) := by
  cases c with
  | write buffer => exact h.of_queued (pollWrite_queued buffer w)
  | flush => exact h
  | close => exact h.pollClose

theorem IsWriting.calls (h : IsWriting w) (calls : List WriterCall) :
    IsWriting (calls.foldl (SendStreamWriter.call F) w) := by
  induction calls generalizing w with
  | nil => exact h
  | cons c calls ih => exact ih (h.call c)

/-- Polling until the write is ready queues what the last poll says. -/
theorem WritesTo.queued {buffer : List UInt8} {result : Except WriteError Nat}
    (h : WritesTo F buffer w result w') : Queued buffer w (some result, w') := by
  induction h with
  | @ready w w' result h =>
      have hqueued := pollWrite_queued (F := F) buffer w
      rw [h] at hqueued
      exact hqueued
  | @pending w w' w'' result h _ ih =>
      have hqueued := pollWrite_queued (F := F) buffer w
      rw [h] at hqueued
      exact ih.of_eq hqueued.1 hqueued.2

/-- What is queued when a task has come so far. -/
def Progress.Describes : Progress → Outgoing H S → Prop
  | .unasked, w | .asked, w => w.closed = false ∧ w.queued = []
  | .streaming, w => w.closed = false ∧ ∃ status headers pieces, status ≠ 101 ∧
      w.queued = begun status headers pieces
  | .ended, w => IsResponse w.queued

theorem Progress.Describes.isResponse {progress : Progress} (h : progress.Describes w) :
    IsResponse w.queued := by
  cases progress with
  | unasked =>
      rw [h.2]
      exact .nothing
  | asked =>
      rw [h.2]
      exact .nothing
  | streaming =>
      obtain ⟨_, status, headers, pieces, hstatus, hqueued⟩ := h
      rw [hqueued]
      exact .streamed hstatus pieces
  | ended => exact h

theorem Progress.Describes.isWriting (h : Progress.streaming.Describes w) : IsWriting w := by
  obtain ⟨hclosed, status, headers, pieces, hstatus, hqueued⟩ := h
  exact .opened hstatus pieces hclosed hqueued

/-- A request that is allowed keeps what is queued as described. -/
theorem describes_step {progress : Progress} {op : Op UInt8 (streaming H S')}
    {reply : (signature UInt8 IoError (streaming H S')).Reply op}
    (hallowed : (responding H S').allows progress op) (hqueues : Queues F w ⟨op, reply⟩ w')
    (h : progress.Describes w) :
    Progress.Describes ((responding H S').next progress op reply) w' := by
  cases op with
  | pollRead room => exact hallowed.elim
  | pollWrite buffer =>
      obtain rfl : progress = .streaming := hallowed
      obtain ⟨result, hwrites, -⟩ := hqueues
      have hqueued := hwrites.queued
      have hclosed : w'.closed = false := by
        cases result with
        | ok n => exact hqueued.1.trans h.1
        | error e => exact hqueued.1.trans h.1
      refine ⟨hclosed, ?_⟩
      cases h.isWriting.of_queued hqueued with
      | closed hover _ =>
          rw [show w'.closed = false from hclosed] at hover
          cases hover
      | opened hstatus pieces _ hbegun => exact ⟨_, _, pieces, hstatus, hbegun⟩
  | effect op =>
      cases op with
      | sendResponse status headers endOfStream =>
          obtain ⟨hsilent, hstatus⟩ := hallowed
          have hnothing : w.closed = false ∧ w.queued = [] := by
            rcases hsilent with rfl | rfl
            · exact h
            · exact h
          obtain ⟨hreply, rfl⟩ := hqueues
          cases reply with
          | error e =>
              show IsResponse w.queued
              rw [hnothing.2]
              exact .nothing
          | ok =>
              cases endOfStream with
              | true =>
                  show IsResponse (w.queued ++ [.headers status headers true])
                  rw [hnothing.2]
                  exact .whole hstatus
              | false =>
                  refine ⟨hnothing.1, status, headers, [], hstatus, ?_⟩
                  show w.queued ++ [.headers status headers false] = _
                  rw [hnothing.2]
                  rfl
      | pump origin =>
          obtain rfl : progress = .streaming := hallowed
          obtain ⟨calls, rfl⟩ := hqueues
          exact (h.isWriting.calls calls).isResponse
      | close =>
          obtain rfl : progress = .streaming := hallowed
          obtain rfl : w' = _ := hqueues
          exact h.isWriting.pollClose.isResponse
      | readToEnd =>
          obtain rfl : w' = _ := hqueues
          exact h
      | http call =>
          obtain rfl : progress = .unasked := hallowed
          obtain rfl : w' = _ := hqueues
          exact h
      | websocket call =>
          obtain rfl : progress = .unasked := hallowed
          obtain rfl : w' = _ := hqueues
          exact h
      | tcp call =>
          obtain rfl : progress = .unasked := hallowed
          obtain rfl : w' = _ := hqueues
          exact h
      | updateConfiguration version configuration =>
          obtain rfl : progress = .unasked := hallowed
          obtain rfl : w' = _ := hqueues
          exact h

end Response

/-! ## Every task -/

section Every

variable {H : Http} {S S' : Type} {X : H2Shared H} {F : RespondSide H S}

/-- Nothing but reading the body leaves a task where it has asked for nothing. -/
theorem eq_readToEnd_of_next {progress : Progress} {op : Op UInt8 (streaming H S')}
    {reply : (signature UInt8 IoError (streaming H S')).Reply op}
    (hallowed : (responding H S').allows progress op)
    (h : (responding H S').next progress op reply = Progress.unasked) :
    progress = .unasked ∧ op = .effect .readToEnd := by
  cases op with
  | pollRead room => exact hallowed.elim
  | pollWrite buffer =>
      obtain rfl : progress = .streaming := hallowed
      cases h
  | effect op =>
      cases op with
      | readToEnd => exact ⟨h, rfl⟩
      | sendResponse status headers endOfStream =>
          cases reply with
          | error e => cases h
          | ok => cases endOfStream <;> cases h
      | http call => cases h
      | websocket call => cases h
      | tcp call => cases h
      | updateConfiguration version configuration => cases h
      | pump origin => cases h
      | close => cases h

theorem only_readToEnd {progress : Progress}
    {first : List (StreamEvent H S')}
    (h : (responding H S').Admits progress first)
    (hafter : (responding H S').after progress first = Progress.unasked) :
    progress = .unasked ∧ ∀ event ∈ first, event.1 = .effect .readToEnd := by
  induction first generalizing progress with
  | nil => exact ⟨hafter, List.forall_mem_nil _⟩
  | cons event first ih =>
      obtain ⟨op, reply⟩ := event
      obtain ⟨hnext, hrest⟩ := ih h.2 hafter
      obtain ⟨hprogress, hop⟩ := eq_readToEnd_of_next h.1 hnext
      exact ⟨hprogress, List.forall_mem_cons.mpr ⟨hop, hrest⟩⟩

/-- A handler is invoked before anything else is asked for but the request body. -/
theorem readToEnd_of_invocation {parts : Parts H} {trace : List (StreamEvent H S')}
    {q : Streaming H S' (Except Error Unit)} (hruns : Runs (handleStream X parts) trace q) :
    ∀ first op reply rest, trace = first ++ ⟨.effect op, reply⟩ :: rest → op.IsInvocation →
      ∀ event ∈ first, event.1 = .effect .readToEnd := by
  have hadmits := ((conforms_handleStream parts).of_runs hruns).1
  rintro first op reply rest rfl hinvocation
  obtain ⟨hfirst, hallowed, -⟩ := Monitor.admits_append_iff.mp hadmits
  have hunasked : (responding H S').after Progress.unasked first = Progress.unasked := by
    cases op with
    | http call => exact hallowed
    | websocket call => exact hallowed
    | tcp call => exact hallowed
    | updateConfiguration version configuration => exact hallowed
    | readToEnd => exact hinvocation.elim
    | sendResponse status headers endOfStream => exact hinvocation.elim
    | pump origin => exact hinvocation.elim
    | close => exact hinvocation.elim
  exact (only_readToEnd hfirst hunasked).2

/-- **What a task has queued is a response, or the beginning of one**, wherever the task is aborted;
and a handler is invoked before anything else is asked for but the request body, so that only one
is. -/
theorem handleStream_isResponse (parts : Parts H) {send : S} {w : Outgoing H S}
    {trace : List (StreamEvent H S')}
    {q : Streaming H S' (Except Error Unit)} (hruns : Runs (handleStream X parts) trace q)
    (hqueues : Leads (Queues F) (.start send) trace w) :
    IsResponse w.queued ∧
      ∀ first op reply rest, trace = first ++ ⟨.effect op, reply⟩ :: rest → op.IsInvocation →
        ∀ event ∈ first, event.1 = .effect .readToEnd := by
  have hadmits := ((conforms_handleStream parts).of_runs hruns).1
  have hstart : Progress.unasked.Describes (.start (H := H) send) := ⟨rfl, rfl⟩
  refine ⟨?_, readToEnd_of_invocation hruns⟩
  exact (hadmits.keeps (R := Progress.Describes)
    (fun _ _ _ _ _ hallowed hqueues h => describes_step hallowed hqueues h) hqueues
    hstart).isResponse

end Every

/-! ### An empty response -/

/-- No websocket and no TCP handler. -/
def plainShared : H2Shared Http.ofLists where
  websocket := false
  tcp := false
  codec := .standardNoPad
  json := sampleJson
  uri := .ofLists
  remove headers name := headers.filter fun header => header.1 ≠ name
  websocketAccept := id

/-- A connection that takes whatever it is given. -/
def openSide (H : Http) : RespondSide H Unit where
  capacity s := (65535, s)
  reserveCapacity _ s := s
  pollCapacity s := (.assigned 65535, s)
  sendData _ _ s := (.ok (), s)
  sendResponse _ _ _ s := (.ok (), s)

def plainParts : Parts Http.ofLists := ⟨⟨[], "http://a/"⟩, [71, 69, 84]⟩

/-- What is sent of an empty response. -/
def metadataOnly : List (String × Http.ofLists.HeaderValue) :=
  [(responseMetadataHeader, ⟨utf8 responseMetadataOrigin, List.all_iff_forall_prop.mp (by decide)⟩)]

def noContent : StreamEvent Http.ofLists Unit :=
  ⟨.effect (.http ⟨[71, 69, 84], "http://a/", [], .stream⟩),
    (.ok ⟨204, [], .empty⟩ : Except String (HintedResponse Http.ofLists))⟩

def headersSent : StreamEvent Http.ofLists Unit :=
  ⟨.effect (.sendResponse 204 metadataOnly true), (.ok () : Except String Unit)⟩

theorem runs_noContent :
    Runs (handleStream (S := Unit) plainShared plainParts) [noContent, headersSent]
      (.done (.ok ())) := by
  refine .cons _ ?_
  exact .cons _ (.nil _)

theorem handleStream_isResponse_empty :
    ∃ w : Outgoing Http.ofLists Unit,
      Leads (Queues (openSide Http.ofLists)) (.start ()) [noContent, headersSent] w ∧
        IsResponse w.queued := by
  have hasked : Queues (openSide Http.ofLists) (.start ()) noContent (.start ()) := rfl
  have hsent : Queues (openSide Http.ofLists) (.start ()) headersSent
      ⟨((), [.headers 204 metadataOnly true]), false, []⟩ := ⟨rfl, rfl⟩
  have hqueues := Leads.cons hasked (Leads.cons hsent (Leads.nil _))
  exact ⟨_, hqueues, (handleStream_isResponse plainParts runs_noContent hqueues).1⟩

end Libcfd.Edge.H2
