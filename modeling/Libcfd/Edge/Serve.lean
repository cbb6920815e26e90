import Libcfd.Edge.Control
import Libcfd.Edge.Metadata
import Libcfd.Foundation.Polls

/-!
# Serving a QUIC stream

`serve_stream` reads a signature, a version and a framed request off the stream, hands the rest of
it to an origin, and writes a signature, a version and a framed response before whatever the origin
has to say. Reading the opening is a program of its own (`openStream`): it ends exactly where the
body begins, and everything else happens after it.

What the origin and the transport do is asked for; only the handler of an HTTP request is a program
on the stream itself, as it reads the body before it answers.
-/

namespace Libcfd.Edge

open Libcfd.Rpc Libcfd.Origin Libcfd.Stream

/-- `Error::Edge(edge::Error::Io(..))`, by its message: how a `read_exact`, a `write_all` or a `copy`
of the `futures` crate fails. -/
def Error.ofIo : RpcError → Error
  | .io error => .other ("io error: " ++ error.message)
  | .eof => .other "io error: unexpected end of file"
  | _ => .other "io error: write zero"

namespace Serve

/-! ## Origins -/

/-- What a stream task asks for: the stream of an origin is known by its name. -/
inductive ServeOp (H : Http) (S : Type) where
  -- the handler is invoked
  | http (request : Request H)
  | websocket (request : Request H)
  | tcp (request : Request H)
  -- `pump`, between the stream and the origin's
  | pump (origin : S)
  -- `handle_rpc_stream`
  | serveRpc
  | cancelWrite
  | finish
  | drainUnread

def ServeOp.IsInvocation {H : Http} {S : Type} : ServeOp H S → Prop
  | .http _ | .websocket _ | .tcp _ => True
  | _ => False

def serving (H : Http) (S : Type) : Signature where
  Op := ServeOp H S
  Reply
    | .http _ => Unit
    -- `wait_outcome`
    | .websocket _ => Except String (WebSocketConnection H S)
    | .tcp _ => Except String S
    | .pump _ => Except Error Unit
    | .serveRpc => Except Error Unit
    | .cancelWrite | .finish | .drainUnread => Unit

/-- A task on a QUIC stream. -/
abbrev Serving (H : Http) (S : Type) (α : Type) : Type :=
  StreamProgram UInt8 IoError (serving H S) α

/-- `Origin`; the websocket and TCP handlers may be missing. -/
structure Origin (H : Http) (S : Type) where
  -- what the handler does with the stream before it answers, and its answer
  http : Request H → Serving H S (Except String (Response H))
  http_reads : ∀ request, Makes Op.IsRead (http request)
  websocket : Bool
  tcp : Bool

/-- The handler of the connection type is configured. -/
def Origin.Handles {H : Http} {S : Type} (origin : Origin H S) : ConnectionType → Prop
  | .http => True
  | .websocket => origin.websocket = true
  | .tcp => origin.tcp = true

section Task

variable {H : Http} {S : Type} {T : SegmentTable} (C : QuicCapnp T)

/-- `?` on what the RPC crate or a reader or writer returns. -/
def question {α β : Type} (convert : RpcError → Error) (p : Io (serving H S) α)
    (f : α → Serving H S (Except Error β)) : Serving H S (Except Error β) :=
  p.run.bind fun
    | .ok a => f a
    | .error e => .done (.error (convert e))

/-! ## The opening -/

inductive Opened where
  -- the RPC signature
  | rpc
  | data (connect : ConnectRequest)

/-- `serve_stream` up to the dispatch. -/
def openStream (id : Nat) : Serving H S (Except Error Opened) :=
  question .ofIo (readExact 6) fun signature =>
    if signature = rpcStreamProtocolSignature then .done (.ok .rpc)
    else if signature ≠ dataStreamProtocolSignature then
      .done (.error (.quic ("stream " ++ toString id ++ " has no data-stream signature")))
    else
      question .ofIo (readExact 2) fun version =>
        if version ≠ protocolV1 then
          .done (.error (.quic ("stream " ++ toString id ++ " has unsupported protocol version")))
        else question .ofRpc (readConnectRequest C) fun connect => .done (.ok (.data connect))

/-! ## The reply -/

def writeResponsePreamble (response : ConnectResponse) : Serving H S (Except Error Unit) :=
  question .ofIo (writeAll dataStreamProtocolSignature) fun _ =>
    question .ofIo (writeAll protocolV1) fun _ =>
      question .ofRpc (writeConnectResponse C response) fun _ => .done (.ok ())

def streamError (message : String) : ConnectResponse := ⟨message, [(httpStatusKey, "502")]⟩

def writeStreamError (message : String) : Serving H S (Except Error Unit) :=
  (writeResponsePreamble C (streamError message)).bind fun
    | .ok () => asking .cancelWrite fun _ => .done (.ok ())
    | .error e => .done (.error e)

/-- `futures_util::io::copy`, from a body to the stream. -/
def copyPieces {E : Signature} : List (List UInt8) → Io E Unit
  | [] => pure ()
  | piece :: pieces => do
      writeAll piece
      copyPieces pieces

def copy {E : Signature} (body : Body) : Io E Unit := do
  copyPieces body.pieces
  match body.ending with
  | .ok () => pure ()
  | .error e => liftM (Except.error (RpcError.io e) : Except RpcError Unit)

/-! ## The handlers -/

/-- The response that goes ahead of a body or a stream. -/
def success (response : Response H) : ConnectResponse := ⟨"", encodeResponseMetadata H response⟩

/-- `handle_quic_http` once the handler has answered. -/
def respondHttp : Except String (Response H) → Serving H S (Except Error Unit)
  | .error message => writeStreamError C message
  | .ok response =>
      (writeResponsePreamble C (success response)).bind fun
        | .error e => asking .cancelWrite fun _ => .done (.error e)
        | .ok () =>
            (copy response.body).run.bind fun
              | .error e => asking .cancelWrite fun _ => .done (.error (.ofIo e))
              | .ok () => asking .drainUnread fun _ => asking .finish fun _ => .done (.ok ())

/-- `handle_quic_websocket` and `handle_quic_tcp` once the handler has answered, with the response
that goes ahead of the stream. -/
def respondStream : Except String (ConnectResponse × S) → Serving H S (Except Error Unit)
  | .error message => writeStreamError C message
  | .ok (response, stream) =>
      (writeResponsePreamble C response).bind fun
        | .error e => .done (.error e)
        | .ok () => asking (.pump stream) .done

def handleQuicHttp (origin : Origin H S) (connect : ConnectRequest) :
    Serving H S (Except Error Unit) :=
  match buildRequest H connect with
  | .error e => .done (.error e)
  | .ok request =>
      let request := { request with body := .stream }
      asking (.http request) fun _ => (origin.http request).bind (respondHttp C)

def handleQuicWebsocket (origin : Origin H S) (connect : ConnectRequest) :
    Serving H S (Except Error Unit) :=
  if origin.websocket then
    match buildRequest H connect with
    | .error e => .done (.error e)
    | .ok request =>
        asking (.websocket request) fun answer =>
          respondStream C (answer.map fun connection =>
            (success connection.response, connection.origin))
  else writeStreamError C "no websocket origin handler"

def handleQuicTcp (origin : Origin H S) (connect : ConnectRequest) :
    Serving H S (Except Error Unit) :=
  if origin.tcp then
    asking (.tcp (.tcp H connect.destination)) fun answer =>
      respondStream C (answer.map fun stream => (⟨"", []⟩, stream))
  else writeStreamError C "no tcp origin handler"

def handleData (origin : Origin H S) (connect : ConnectRequest) : Serving H S (Except Error Unit) :=
  match connect.connectionType with
  | .http => handleQuicHttp C origin connect
  | .websocket => handleQuicWebsocket C origin connect
  | .tcp => handleQuicTcp C origin connect

def serveStream (origin : Origin H S) (id : Nat) : Serving H S (Except Error Unit) :=
  (openStream C id).bind fun
    | .error e => .done (.error e)
    | .ok .rpc => asking .serveRpc .done
    | .ok (.data connect) => handleData C origin connect

end Task

end Serve

end Libcfd.Edge
