import Libcfd.Rpc.Framing
import Libcfd.Rpc.Schema

/-!
# The QUIC per-stream metadata protocol

A data stream starts with a signature, a version and a framed `ConnectRequest`; the reply starts
likewise, with a framed `ConnectResponse`. The `capnp` crate is a parameter, as far as these two
messages need it.
-/

namespace Libcfd.Rpc

open Libcfd.Stream

/-- `DATA_STREAM_PROTOCOL_SIGNATURE`. -/
def dataStreamProtocolSignature : List UInt8 := [0x0A, 0x36, 0xCD, 0x12, 0xA1, 0x3E]

/-- `RPC_STREAM_PROTOCOL_SIGNATURE`. -/
def rpcStreamProtocolSignature : List UInt8 := [0x52, 0xBB, 0x82, 0x5C, 0xDB, 0x65]

/-- `PROTOCOL_V1`, "01". -/
def protocolV1 : List UInt8 := [0x30, 0x31]

def httpMethodKey : String := "HttpMethod"

def httpHostKey : String := "HttpHost"

def httpStatusKey : String := "HttpStatus"

inductive ConnectionType where
  | http
  | websocket
  | tcp
  deriving DecidableEq, Repr

structure ConnectRequest where
  destination : String
  connectionType : ConnectionType
  metadata : List (String × String)
  deriving DecidableEq

structure ConnectResponse where
  -- empty on success
  error : String
  metadata : List (String × String)
  deriving DecidableEq

/-! ## Builders and readers -/

/-- What `encode_connect_response` sets: an error that is empty stays a null pointer. -/
structure ConnectResponseBuilder where
  error : Option String
  metadata : List (String × String)
  deriving DecidableEq

def encodeConnectResponse (response : ConnectResponse) : ConnectResponseBuilder where
  error := if response.error.isEmpty then none else some response.error
  metadata := response.metadata

structure MetadataReader where
  key : TextReader
  val : TextReader

structure ConnectRequestReader where
  dest : TextReader
  type : Except NotInSchema ConnectionType
  metadata : Except CapnpError (List MetadataReader)

structure ConnectResponseReader where
  error : TextReader
  metadata : Except CapnpError (List MetadataReader)

/-- The `capnp` crate: `serialize_message` of what `encode_connect_request` and
`encode_connect_response` build, and `get_root`. -/
structure QuicCapnp (T : SegmentTable) where
  serializeRequest : ConnectRequest → List UInt8
  serializeResponse : ConnectResponseBuilder → List UInt8
  getRequest : T.OwnedSegments → Except CapnpError ConnectRequestReader
  getResponse : T.OwnedSegments → Except CapnpError ConnectResponseReader

def metadataReader (entry : String × String) : MetadataReader := ⟨.ok (.ok entry.1), .ok (.ok entry.2)⟩

/-- The reader of a request as it was built. -/
def requestReader (request : ConnectRequest) : ConnectRequestReader where
  dest := .ok (.ok request.destination)
  type := .ok request.connectionType
  metadata := .ok (request.metadata.map metadataReader)

/-- The reader of a response as it was built; a null text is an empty one. -/
def responseReader (response : ConnectResponseBuilder) : ConnectResponseReader where
  error := .ok (.ok (response.error.getD ""))
  metadata := .ok (response.metadata.map metadataReader)

/-- Reading a built message returns what was set. -/
structure QuicCapnp.Lawful {T : SegmentTable} (C : QuicCapnp T) : Prop where
  request : ∀ request (frame : Frame) owned, C.serializeRequest request = frame.bytes →
    T.segments owned = frame.segments → C.getRequest owned = .ok (requestReader request)
  response : ∀ response (frame : Frame) owned, C.serializeResponse response = frame.bytes →
    T.segments owned = frame.segments → C.getResponse owned = .ok (responseReader response)

/-- The crate as it is on one request and one response, from the bytes they are built to. -/
def QuicCapnp.single (T : SegmentTable) (request : ConnectRequest) (requestBytes : List UInt8)
    (response : ConnectResponseBuilder) (responseBytes : List UInt8) : QuicCapnp T where
  serializeRequest built := if built = request then requestBytes else []
  serializeResponse built := if built = response then responseBytes else []
  getRequest _ := .ok (requestReader request)
  getResponse _ := .ok (responseReader response)

section Single

variable (T : SegmentTable) (request : ConnectRequest) (requestBytes : List UInt8)
  (response : ConnectResponseBuilder) (responseBytes : List UInt8)

@[simp] theorem QuicCapnp.serializeRequest_single :
    (QuicCapnp.single T request requestBytes response responseBytes).serializeRequest request =
      requestBytes :=
  if_pos rfl

@[simp] theorem QuicCapnp.serializeResponse_single :
    (QuicCapnp.single T request requestBytes response responseBytes).serializeResponse response =
      responseBytes :=
  if_pos rfl

/-- No frame is empty, so that nothing but the two is read back. -/
theorem QuicCapnp.lawful_single :
    (QuicCapnp.single T request requestBytes response responseBytes).Lawful := by
  constructor
  case request =>
    intro built frame owned hbytes _
    by_cases h : built = request
    · rw [h]
      rfl
    · exact absurd (hbytes.symm.trans (if_neg h)) frame.bytes_ne_nil
  case response =>
    intro built frame owned hbytes _
    by_cases h : built = response
    · rw [h]
      rfl
    · exact absurd (hbytes.symm.trans (if_neg h)) frame.bytes_ne_nil

end Single

/-! ## Decoding -/

def decodeMetadata (metadata : Except CapnpError (List MetadataReader)) :
    Except RpcError (List (String × String)) := do
  let entries ← orCapnp metadata
  entries.mapM fun entry => do
    return (← toStr entry.key, ← toStr entry.val)

def decodeConnectRequestMessage (root : Except CapnpError ConnectRequestReader) :
    Except RpcError ConnectRequest := do
  let root ← orCapnp root
  let destination ← toStr root.dest
  let connectionType ← orNotInSchema root.type
  let metadata ← decodeMetadata root.metadata
  return ⟨destination, connectionType, metadata⟩

def decodeConnectResponseMessage (root : Except CapnpError ConnectResponseReader) :
    Except RpcError ConnectResponse := do
  let root ← orCapnp root
  let error ← toStr root.error
  let metadata ← decodeMetadata root.metadata
  return ⟨error, metadata⟩

theorem decodeMetadata_map (metadata : List (String × String)) :
    decodeMetadata (.ok (metadata.map metadataReader)) = .ok metadata := by
  rw [decodeMetadata, orCapnp, ok_bind]
  induction metadata with
  | nil => rfl
  | cons entry metadata ih =>
      rw [List.map_cons, List.mapM_cons, ih]
      rfl

theorem decodeConnectRequestMessage_requestReader (request : ConnectRequest) :
    decodeConnectRequestMessage (.ok (requestReader request)) = .ok request := by
  show (decodeMetadata (.ok (request.metadata.map metadataReader)) >>= fun metadata =>
    .ok ⟨request.destination, request.connectionType, metadata⟩) = .ok request
  rw [decodeMetadata_map]
  rfl

/-- An error that is not set reads as the empty error it was. -/
theorem decodeConnectResponseMessage_responseReader (response : ConnectResponse) :
    decodeConnectResponseMessage (.ok (responseReader (encodeConnectResponse response))) =
      .ok response := by
  have herror : (encodeConnectResponse response).error.getD "" = response.error := by
    rw [encodeConnectResponse]
    dsimp only
    split
    · next hempty => simpa using (String.isEmpty_iff.mp hempty).symm
    · rfl
  show (decodeMetadata (.ok (response.metadata.map metadataReader)) >>= fun metadata =>
    .ok (ConnectResponse.mk ((encodeConnectResponse response).error.getD "") metadata)) =
      .ok response
  rw [decodeMetadata_map, herror]
  rfl

/-! ## On a stream -/

section Stream

variable {E : Signature} {T : SegmentTable} {C : QuicCapnp T}

def readConnectRequest (C : QuicCapnp T) : Io E ConnectRequest := do
  let reader ← readMessage T
  decodeConnectRequestMessage (C.getRequest reader)

def writeConnectResponse (C : QuicCapnp T) (response : ConnectResponse) : Io E Unit :=
  writeRaw (C.serializeResponse (encodeConnectResponse response))

def readConnectResponse (C : QuicCapnp T) : Io E ConnectResponse := do
  let reader ← readMessage T
  decodeConnectResponseMessage (C.getResponse reader)

theorem coherent_readConnectRequest : Coherent (readConnectRequest (E := E) C).run :=
  Io.coherent_bind (coherent_readMessage T) fun _ => Io.coherent_lift _

theorem receives_readConnectRequest (hC : C.Lawful) {request : ConnectRequest} {frame : Frame}
    (hframe : C.serializeRequest request = frame.bytes) :
    Receives (readConnectRequest (E := E) C).run frame.bytes (.done (.ok request)) := by
  obtain ⟨owned, hsegments, hread⟩ := receives_readMessage (E := E) T frame
  have hdecode : decodeConnectRequestMessage (C.getRequest owned) = .ok request := by
    rw [hC.request request frame owned hframe hsegments,
      decodeConnectRequestMessage_requestReader]
  have hbind := hread.bind (Async.andThen fun reader =>
    (liftM (decodeConnectRequestMessage (C.getRequest reader)) : Io E ConnectRequest).run)
  show Receives ((readMessage (E := E) T).run.bind _) frame.bytes _
  refine Eq.subst (motive := Receives _ frame.bytes) ?_ hbind
  show Program.done (decodeConnectRequestMessage (C.getRequest owned)) = _
  rw [hdecode]

theorem receives_readConnectResponse (hC : C.Lawful) {response : ConnectResponse} {frame : Frame}
    (hframe : C.serializeResponse (encodeConnectResponse response) = frame.bytes) :
    Receives (readConnectResponse (E := E) C).run frame.bytes (.done (.ok response)) := by
  obtain ⟨owned, hsegments, hread⟩ := receives_readMessage (E := E) T frame
  have hdecode : decodeConnectResponseMessage (C.getResponse owned) = .ok response := by
    rw [hC.response _ frame owned hframe hsegments,
      decodeConnectResponseMessage_responseReader]
  have hbind := hread.bind (Async.andThen fun reader =>
    (liftM (decodeConnectResponseMessage (C.getResponse reader)) : Io E ConnectResponse).run)
  show Receives ((readMessage (E := E) T).run.bind _) frame.bytes _
  refine Eq.subst (motive := Receives _ frame.bytes) ?_ hbind
  show Program.done (decodeConnectResponseMessage (C.getResponse owned)) = _
  rw [hdecode]

end Stream

end Libcfd.Rpc
