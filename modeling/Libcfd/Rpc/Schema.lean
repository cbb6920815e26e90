import Libcfd.Rpc.Error

/-!
# Messages as they are built and as they are read

What a builder sets is data. What a reader finds is found when it is looked for, and not before:
each pointer, text and union tag of a message is a result of its own, and a reader of a broken
message can be fine as long as nobody asks for the broken part. Fields nobody reads are left out.
-/

namespace Libcfd.Rpc

/-! ## The connector's replies -/

structure UpdateConfigurationResponse where
  latestAppliedVersion : Int32
  -- empty on success
  error : String
  deriving DecidableEq

structure RegisterUdpSessionResponse where
  error : String
  spans : List UInt8
  deriving DecidableEq

/-! ## What the connector registers with -/

structure ClientInformation where
  -- the UUID of the connector
  clientIdentifier : List UInt8
  features : List String
  version : String
  arch : String
  deriving DecidableEq

structure ConnectionOptions where
  client : ClientInformation
  originLocalIp : List UInt8
  replaceExisting : Bool
  compressionQuality : UInt8
  numberPreviousAttempts : UInt8
  deriving DecidableEq

structure TunnelAuth where
  accountTag : String
  tunnelSecret : List UInt8
  deriving DecidableEq

/-! ## Builders -/

inductive ExceptionType where
  | failed
  | overloaded
  | disconnected
  | unimplemented
  deriving DecidableEq, Repr

/-- `as u16`. -/
def ExceptionType.toUInt16 : ExceptionType → UInt16
  | .failed => 0
  | .overloaded => 1
  | .disconnected => 2
  | .unimplemented => 3

inductive CapDescriptor where
  | none
  | senderHosted (id : UInt32)
  | senderPromise (id : UInt32)
  | receiverHosted (id : UInt32)
  | receiverAnswer
  | thirdPartyHosted
  deriving DecidableEq

/-- What the content pointer of a payload is set to. -/
inductive Content where
  | null
  | capability
  | updateConfigurationParams (version : Int32) (config : List UInt8)
  | registerUdpSessionParams (sessionId dstIp : List UInt8) (dstPort : UInt16)
  | unregisterUdpSessionParams (sessionId : List UInt8) (message : String)
  | updateConfigurationResults (result : UpdateConfigurationResponse)
  | registerUdpSessionResults (result : RegisterUdpSessionResponse)
  | unregisterUdpSessionResults
  | registerConnectionParams (auth : TunnelAuth) (tunnelId : List UInt8) (connIndex : UInt8)
      (options : ConnectionOptions)
  | unregisterConnectionParams
  | updateLocalConfigurationParams (config : List UInt8)
  -- a struct of any other interface
  | other (bytes : List UInt8)
  deriving DecidableEq

structure Payload where
  content : Content
  capTable : List CapDescriptor
  deriving DecidableEq

inductive ReturnBody where
  | results (payload : Payload)
  | exception (reason : String) (type : ExceptionType)
  deriving DecidableEq

/-- The messages the two ends build. -/
inductive Message where
  | bootstrap (questionId : UInt32)
  | call (questionId importedCap : UInt32) (interfaceId : UInt64) (methodId : UInt16)
      (params : Payload)
  | ret (answerId : UInt32) (body : ReturnBody)
  | finish (questionId : UInt32) (releaseResultCaps : Bool)
  | release (id referenceCount : UInt32)
  deriving DecidableEq

/-! ## Readers -/

/-- A text: the pointer to it, and its bytes as UTF-8. -/
abbrev TextReader : Type := Except CapnpError (Except Utf8Error String)

structure ExceptionReader where
  reason : TextReader
  type : Except NotInSchema ExceptionType

structure UpdateConfigurationParamsReader where
  version : Int32
  config : Except CapnpError (List UInt8)

structure RegisterUdpSessionParamsReader where
  sessionId : Except CapnpError (List UInt8)
  dstIp : Except CapnpError (List UInt8)
  dstPort : UInt16

structure UnregisterUdpSessionParamsReader where
  sessionId : Except CapnpError (List UInt8)
  message : TextReader

structure UpdateConfigurationResponseReader where
  latestAppliedVersion : Int32
  err : TextReader

structure RegisterUdpSessionResponseReader where
  err : TextReader
  spans : Except CapnpError (List UInt8)

structure ConnectionErrorReader where
  cause : TextReader
  retryAfter : Int64
  shouldRetry : Bool

structure ConnectionDetailsReader where
  uuid : Except CapnpError (List UInt8)
  locationName : TextReader
  tunnelIsRemotelyManaged : Bool

inductive ConnectionResponseWhich where
  | error (error : Except CapnpError ConnectionErrorReader)
  | connectionDetails (details : Except CapnpError ConnectionDetailsReader)

/-- `content.get_as` at each of its types. -/
structure ContentReader where
  updateConfigurationParams : Except CapnpError UpdateConfigurationParamsReader
  registerUdpSessionParams : Except CapnpError RegisterUdpSessionParamsReader
  unregisterUdpSessionParams : Except CapnpError UnregisterUdpSessionParamsReader
  -- the only field of each results struct
  updateConfigurationResults : Except CapnpError (Except CapnpError UpdateConfigurationResponseReader)
  registerUdpSessionResults : Except CapnpError (Except CapnpError RegisterUdpSessionResponseReader)
  registerConnectionResults :
    Except CapnpError (Except CapnpError (Except NotInSchema ConnectionResponseWhich))

structure PayloadReader where
  content : ContentReader
  -- `which` of each descriptor
  capTable : Except CapnpError (List (Except NotInSchema CapDescriptor))

structure CallReader where
  questionId : UInt32
  interfaceId : UInt64
  methodId : UInt16
  params : Except CapnpError PayloadReader

inductive ReturnWhich where
  | results (payload : Except CapnpError PayloadReader)
  | exception (exception : Except CapnpError ExceptionReader)
  | canceled
  | resultsSentElsewhere
  | takeFromOtherQuestion
  | acceptFromThirdParty

structure ReturnReader where
  answerId : UInt32
  which : Except NotInSchema ReturnWhich

inductive MessageWhich where
  | unimplemented
  | abort (exception : Except CapnpError ExceptionReader)
  | call (call : Except CapnpError CallReader)
  | ret (ret : Except CapnpError ReturnReader)
  | finish
  | resolve
  | release
  | obsoleteSave
  | bootstrap (questionId : Except CapnpError UInt32)
  | obsoleteDelete
  | provide
  | accept
  | join
  | disembargo

/-- `reader.get_root()` of a message that was read, and `which` of the root. -/
abbrev Root : Type := Except CapnpError (Except NotInSchema MessageWhich)

/-! ## `?` on what a reader finds -/

def orCapnp {α : Type} : Except CapnpError α → Except RpcError α
  | .ok a => .ok a
  | .error e => .error (.ofCapnp e)

def orNotInSchema {α : Type} : Except NotInSchema α → Except RpcError α
  | .ok a => .ok a
  | .error e => .error (.ofNotInSchema e)

def orUtf8 {α : Type} : Except Utf8Error α → Except RpcError α
  | .ok a => .ok a
  | .error e => .error (.ofUtf8 e)

/-- `?.to_str()?.to_string()`. -/
def toStr (text : TextReader) : Except RpcError String := do
  orUtf8 (← orCapnp text)

/-- `reader.get_root()?.which()?`. -/
def rootWhich (root : Root) : Except RpcError MessageWhich := do
  orNotInSchema (← orCapnp root)

section Question

variable {α : Type}

@[simp] theorem orCapnp_eq_ok {found : Except CapnpError α} {a : α} :
    orCapnp found = .ok a ↔ found = .ok a := by
  cases found with
  | error e => exact ⟨nofun, nofun⟩
  | ok b => rw [orCapnp, Except.ok.injEq, Except.ok.injEq]

@[simp] theorem orNotInSchema_eq_ok {found : Except NotInSchema α} {a : α} :
    orNotInSchema found = .ok a ↔ found = .ok a := by
  cases found with
  | error e => exact ⟨nofun, nofun⟩
  | ok b => rw [orNotInSchema, Except.ok.injEq, Except.ok.injEq]

@[simp] theorem orUtf8_eq_ok {found : Except Utf8Error α} {a : α} :
    orUtf8 found = .ok a ↔ found = .ok a := by
  cases found with
  | error e => exact ⟨nofun, nofun⟩
  | ok b => rw [orUtf8, Except.ok.injEq, Except.ok.injEq]

theorem toStr_eq_ok {text : TextReader} {s : String} : toStr text = .ok s ↔ text = .ok (.ok s) := by
  simp [toStr, bind_eq_ok]

theorem rootWhich_eq_ok {root : Root} {which : MessageWhich} :
    rootWhich root = .ok which ↔ root = .ok (.ok which) := by
  simp [rootWhich, bind_eq_ok]

end Question

/-! ## Returns -/

/-- A payload with nothing in it but one capability of the sender's. -/
def capabilityReader : PayloadReader where
  content :=
    { updateConfigurationParams := .error ⟨"not a struct"⟩
      registerUdpSessionParams := .error ⟨"not a struct"⟩
      unregisterUdpSessionParams := .error ⟨"not a struct"⟩
      updateConfigurationResults := .error ⟨"not a struct"⟩
      registerUdpSessionResults := .error ⟨"not a struct"⟩
      registerConnectionResults := .error ⟨"not a struct"⟩ }
  capTable := .ok [.ok (.senderHosted 0)]

def returnRoot (answerId : UInt32) (payload : PayloadReader) : Root :=
  .ok (.ok (.ret (.ok ⟨answerId, .ok (.results (.ok payload))⟩)))

end Libcfd.Rpc
