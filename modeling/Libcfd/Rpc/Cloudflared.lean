import Libcfd.Rpc.Wire

/-!
# `serve_cloudflared`

The connector's end of an RPC stream: the methods, what is built for their replies, and the loop.
The calls on the handler are requests of the program, so that a handler may have any state.
-/

namespace Libcfd.Rpc

open Program

/-! ## Methods -/

/-- `CLOUDFLARED_SERVER_INTERFACE_ID`. -/
def cloudflaredServerInterfaceId : UInt64 := 0xf548cef9dea2a4a1

/-- `SESSION_MANAGER_INTERFACE_ID`. -/
def sessionManagerInterfaceId : UInt64 := 0x839445a59fb01686

/-- `CONFIGURATION_MANAGER_INTERFACE_ID`. -/
def configurationManagerInterfaceId : UInt64 := 0xb48edfbdaa25db04

inductive Method where
  | updateConfiguration
  | registerUdpSession
  | unregisterUdpSession
  | unknown
  deriving DecidableEq, Repr

def classify (interfaceIdentifier : UInt64) (methodIdentifier : UInt16) : Method :=
  if (interfaceIdentifier = configurationManagerInterfaceId ∧ methodIdentifier = 0) ∨
      (interfaceIdentifier = cloudflaredServerInterfaceId ∧ methodIdentifier = 2) then
    .updateConfiguration
  else if (interfaceIdentifier = sessionManagerInterfaceId ∧ methodIdentifier = 0) ∨
      (interfaceIdentifier = cloudflaredServerInterfaceId ∧ methodIdentifier = 0) then
    .registerUdpSession
  else if (interfaceIdentifier = sessionManagerInterfaceId ∧ methodIdentifier = 1) ∨
      (interfaceIdentifier = cloudflaredServerInterfaceId ∧ methodIdentifier = 1) then
    .unregisterUdpSession
  else
    .unknown

/-- `[u8; 16]`. -/
abbrev SessionIdentifier : Type := { bytes : List UInt8 // bytes.length = 16 }

/-- A short blob is padded with zeros, a long one cut. -/
def sessionIdentifierBytes (data : List UInt8) : SessionIdentifier :=
  ⟨data.take (min data.length 16) ++ List.replicate (16 - min data.length 16) 0, by
    rw [List.length_append, List.length_take, List.length_replicate]
    omega⟩

/-! ## The handler -/

inductive HandlerOp where
  | updateConfiguration (version : Int32) (configuration : List UInt8)
  | registerUdpSession (sessionIdentifier : SessionIdentifier) (destinationIp : List UInt8)
      (destinationPort : UInt16)
  | unregisterUdpSession (sessionIdentifier : SessionIdentifier) (message : String)
  deriving DecidableEq

/-- The methods of a handler, as requests. -/
def handlerCalls : Signature where
  Op := HandlerOp
  Reply
    | .updateConfiguration .. => UpdateConfigurationResponse
    | .registerUdpSession .. => RegisterUdpSessionResponse
    | .unregisterUdpSession .. => Unit

/-- A handler with the state `σ`. Two of its methods have a default. -/
structure CloudflaredHandler (σ : Type) where
  updateConfiguration : Int32 → List UInt8 → σ → UpdateConfigurationResponse × σ
  registerUdpSession : SessionIdentifier → List UInt8 → UInt16 → σ →
      RegisterUdpSessionResponse × σ :=
    fun _ _ _ s => (⟨"UDP sessions are not supported", []⟩, s)
  unregisterUdpSession : SessionIdentifier → String → σ → σ := fun _ _ s => s

def CloudflaredHandler.answer {σ : Type} (handler : CloudflaredHandler σ) :
    (op : HandlerOp) → σ → handlerCalls.Reply op × σ
  | .updateConfiguration version configuration, s =>
      handler.updateConfiguration version configuration s
  | .registerUdpSession sessionIdentifier destinationIp destinationPort, s =>
      handler.registerUdpSession sessionIdentifier destinationIp destinationPort s
  | .unregisterUdpSession sessionIdentifier message, s =>
      ((), handler.unregisterUdpSession sessionIdentifier message s)

/-! ## Building replies -/

def buildBootstrapReturn (question : UInt32) : Message :=
  .ret question (.results ⟨.capability, [.senderHosted 0]⟩)

def buildUpdateConfigurationReturn (question : UInt32) (response : UpdateConfigurationResponse) :
    Message :=
  .ret question (.results ⟨.updateConfigurationResults response, []⟩)

def buildRegisterUdpSessionReturn (question : UInt32) (response : RegisterUdpSessionResponse) :
    Message :=
  .ret question (.results ⟨.registerUdpSessionResults response, []⟩)

def buildUnregisterUdpSessionReturn (question : UInt32) : Message :=
  .ret question (.results ⟨.unregisterUdpSessionResults, []⟩)

def buildException (questionIdentifier : UInt32) (reason : String) : Message :=
  .ret questionIdentifier (.exception reason .unimplemented)

/-! ## The loop -/

/-- `handler.update_configuration(..)` and the like. -/
def invoke (op : HandlerOp) : Async (wire handlerCalls) (handlerCalls.Reply op) :=
  .request (S := wire handlerCalls) (.effect op) fun reply => .done (.ok reply)

/-- The reply to one message, if it gets one. -/
def replyTo (root : Root) : Async (wire handlerCalls) (Option Message) := do
  match ← rootWhich root with
  | .bootstrap b =>
      let question ← orCapnp b
      return some (buildBootstrapReturn question)
  | .call c =>
      let call ← orCapnp c
      let question := call.questionId
      match classify call.interfaceId call.methodId with
      | .updateConfiguration =>
          let params ← orCapnp call.params
          let parameters ← orCapnp params.content.updateConfigurationParams
          let config ← orCapnp parameters.config
          let response ← invoke (.updateConfiguration parameters.version config)
          return some (buildUpdateConfigurationReturn question response)
      | .registerUdpSession =>
          let params ← orCapnp call.params
          let parameters ← orCapnp params.content.registerUdpSessionParams
          let sessionId ← orCapnp parameters.sessionId
          let dstIp ← orCapnp parameters.dstIp
          let response ← invoke (.registerUdpSession (sessionIdentifierBytes sessionId) dstIp
            parameters.dstPort)
          return some (buildRegisterUdpSessionReturn question response)
      | .unregisterUdpSession => return some (buildUnregisterUdpSessionReturn question)
      | .unknown => return some (buildException question "unimplemented")
  | _ => return none

/-- One turn of the loop: `none` goes on, anything else is what `serve_cloudflared` returns. -/
def serveTurn : Program (wire handlerCalls) (Option (Except RpcError Unit)) :=
  .request (S := wire handlerCalls) .read fun
    | .error .eof => .done (some (.ok ()))
    | .error e => .done (some (.error e))
    | .ok root => (replyTo root).run.bind fun
      | .error e => .done (some (.error e))
      | .ok none => .done none
      | .ok (some reply) => .request (S := wire handlerCalls) (.write reply) fun
        | .error e => .done (some (.error e))
        | .ok () => .done none

/-- At most so many turns of `serve_cloudflared`. -/
def serveCloudflared (turns : Nat) : Program (wire handlerCalls) (Option (Except RpcError Unit)) :=
  loop serveTurn turns

end Libcfd.Rpc
