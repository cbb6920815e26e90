import Libcfd.Edge.Error
import Libcfd.Rpc.Tunnel

/-!
# The control stream

`register_on_stream` is a chain of at most three questions, each of which can fail on its own.
`RegisterRun` says what each way through the chain reads, writes and returns; what the stream
carries once it accepts writes is one of these ways.
-/

namespace Libcfd.Edge

open Program Libcfd.Rpc

/-- `Error::Edge(edge::Error::Control(..))`, by its message. -/
def Error.ofRpc : RpcError → Error
  | .eof => .other "control stream error: rpc stream ended unexpectedly"
  | .protocol message => .other ("control stream error: rpc protocol error: " ++ message)
  | .abort reason errorType =>
      .other ("control stream error: rpc aborted by peer (type " ++ toString errorType ++ "): " ++
        reason)
  | .remoteCall reason => .other ("control stream error: rpc call failed remotely: " ++ reason)
  | .io error => .other ("control stream error: rpc transport error: " ++ error.message)
  | .panicked message => .other message

/-- `RegistrationFailure::from`. -/
def RegistrationFailure.ofConnectionError (e : ConnectionError) : RegistrationFailure :=
  if e.shouldRetry then .retryable e.cause e.retryAfter.toInt else .permanent e.cause

namespace Control

variable {E : Signature}

/-- `DUPLICATE_CONNECTION_CAUSE`. -/
def duplicateConnectionCause : String := "EDUPCONN"

/-! ## The tunnel and the options -/

/-- `[u8; 16]`. -/
abbrev Uuid : Type := { bytes : List UInt8 // bytes.length = 16 }

structure Tunnel where
  tunnelIdentifier : String
  accountTag : String
  tunnelSecret : List UInt8

/-- `parse_tunnel_identifier`, with `parseStr` for `uuid::Uuid::parse_str`. -/
def parseTunnelIdentifier (parseStr : String → Except String Uuid) (identifier : String) :
    Except Error Uuid :=
  match parseStr identifier with
  | .ok uuid => .ok uuid
  | .error e => .error (.other ("invalid tunnel id: " ++ reprStr identifier ++ ": " ++ e))

structure RegistrationOptions where
  features : List String := ["allow_remote_config", "serialized_headers", "support_datagram_v2",
    "support_quic_eof", "management_logs"]
  numberPreviousAttempts : UInt8 := 0
  originLocalIp : List UInt8 := []

/-- What the process and its build know: `connector_client_identifier()` and the crate's version
and architecture. -/
structure Connector where
  clientIdentifier : Uuid
  version : String
  arch : String

def buildConnectionOptions (connector : Connector) (options : RegistrationOptions) :
    ConnectionOptions where
  client :=
    { clientIdentifier := connector.clientIdentifier
      features := options.features
      version := connector.version
      arch := connector.arch }
  originLocalIp := options.originLocalIp
  replaceExisting := false
  compressionQuality := 0
  numberPreviousAttempts := options.numberPreviousAttempts

/-! ## The control stream -/

section Register

variable (parseStr : String → Except String Uuid) (connector : Connector) (tunnel : Tunnel)
  (options : RegistrationOptions) (configurationJson : List UInt8)

/-- `registerOnStream` from its second question on. -/
def registerBootstrapped (client : TunnelClient) :
    Program (wire E) (Except Error (ConnectionDetails × TunnelClient)) :=
  match parseTunnelIdentifier parseStr tunnel.tunnelIdentifier with
  | .error e => .done (.error e)
  | .ok tunnelIdentifier =>
      let auth : TunnelAuth := ⟨tunnel.accountTag, tunnel.tunnelSecret⟩
      (client.registerConnection auth tunnelIdentifier 0
          (buildConnectionOptions connector options)).bind fun
        | (.error e, _) => .done (.error (.ofRpc e))
        | (.ok (.error e), client) =>
            if e.cause = duplicateConnectionCause then
              client.close.bind fun _ => .done (.error (.duplicateConnection e.cause))
            else
              client.close.bind fun _ => .done (.error (.registration (.ofConnectionError e)))
        | (.ok (.details details), client) =>
            if details.tunnelIsRemotelyManaged then
              .done (.ok (details, client))
            else
              -- an error is logged, and that is all
              (client.updateLocalConfiguration configurationJson).bind fun (_, client) =>
                .done (.ok (details, client))

def registerOnStream : Program (wire E) (Except Error (ConnectionDetails × TunnelClient)) :=
  (TunnelClient.bootstrap ⟨.new⟩).bind fun
    | (.error e, _) => .done (.error (.ofRpc e))
    | (.ok (), client) =>
        registerBootstrapped parseStr connector tunnel options configurationJson client

end Register

/-- What `unregister` does within the grace period; it returns `Ok(())` in any case, and also when
the period ends first. -/
def unregister (client : TunnelClient) : Program (wire E) Unit :=
  client.unregisterConnection.bind fun (_, client) =>
    (RpcClient.close client.intoInner).bind fun _ => .done ()

/-! ## What a registration comes to -/

/-- The error a rejection is turned into. -/
def rejection (e : ConnectionError) : Error :=
  if e.cause = duplicateConnectionCause then
    .duplicateConnection e.cause
  else
    .registration (.ofConnectionError e)

theorem rejection_duplicate_iff (e : ConnectionError) :
    (∃ cause, rejection e = .duplicateConnection cause) ↔ e.cause = duplicateConnectionCause := by
  rw [rejection]
  split
  · next h => exact iff_of_true ⟨e.cause, rfl⟩ h
  · next h => exact iff_of_false nofun h

theorem isPermanent_rejection_iff {e : ConnectionError} (h : e.cause ≠ duplicateConnectionCause) :
    (rejection e).isPermanent = true ↔ e.shouldRetry = false := by
  rw [rejection, if_neg h, RegistrationFailure.ofConnectionError]
  cases e.shouldRetry with
  | true => exact iff_of_false nofun nofun
  | false => exact iff_of_true rfl rfl

/-- What the answer to the bootstrap is decoded to. -/
def bootstrapReply (answer : Except RpcError Root) : Except RpcError BootstrapOutcome :=
  answer >>= (decodeBootstrap · 0)

/-- What the answer to `registerConnection` is decoded to. -/
def registerReply (answer : Except RpcError Root) :
    Except RpcError (CallOutcome ConnectionResponse) :=
  answer >>= (decodeCall · 1 decodeConnectionResponse)

/-- The first two answers are a capability and this response. -/
def Responded (answers : List (Except RpcError Root)) (response : ConnectionResponse) : Prop :=
  ∃ answer answer' rest, answers = answer :: answer' :: rest ∧
    bootstrapReply answer = .ok .capability ∧ registerReply answer' = .ok (.value response)

@[simp] theorem not_responded_singleton (answer : Except RpcError Root)
    (response : ConnectionResponse) : ¬ Responded [answer] response := by
  rintro ⟨_, _, _, ⟨⟩, _⟩

@[simp] theorem responded_cons_cons {answer answer' : Except RpcError Root}
    {rest : List (Except RpcError Root)} {response : ConnectionResponse} :
    Responded (answer :: answer' :: rest) response ↔
      bootstrapReply answer = .ok .capability ∧ registerReply answer' = .ok (.value response) := by
  constructor
  · rintro ⟨_, _, _, ⟨⟩, h, h'⟩
    exact ⟨h, h'⟩
  · rintro ⟨h, h'⟩
    exact ⟨answer, answer', rest, rfl, h, h'⟩

/-- How often a capability was released. -/
def releases (messages : List Message) : Nat :=
  messages.countP fun
    | .release .. => true
    | _ => false

/-- The parameters of the calls of a method of the registration server. -/
def callsOf (methodIdentifier : UInt16) (messages : List Message) : List Payload :=
  messages.filterMap fun
    | .call _ _ interfaceId methodId params =>
        if interfaceId = registrationServerInterfaceId ∧ methodId = methodIdentifier then
          some params
        else
          none
    | _ => none

section Finishing

variable {γ : Type} (question : UInt32) (release : γ → Bool) (reading : Except RpcError γ)

@[simp] theorem releases_append (messages messages' : List Message) :
    releases (messages ++ messages') = releases messages + releases messages' :=
  List.countP_append

@[simp] theorem callsOf_append (methodIdentifier : UInt16) (messages messages' : List Message) :
    callsOf methodIdentifier (messages ++ messages') =
      callsOf methodIdentifier messages ++ callsOf methodIdentifier messages' :=
  List.filterMap_append

@[simp] theorem releases_finishing : releases (finishing question release reading) = 0 := by
  cases reading <;> rfl

@[simp] theorem callsOf_finishing (methodIdentifier : UInt16) :
    callsOf methodIdentifier (finishing question release reading) = [] := by
  cases reading <;> rfl

end Finishing

section Register

variable (connector : Connector) (tunnel : Tunnel) (options : RegistrationOptions)
  (configurationJson : List UInt8) (tunnelIdentifier : Uuid)

/-- What is written before the registration is answered. -/
def opening : List Message :=
  [.bootstrap 0, .finish 0 false, .call 1 0 registrationServerInterfaceId methodRegisterConnection
    ⟨.registerConnectionParams ⟨tunnel.accountTag, tunnel.tunnelSecret⟩ tunnelIdentifier 0
      (buildConnectionOptions connector options), []⟩]

/-- The ways through `registerOnStream`: what is read, what is written, and the result. -/
inductive RegisterRun : List (Except RpcError Root) → List Message →
    Except Error (ConnectionDetails × TunnelClient) → Prop
  | noCapability {answer : Except RpcError Root} (h : bootstrapReply answer ≠ .ok .capability)
      (e : RpcError) :
      RegisterRun [answer]
        (.bootstrap 0 :: finishing 0 BootstrapOutcome.releases (bootstrapReply answer))
        (.error (.ofRpc e))
  | unregistered {answer answer' : Except RpcError Root}
      (h : bootstrapReply answer = .ok .capability)
      (h' : ∀ response, registerReply answer' ≠ .ok (.value response)) (e : RpcError) :
      RegisterRun [answer, answer'] (opening connector tunnel options tunnelIdentifier ++
        finishing 1 CallOutcome.releases (registerReply answer')) (.error (.ofRpc e))
  | rejected {answer answer' : Except RpcError Root} (h : bootstrapReply answer = .ok .capability)
      {e : ConnectionError} (h' : registerReply answer' = .ok (.value (.error e))) :
      RegisterRun [answer, answer'] (opening connector tunnel options tunnelIdentifier ++
        [.finish 1 false, .release 0 1]) (.error (rejection e))
  | managed {answer answer' : Except RpcError Root} (h : bootstrapReply answer = .ok .capability)
      {details : ConnectionDetails}
      (h' : registerReply answer' = .ok (.value (.details details)))
      (hmanaged : details.tunnelIsRemotelyManaged = true) :
      RegisterRun [answer, answer'] (opening connector tunnel options tunnelIdentifier ++
        [.finish 1 false]) (.ok (details, ⟨⟨2, true⟩⟩))
  | pushed {answer answer' : Except RpcError Root} (h : bootstrapReply answer = .ok .capability)
      {details : ConnectionDetails}
      (h' : registerReply answer' = .ok (.value (.details details)))
      (hmanaged : details.tunnelIsRemotelyManaged = false) (answer'' : Except RpcError Root) :
      RegisterRun [answer, answer', answer''] (opening connector tunnel options tunnelIdentifier ++
        .finish 1 false :: .call 2 0 registrationServerInterfaceId methodUpdateLocalConfiguration
          ⟨.updateLocalConfigurationParams configurationJson, []⟩ ::
        finishing 2 CallOutcome.releases (answer'' >>= (decodeCall · 2 fun _ => .ok ())))
        (.ok (details, ⟨⟨3, true⟩⟩))

variable {parseStr : String → Except String Uuid} {connector tunnel options configurationJson
  tunnelIdentifier}

/-- From the second question on. -/
theorem registerRun_bootstrapped {trace : List (Program.Event (wire E))}
    {result : Except Error (ConnectionDetails × TunnelClient)}
    (hid : parseTunnelIdentifier parseStr tunnel.tunnelIdentifier = .ok tunnelIdentifier)
    (h : Exec (registerBootstrapped parseStr connector tunnel options configurationJson
      ⟨⟨1, true⟩⟩) trace result) (hw : AcceptsWrites trace) {answer : Except RpcError Root}
    (hcapability : bootstrapReply answer = .ok .capability) :
    RegisterRun connector tunnel options configurationJson tunnelIdentifier
      (answer :: readings trace) (.bootstrap 0 :: .finish 0 false :: writes trace) result := by
  rw [registerBootstrapped, hid] at h
  obtain ⟨first, ⟨registered, ⟨rpc⟩⟩, second, rfl, hfirst, hsecond⟩ := exec_bind_iff.mp h
  obtain ⟨hw, hw'⟩ := acceptsWrites_append.mp hw
  obtain ⟨answer', hread, hwrite, hregistered, hclient⟩ :=
    call_accepted (exec_onRpc hfirst) hw rfl
  cases hclient
  rw [readings_append, writes_append, hread, hwrite]
  change registered = (registerReply answer' >>= CallOutcome.conclude) at hregistered
  show RegisterRun _ _ _ _ _ (answer :: answer' :: readings second)
    (opening connector tunnel options tunnelIdentifier ++
      finishing 1 CallOutcome.releases (registerReply answer') ++ writes second) _
  rcases conclude_cases (registerReply answer') with ⟨response, hreply, hvalue⟩ | ⟨hreply, e, he⟩
  · rw [hvalue] at hregistered
    subst hregistered
    rw [hreply, List.append_assoc]
    cases response with
    | error e =>
        have hclose : readings second = [] ∧ writes second = [.release 0 1] ∧
            result = .error (rejection e) := by
          dsimp only at hsecond
          rw [rejection]
          split at hsecond
          · next hcause =>
              rw [if_pos hcause]
              exact exec_close_done hsecond rfl
          · next hcause =>
              rw [if_neg hcause]
              exact exec_close_done hsecond rfl
        obtain ⟨hread', hwrite', rfl⟩ := hclose
        rw [hread', hwrite']
        exact .rejected hcapability hreply
    | details details =>
        dsimp only at hsecond
        cases hmanaged : details.tunnelIsRemotelyManaged with
        | true =>
            rw [if_pos hmanaged] at hsecond
            obtain ⟨rfl, rfl⟩ := exec_done_iff.mp hsecond
            exact .managed hcapability hreply hmanaged
        | false =>
            rw [if_neg (ne_true_of_eq_false hmanaged)] at hsecond
            obtain ⟨push, ⟨_, ⟨rpc⟩⟩, last, rfl, hpush, hlast⟩ := exec_bind_iff.mp hsecond
            obtain ⟨rfl, rfl⟩ := exec_done_iff.mp hlast
            rw [List.append_nil] at hw' ⊢
            obtain ⟨answer'', hread', hwrite', _, hclient⟩ :=
              call_accepted (exec_onRpc hpush) hw' rfl
            cases hclient
            rw [hread', hwrite']
            exact .pushed hcapability hreply hmanaged answer''
  · rw [he] at hregistered
    subst hregistered
    obtain ⟨rfl, rfl⟩ := exec_done_iff.mp hsecond
    show RegisterRun _ _ _ _ _ [answer, answer'] (_ ++ []) _
    rw [List.append_nil]
    exact .unregistered hcapability hreply e

theorem registerRun_of_exec {trace : List (Program.Event (wire E))}
    {result : Except Error (ConnectionDetails × TunnelClient)}
    (hid : parseTunnelIdentifier parseStr tunnel.tunnelIdentifier = .ok tunnelIdentifier)
    (h : Exec (registerOnStream parseStr connector tunnel options configurationJson) trace result)
    (hw : AcceptsWrites trace) :
    RegisterRun connector tunnel options configurationJson tunnelIdentifier (readings trace)
      (writes trace) result := by
  obtain ⟨first, ⟨booted, ⟨rpc⟩⟩, second, rfl, hfirst, hsecond⟩ := exec_bind_iff.mp h
  obtain ⟨hw, hw'⟩ := acceptsWrites_append.mp hw
  obtain ⟨inner, hinner, rfl⟩ := exec_map (exec_onRpc hfirst)
  obtain ⟨answer, hread, hwrite, hreply⟩ := bootstrap_accepted hinner hw rfl
  rw [readings_append, writes_append, hread, hwrite]
  rcases hreply with ⟨hcapability, rfl, hclient⟩ | ⟨hcapability, e, rfl⟩
  · cases hclient
    rw [hcapability]
    exact registerRun_bootstrapped hid hsecond hw' hcapability
  · obtain ⟨rfl, rfl⟩ := exec_done_iff.mp hsecond
    show RegisterRun _ _ _ _ _ [answer] (_ :: finishing 0 _ (bootstrapReply answer) ++ []) _
    rw [List.append_nil]
    exact .noCapability hcapability e

end Register

section Requests

variable {P : (wire E).Op → Prop}

theorem requests_booted (hread : P .read) (hboot : ∀ question, P (.write (.bootstrap question)))
    (hfinish : ∀ question release, P (.write (.finish question release))) (client : TunnelClient) :
    (TunnelClient.bootstrap (E := E) client).Requests P := by
  apply requests_onRpc
  intro client
  apply Requests.bind (requests_bootstrap hread hboot hfinish client)
  rintro ⟨result, client⟩
  cases result with
  | error e => exact trivial
  | ok => exact trivial

/-- What is done with the answer to the registration. -/
def afterRegister (configurationJson : List UInt8) :
    Except RpcError ConnectionResponse × TunnelClient →
      Program (wire E) (Except Error (ConnectionDetails × TunnelClient))
  | (.error e, _) => .done (.error (.ofRpc e))
  | (.ok (.error e), client) =>
      if e.cause = duplicateConnectionCause then
        client.close.bind fun _ => .done (.error (.duplicateConnection e.cause))
      else
        client.close.bind fun _ => .done (.error (.registration (.ofConnectionError e)))
  | (.ok (.details details), client) =>
      if details.tunnelIsRemotelyManaged then
        .done (.ok (details, client))
      else
        (client.updateLocalConfiguration configurationJson).bind fun (_, client) =>
          .done (.ok (details, client))

theorem registerBootstrapped_eq (hid : parseTunnelIdentifier parseStr tunnel.tunnelIdentifier =
      .ok tunnelIdentifier) (client : TunnelClient) :
    registerBootstrapped (E := E) parseStr connector tunnel options configurationJson client =
      (client.registerConnection ⟨tunnel.accountTag, tunnel.tunnelSecret⟩ tunnelIdentifier 0
        (buildConnectionOptions connector options)).bind (afterRegister configurationJson) := by
  unfold registerBootstrapped
  rw [hid]
  rfl

theorem requests_afterRegister (hread : P .read)
    (hfinish : ∀ question release, P (.write (.finish question release)))
    (hrelease : P (.write (.release 0 1)))
    (hupdate : ∀ question, P (.write (.call question 0 registrationServerInterfaceId
      methodUpdateLocalConfiguration
      ⟨.updateLocalConfigurationParams configurationJson, []⟩)))
    (registered : Except RpcError ConnectionResponse × TunnelClient) :
    (afterRegister (E := E) configurationJson registered).Requests P := by
  have hclose : ∀ (client : TunnelClient) (result : Except Error (ConnectionDetails × TunnelClient)),
      ((TunnelClient.close (E := E) client).bind fun _ => .done result).Requests P := by
    intro client result
    apply Requests.bind
    · apply Requests.bind (requests_close hrelease client.rpc)
      intro value
      exact trivial
    · intro value
      exact trivial
  obtain ⟨registered, client⟩ := registered
  cases registered with
  | error e => exact trivial
  | ok response =>
  cases response with
  | error e =>
      unfold afterRegister
      dsimp only
      split
      · exact hclose client _
      · exact hclose client _
  | details details =>
      unfold afterRegister
      dsimp only
      split
      · exact trivial
      · apply Requests.bind
        · exact requests_onRpc (requests_call hread hupdate hfinish) client
        · rintro ⟨pushed, client⟩
          exact trivial

/-- Everything a registration may ask of its stream. -/
theorem requests_registerOnStream (hread : P .read)
    (hboot : ∀ question, P (.write (.bootstrap question)))
    (hfinish : ∀ question release, P (.write (.finish question release)))
    (hrelease : P (.write (.release 0 1)))
    (hregister : ∀ question tunnelIdentifier, P (.write (.call question 0
      registrationServerInterfaceId methodRegisterConnection
      ⟨.registerConnectionParams ⟨tunnel.accountTag, tunnel.tunnelSecret⟩ tunnelIdentifier 0
        (buildConnectionOptions connector options), []⟩)))
    (hupdate : ∀ question, P (.write (.call question 0 registrationServerInterfaceId
      methodUpdateLocalConfiguration
      ⟨.updateLocalConfigurationParams configurationJson, []⟩))) :
    (registerOnStream (E := E) parseStr connector tunnel options configurationJson).Requests P := by
  apply Requests.bind (requests_booted hread hboot hfinish _)
  rintro ⟨booted, client⟩
  cases booted with
  | error e => exact trivial
  | ok =>
  show (registerBootstrapped parseStr connector tunnel options configurationJson client).Requests P
  cases hid : parseTunnelIdentifier parseStr tunnel.tunnelIdentifier with
  | error e =>
      unfold registerBootstrapped
      rw [hid]
      exact trivial
  | ok tunnelIdentifier =>
      rw [registerBootstrapped_eq hid]
      apply Requests.bind
      · exact requests_onRpc (requests_call hread (hregister · tunnelIdentifier) hfinish) client
      · exact requests_afterRegister hread hfinish hrelease hupdate

/-- What only the registration call asks is asked once. -/
theorem once_registerOnStream (hread : ¬ P .read)
    (hboot : ∀ question, ¬ P (.write (.bootstrap question)))
    (hfinish : ∀ question release, ¬ P (.write (.finish question release)))
    (hrelease : ¬ P (.write (.release 0 1)))
    (hupdate : ∀ question, ¬ P (.write (.call question 0 registrationServerInterfaceId
      methodUpdateLocalConfiguration
      ⟨.updateLocalConfigurationParams configurationJson, []⟩))) :
    (registerOnStream (E := E) parseStr connector tunnel options configurationJson).Once P := by
  apply Requests.bind_once (requests_booted hread hboot hfinish _)
  rintro ⟨booted, client⟩
  cases booted with
  | error e => exact trivial
  | ok =>
  show (registerBootstrapped parseStr connector tunnel options configurationJson client).Once P
  cases hid : parseTunnelIdentifier parseStr tunnel.tunnelIdentifier with
  | error e =>
      unfold registerBootstrapped
      rw [hid]
      exact trivial
  | ok tunnelIdentifier =>
      rw [registerBootstrapped_eq hid]
      apply Once.bind
      · exact once_onRpc (once_call hread hfinish) client
      · exact requests_afterRegister hread hfinish hrelease hupdate

end Requests

/-! ### Unregistering -/

theorem unregister_accepted {client : TunnelClient} {trace : List (Program.Event (wire E))}
    (h : Exec (unregister client) trace ()) (hw : AcceptsWrites trace)
    (hboot : client.rpc.hasBootstrap = true) :
    ∃ reading : Except RpcError (CallOutcome Unit),
      writes trace = .call client.rpc.nextQuestion 0 registrationServerInterfaceId
          methodUnregisterConnection ⟨.unregisterConnectionParams, []⟩ ::
        finishing client.rpc.nextQuestion CallOutcome.releases reading ++ [.release 0 1] := by
  obtain ⟨first, ⟨result, ⟨rpc⟩⟩, second, rfl, hfirst, hsecond⟩ := exec_bind_iff.mp h
  obtain ⟨hw, hw'⟩ := acceptsWrites_append.mp hw
  obtain ⟨answer, _, hwrite, _, hclient⟩ := call_accepted (exec_onRpc hfirst) hw hboot
  obtain ⟨close, _, last, rfl, hclose, hlast⟩ := exec_bind_iff.mp hsecond
  obtain ⟨rfl, _⟩ := exec_done_iff.mp hlast
  rcases exec_close hclose with ⟨hnot, _⟩ | ⟨_, sent, rfl⟩
  · have hhas : rpc.hasBootstrap = true :=
      (congrArg RpcClient.hasBootstrap hclient).trans hboot
    cases hhas.symm.trans hnot
  · refine ⟨answer >>= (decodeCall · client.rpc.nextQuestion fun _ => .ok ()), ?_⟩
    rw [writes_append, hwrite]
    rfl

/-! ## The outcome of a registration -/

namespace RegisterRun

variable {connector : Connector} {tunnel : Tunnel} {options : RegistrationOptions}
  {configurationJson : List UInt8} {tunnelIdentifier : Uuid}
  {answers : List (Except RpcError Root)} {messages : List Message}
  {result : Except Error (ConnectionDetails × TunnelClient)}

theorem ok_iff (h : RegisterRun connector tunnel options configurationJson tunnelIdentifier answers
    messages result) (details : ConnectionDetails) :
    (∃ client, result = .ok (details, client)) ↔ Responded answers (.details details) := by
  cases h with
  | noCapability h e => exact iff_of_false nofun (not_responded_singleton _ _)
  | unregistered h h' e =>
      refine iff_of_false nofun fun hresponded => ?_
      exact h' _ (responded_cons_cons.mp hresponded).2
  | rejected h h' =>
      refine iff_of_false nofun fun hresponded => ?_
      cases h'.symm.trans (responded_cons_cons.mp hresponded).2
  | managed h h' hmanaged =>
      rw [responded_cons_cons, h, h']
      simp
  | pushed h h' hmanaged answer'' =>
      rw [responded_cons_cons, h, h']
      simp

/-- The configuration is pushed once if the tunnel is not remotely managed, and otherwise never. -/
theorem callsOf_update (h : RegisterRun connector tunnel options configurationJson
    tunnelIdentifier answers messages result) :
    (callsOf methodUpdateLocalConfiguration messages =
        [⟨.updateLocalConfigurationParams configurationJson, []⟩] ∧
      ∃ details, Responded answers (.details details) ∧
        details.tunnelIsRemotelyManaged = false) ∨
    callsOf methodUpdateLocalConfiguration messages = [] ∧
      ∀ details, Responded answers (.details details) →
        details.tunnelIsRemotelyManaged = true := by
  cases h with
  | noCapability h e =>
      refine .inr ⟨callsOf_finishing .., fun details hresponded => ?_⟩
      exact absurd hresponded (not_responded_singleton _ _)
  | unregistered h h' e =>
      refine .inr ⟨?_, fun details hresponded => ?_⟩
      · rw [callsOf_append, callsOf_finishing]
        rfl
      · exact absurd (responded_cons_cons.mp hresponded).2 (h' _)
  | rejected h h' =>
      refine .inr ⟨rfl, fun details hresponded => ?_⟩
      cases h'.symm.trans (responded_cons_cons.mp hresponded).2
  | managed h h' hmanaged =>
      refine .inr ⟨rfl, fun details hresponded => ?_⟩
      cases h'.symm.trans (responded_cons_cons.mp hresponded).2
      exact hmanaged
  | @pushed answer answer' h details h' hmanaged answer'' =>
      refine .inl ⟨?_, details, responded_cons_cons.mpr ⟨h, h'⟩, hmanaged⟩
      show _ :: callsOf _ (finishing _ _ _) = _
      rw [callsOf_finishing]

theorem rejected_of_responded (h : RegisterRun connector tunnel options configurationJson
    tunnelIdentifier answers messages result) {e : ConnectionError}
    (hresponded : Responded answers (.error e)) :
    result = .error (rejection e) ∧ releases messages = 1 := by
  cases h with
  | noCapability h e => exact absurd hresponded (not_responded_singleton _ _)
  | unregistered h h' e => exact absurd (responded_cons_cons.mp hresponded).2 (h' _)
  | rejected h h' =>
      cases h'.symm.trans (responded_cons_cons.mp hresponded).2
      exact ⟨rfl, rfl⟩
  | managed h h' hmanaged => cases h'.symm.trans (responded_cons_cons.mp hresponded).2
  | pushed h h' hmanaged answer'' => cases h'.symm.trans (responded_cons_cons.mp hresponded).2

/-- A client that is returned holds the capability, which was not released. -/
theorem unreleased (h : RegisterRun connector tunnel options configurationJson tunnelIdentifier
    answers messages result) {details : ConnectionDetails} {client : TunnelClient}
    (hok : result = .ok (details, client)) :
    client.rpc.hasBootstrap = true ∧ releases messages = 0 := by
  cases h with
  | noCapability h e => cases hok
  | unregistered h h' e => cases hok
  | rejected h h' => cases hok
  | managed h h' hmanaged =>
      cases hok
      exact ⟨rfl, rfl⟩
  | pushed h h' hmanaged answer'' =>
      cases hok
      refine ⟨rfl, ?_⟩
      show releases (finishing _ _ _) = 0
      exact releases_finishing ..

end RegisterRun

/-- **Registration.** Whatever the edge answers on a stream that accepts writes: the outcome is
that of the first two answers, the configuration is pushed to tunnels that are not managed
remotely, and the capability is released once, by a rejection or by `unregister`. -/
theorem registerOnStream_outcome {parseStr : String → Except String Uuid} {connector : Connector}
    {tunnel : Tunnel} {options : RegistrationOptions} {configurationJson : List UInt8}
    {tunnelIdentifier : Uuid} {trace : List (Program.Event (wire E))}
    {result : Except Error (ConnectionDetails × TunnelClient)}
    (hid : parseTunnelIdentifier parseStr tunnel.tunnelIdentifier = .ok tunnelIdentifier)
    (h : Exec (registerOnStream parseStr connector tunnel options configurationJson) trace result)
    (hw : AcceptsWrites trace) :
    (∀ details, (∃ client, result = .ok (details, client)) ↔
      Responded (readings trace) (.details details)) ∧
    ((callsOf methodUpdateLocalConfiguration (writes trace) =
          [⟨.updateLocalConfigurationParams configurationJson, []⟩] ∧
        ∃ details, Responded (readings trace) (.details details) ∧
          details.tunnelIsRemotelyManaged = false) ∨
      callsOf methodUpdateLocalConfiguration (writes trace) = [] ∧
        ∀ details, Responded (readings trace) (.details details) →
          details.tunnelIsRemotelyManaged = true) ∧
    (∀ e, Responded (readings trace) (.error e) → releases (writes trace) = 1 ∧
      ∃ error, result = .error error ∧
        ((∃ cause, error = .duplicateConnection cause) ↔ e.cause = duplicateConnectionCause) ∧
        (e.cause ≠ duplicateConnectionCause →
          (error.isPermanent = true ↔ e.shouldRetry = false))) ∧
    ∀ details client, result = .ok (details, client) → releases (writes trace) = 0 ∧
      ∀ trace', Exec (unregister (E := E) client) trace' () → AcceptsWrites trace' →
        ∃ question settled, writes trace' =
            .call question 0 registrationServerInterfaceId methodUnregisterConnection
              ⟨.unregisterConnectionParams, []⟩ :: settled ++ [.release 0 1] ∧
          releases settled = 0 := by
  have hrun := registerRun_of_exec hid h hw
  refine ⟨hrun.ok_iff, hrun.callsOf_update, fun e hresponded => ?_, fun details client hok => ?_⟩
  · obtain ⟨hresult, hreleases⟩ := hrun.rejected_of_responded hresponded
    exact ⟨hreleases, rejection e, hresult, rejection_duplicate_iff e, isPermanent_rejection_iff⟩
  · obtain ⟨hboot, hreleases⟩ := hrun.unreleased hok
    refine ⟨hreleases, fun trace' h' hw' => ?_⟩
    obtain ⟨reading, hwrites⟩ := unregister_accepted h' hw' hboot
    exact ⟨_, _, hwrites, releases_finishing ..⟩

/-- The details of a tunnel that is managed remotely, as they are read. -/
def managedReader : PayloadReader where
  content :=
    { capabilityReader.content with
      registerConnectionResults :=
        .ok (.ok (.ok (.connectionDetails (.ok ⟨.ok [1], .ok (.ok "sof07"), true⟩)))) }
  capTable := .ok []

/-- Registering such a tunnel. -/
def managedTrace : List (Program.Event (wire noEffects)) :=
  [wrote (.bootstrap 0) (.ok ()), gotten (.ok (returnRoot 0 capabilityReader)),
    wrote (.finish 0 false) (.ok ()),
    wrote (.call 1 0 registrationServerInterfaceId methodRegisterConnection
      ⟨.registerConnectionParams ⟨"account", [1, 2]⟩ (List.replicate 16 3) 0
        ⟨⟨List.replicate 16 7, [], "0.1.0", "linux/x86_64"⟩, [], false, 0, 0⟩, []⟩) (.ok ()),
    gotten (.ok (returnRoot 1 managedReader)), wrote (.finish 1 false) (.ok ())]

theorem registerOnStream_outcome_managed :
    Responded (readings managedTrace) (.details ⟨[1], "sof07", true⟩) := by
  have hexec : Exec (registerOnStream (fun _ => .ok ⟨List.replicate 16 3, rfl⟩)
      ⟨⟨List.replicate 16 7, rfl⟩, "0.1.0", "linux/x86_64"⟩ ⟨"tunnel", "account", [1, 2]⟩
      ⟨[], 0, []⟩ []) managedTrace (.ok (⟨[1], "sof07", true⟩, ⟨⟨2, true⟩⟩)) :=
    .request _ (.request _ (.request _ (.request _ (.request _ (.request _ (.done _))))))
  have hw : AcceptsWrites managedTrace := by
    apply acceptsWrites_wrote
    apply acceptsWrites_gotten
    apply acceptsWrites_wrote
    apply acceptsWrites_wrote
    apply acceptsWrites_gotten
    apply acceptsWrites_wrote
    exact acceptsWrites_nil
  exact ((registerOnStream_outcome rfl hexec hw).1 _).mp ⟨_, rfl⟩

end Control

end Libcfd.Edge
