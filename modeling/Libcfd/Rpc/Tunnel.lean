import Libcfd.Rpc.Client

/-!
# `TunnelClient`

The registration interface of the edge, over an `RpcClient`.
-/

namespace Libcfd.Rpc

open Program

variable {E : Signature}

/-- `REGISTRATION_SERVER_INTERFACE_ID`. -/
def registrationServerInterfaceId : UInt64 := 0xf71695ec7fe85497

/-- `METHOD_REGISTER_CONNECTION`. -/
def methodRegisterConnection : UInt16 := 0

/-- `METHOD_UNREGISTER_CONNECTION`. -/
def methodUnregisterConnection : UInt16 := 1

/-- `METHOD_UPDATE_LOCAL_CONFIGURATION`. -/
def methodUpdateLocalConfiguration : UInt16 := 2

structure ConnectionError where
  cause : String
  -- nanoseconds
  retryAfter : Int64
  shouldRetry : Bool
  deriving DecidableEq

structure ConnectionDetails where
  uuid : List UInt8
  locationName : String
  tunnelIsRemotelyManaged : Bool
  deriving DecidableEq

inductive ConnectionResponse where
  | error (error : ConnectionError)
  | details (details : ConnectionDetails)
  deriving DecidableEq

/-- The closure `register_connection` decodes its results with. -/
def decodeConnectionResponse (results : PayloadReader) : Except RpcError ConnectionResponse := do
  let results ← orCapnp results.content.registerConnectionResults
  let response ← orCapnp results
  match ← orNotInSchema response with
  | .error e =>
      let e ← orCapnp e
      return .error ⟨← toStr e.cause, e.retryAfter, e.shouldRetry⟩
  | .connectionDetails d =>
      let d ← orCapnp d
      let uuid ← orCapnp d.uuid
      return .details ⟨uuid, ← toStr d.locationName, d.tunnelIsRemotelyManaged⟩

/-- `TunnelClient` wraps the client and keeps no state of its own. -/
structure TunnelClient where
  rpc : RpcClient
  deriving DecidableEq, Repr

namespace TunnelClient

variable {α : Type}

/-- `self.rpc.…`. -/
def onRpc (p : ClientM E α) (client : TunnelClient) :
    Program (wire E) (Except RpcError α × TunnelClient) :=
  (p client.rpc).bind fun (result, rpc) => .done (result, ⟨rpc⟩)

def bootstrap : TunnelClient → Program (wire E) (Except RpcError Unit × TunnelClient) :=
  onRpc do
    let _ ← RpcClient.bootstrap
    return ()

def registerConnection (auth : TunnelAuth) (tunnelIdentifier : List UInt8)
    (connectionIndex : UInt8) (options : ConnectionOptions) :
    TunnelClient → Program (wire E) (Except RpcError ConnectionResponse × TunnelClient) :=
  onRpc (RpcClient.call 0 registrationServerInterfaceId methodRegisterConnection
    (.ok ⟨.registerConnectionParams auth tunnelIdentifier connectionIndex options, []⟩)
    decodeConnectionResponse)

def unregisterConnection :
    TunnelClient → Program (wire E) (Except RpcError Unit × TunnelClient) :=
  onRpc (RpcClient.call 0 registrationServerInterfaceId methodUnregisterConnection
    (.ok ⟨.unregisterConnectionParams, []⟩) fun _ => .ok ())

def updateLocalConfiguration (configuration : List UInt8) :
    TunnelClient → Program (wire E) (Except RpcError Unit × TunnelClient) :=
  onRpc (RpcClient.call 0 registrationServerInterfaceId methodUpdateLocalConfiguration
    (.ok ⟨.updateLocalConfigurationParams configuration, []⟩) fun _ => .ok ())

def intoInner (client : TunnelClient) : RpcClient := client.rpc

/-- The client is consumed. -/
def close (client : TunnelClient) : Program (wire E) (Except RpcError Unit) :=
  (RpcClient.close client.rpc).bind fun (result, _) => .done result

end TunnelClient

theorem requests_onRpc {α : Type} {P : (wire E).Op → Prop} {p : ClientM E α}
    (hp : ∀ client, (p client).Requests P) (client : TunnelClient) :
    (TunnelClient.onRpc p client).Requests P := by
  apply Requests.bind (hp client.rpc)
  intro value
  exact trivial

theorem once_onRpc {α : Type} {P : (wire E).Op → Prop} {p : ClientM E α}
    (hp : ∀ client, (p client).Once P) (client : TunnelClient) :
    (TunnelClient.onRpc p client).Once P := by
  apply Once.bind (hp client.rpc)
  intro value
  exact trivial

/-! ## A stream that accepts what is written -/

def AcceptsWrites (trace : List (Event (wire E))) : Prop :=
  ∀ message result, wrote message result ∈ trace → result = .ok ()

theorem acceptsWrites_append {trace trace' : List (Event (wire E))} :
    AcceptsWrites (trace ++ trace') ↔ AcceptsWrites trace ∧ AcceptsWrites trace' := by
  constructor
  · intro h
    exact ⟨fun message result hmem => h message result (List.mem_append_left _ hmem),
      fun message result hmem => h message result (List.mem_append_right _ hmem)⟩
  · rintro ⟨h, h'⟩ message result hmem
    rcases List.mem_append.mp hmem with hmem | hmem
    · exact h message result hmem
    · exact h' message result hmem

theorem acceptsWrites_nil : AcceptsWrites (E := E) [] :=
  fun _ _ h => absurd h List.not_mem_nil

theorem acceptsWrites_wrote {written : Message} {trace : List (Event (wire E))}
    (h : AcceptsWrites trace) : AcceptsWrites (wrote written (.ok ()) :: trace) := by
  intro message result hmem
  rcases List.mem_cons.mp hmem with heq | hmem
  · cases heq
    rfl
  · exact h message result hmem

theorem acceptsWrites_gotten {found : Except RpcError Root} {trace : List (Event (wire E))}
    (h : AcceptsWrites trace) : AcceptsWrites (gotten found :: trace) := by
  intro message result hmem
  rcases List.mem_cons.mp hmem with heq | hmem
  · exact absurd heq.symm (gotten_ne_wrote _ _ _)
  · exact h message result hmem

/-- What the reads came to. -/
def readings (trace : List (Event (wire E))) : List (Except RpcError Root) :=
  trace.filterMap fun
    | ⟨.read, result⟩ => some result
    | _ => none

@[simp] theorem readings_append (trace trace' : List (Event (wire E))) :
    readings (trace ++ trace') = readings trace ++ readings trace' :=
  List.filterMap_append

/-- The messages that were written, whatever came of it. -/
def writes (trace : List (Event (wire E))) : List Message :=
  trace.filterMap fun
    | ⟨.write message, _⟩ => some message
    | _ => none

@[simp] theorem writes_append (trace trace' : List (Event (wire E))) :
    writes (trace ++ trace') = writes trace ++ writes trace' :=
  List.filterMap_append

section Accepted

variable {α γ : Type} {question : UInt32} {message : Message} {decode : Root → Except RpcError γ}
  {release : γ → Bool} {conclude : γ → Except RpcError α} {client client' : RpcClient}
  {settle : γ → RpcClient} {trace : List (Event (wire E))} {result : Except RpcError α}

/-- The finish that follows what was made of the answer. -/
def finishing (question : UInt32) (release : γ → Bool) : Except RpcError γ → List Message
  | .ok outcome => [.finish question (release outcome)]
  | .error _ => []

/-- With its writes accepted an exchange depends on the one thing it reads. -/
theorem Exchanged.accepted
    (h : Exchanged question message decode release conclude client settle trace result client')
    (hw : AcceptsWrites trace) :
    ∃ answer, readings trace = [answer] ∧
      writes trace = message :: finishing question release (answer >>= decode) ∧
      result = (answer >>= decode >>= conclude) ∧
      (∀ outcome, (answer >>= decode) = .ok outcome → client' = settle outcome) ∧
      ∀ e, (answer >>= decode) = .error e → client' = client := by
  cases h with
  | unsent e =>
      have hok := hw message (.error e) List.mem_cons_self
      cases hok
  | unanswered e => exact ⟨.error e, rfl, rfl, rfl, nofun, fun _ _ => rfl⟩
  | @undecoded root e h =>
      refine ⟨.ok root, rfl, ?_, ?_, ?_, fun _ _ => rfl⟩
      · rw [ok_bind, h]
        rfl
      · rw [ok_bind, h]
        rfl
      · rw [ok_bind, h]
        exact nofun
  | @unfinished root outcome h e =>
      have hok := hw (.finish question (release outcome)) (.error e)
        (List.mem_cons_of_mem _ (List.mem_cons_of_mem _ List.mem_cons_self))
      cases hok
  | @finished root outcome h =>
      refine ⟨.ok root, rfl, ?_, ?_, ?_, ?_⟩
      · rw [ok_bind, h]
        rfl
      · rw [ok_bind, h]
        rfl
      · rw [ok_bind, h]
        rintro outcome' ⟨⟩
        rfl
      · rw [ok_bind, h]
        exact nofun

end Accepted

/-! ### The operations -/

theorem exec_onRpc {α : Type} {p : ClientM E α} {client client' : TunnelClient}
    {trace : List (Event (wire E))} {result : Except RpcError α}
    (h : Exec (TunnelClient.onRpc p client) trace (result, client')) :
    Exec (p client.rpc) trace (result, client'.rpc) := by
  obtain ⟨first, ⟨inner, rpc⟩, second, rfl, hp, hdone⟩ := exec_bind_iff.mp h
  obtain ⟨rfl, heq⟩ := exec_done_iff.mp hdone
  cases heq
  rwa [List.append_nil]

section Operations

variable {α : Type} {rpc rpc' : RpcClient} {trace : List (Event (wire E))}

theorem bootstrap_accepted {result : Except RpcError UInt32}
    (h : Exec (RpcClient.bootstrap rpc) trace (result, rpc')) (hw : AcceptsWrites trace)
    (hfresh : rpc.hasBootstrap = false) :
    ∃ answer, readings trace = [answer] ∧
      writes trace = .bootstrap rpc.nextQuestion :: finishing rpc.nextQuestion
        BootstrapOutcome.releases (answer >>= (decodeBootstrap · rpc.nextQuestion)) ∧
      (((answer >>= (decodeBootstrap · rpc.nextQuestion)) = .ok .capability ∧
          result = .ok 0 ∧ rpc' = ⟨rpc.nextQuestion + 1, true⟩) ∨
        ((answer >>= (decodeBootstrap · rpc.nextQuestion)) ≠ .ok .capability ∧
          ∃ e, result = .error e)) := by
  rw [bootstrap_eq hfresh] at h
  obtain ⟨answer, hread, hwrite, hresult, hsettle, _⟩ := (exchanged_of_exec h).accepted hw
  refine ⟨answer, hread, hwrite, ?_⟩
  generalize (answer >>= (decodeBootstrap · rpc.nextQuestion)) = reading at hresult hsettle
  cases reading with
  | error e => exact .inr ⟨nofun, e, hresult⟩
  | ok outcome =>
      cases outcome with
      | capability => exact .inl ⟨rfl, hresult, hsettle _ rfl⟩
      | exception reason => exact .inr ⟨nofun, _, hresult⟩
      | noCapability => exact .inr ⟨nofun, _, hresult⟩
      | unexpectedKind => exact .inr ⟨nofun, _, hresult⟩

theorem call_accepted {importIdentifier : UInt32} {interfaceIdentifier : UInt64}
    {methodIdentifier : UInt16} {params : Payload} {decode : PayloadReader → Except RpcError α}
    {result : Except RpcError α}
    (h : Exec (RpcClient.call importIdentifier interfaceIdentifier methodIdentifier (.ok params)
      decode rpc) trace (result, rpc')) (hw : AcceptsWrites trace)
    (hboot : rpc.hasBootstrap = true) :
    ∃ answer, readings trace = [answer] ∧
      writes trace = .call rpc.nextQuestion importIdentifier interfaceIdentifier methodIdentifier
        params :: finishing rpc.nextQuestion CallOutcome.releases
          (answer >>= (decodeCall · rpc.nextQuestion decode)) ∧
      result = (answer >>= (decodeCall · rpc.nextQuestion decode) >>= CallOutcome.conclude) ∧
      rpc' = rpc.countQuestion := by
  rw [call_eq _ _ _ _ hboot] at h
  obtain ⟨answer, hread, hwrite, hresult, hsettle, hclient⟩ := (exchanged_of_exec h).accepted hw
  refine ⟨answer, hread, hwrite, hresult, ?_⟩
  cases hreading : answer >>= (decodeCall · rpc.nextQuestion decode) with
  | error e => exact hclient e hreading
  | ok outcome => exact hsettle outcome hreading

/-- A call returns the value of its return, or an error. -/
theorem conclude_cases (reading : Except RpcError (CallOutcome α)) :
    (∃ value, reading = .ok (.value value) ∧
        (reading >>= CallOutcome.conclude) = .ok value) ∨
      (∀ value, reading ≠ .ok (.value value)) ∧
        ∃ e, (reading >>= CallOutcome.conclude) = .error e := by
  cases reading with
  | error e => exact .inr ⟨fun _ => nofun, e, rfl⟩
  | ok outcome =>
      cases outcome with
      | value result => exact .inl ⟨result, rfl, rfl⟩
      | exception reason => exact .inr ⟨fun _ => nofun, _, rfl⟩
      | unexpectedKind => exact .inr ⟨fun _ => nofun, _, rfl⟩

end Operations

/-- A client is closed before something is returned. -/
theorem exec_close_done {α : Type} {client : TunnelClient} {trace : List (Event (wire E))}
    {value result : α}
    (h : Exec ((TunnelClient.close client).bind fun _ => .done value) trace result)
    (hboot : client.rpc.hasBootstrap = true) :
    readings trace = [] ∧ writes trace = [.release 0 1] ∧ result = value := by
  obtain ⟨first, closed, last, rfl, hfirst, hlast⟩ := exec_bind_iff.mp h
  obtain ⟨close, ⟨_, _⟩, after, rfl, hclose, hafter⟩ := exec_bind_iff.mp hfirst
  obtain ⟨rfl, rfl⟩ := exec_done_iff.mp hlast
  obtain ⟨rfl, _⟩ := exec_done_iff.mp hafter
  rw [List.append_nil, List.append_nil]
  rcases exec_close hclose with ⟨hnot, _⟩ | ⟨_, sent, rfl⟩
  · rw [hboot] at hnot
    cases hnot
  · exact ⟨rfl, rfl, rfl⟩

end Libcfd.Rpc
