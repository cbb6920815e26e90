import Libcfd.Rpc.Tunnel

/-!
# Which capability a tunnel client addresses

A peer exports its main interface under an id of its own choice, which the return to the bootstrap
carries. The client does not look at it: it tracks the bootstrapped capability as import id 0, calls
on that id and releases that id.
-/

namespace Libcfd.Rpc

open Program

variable {E : Signature}

/-! ## The peer's choice -/

/-- The return to the question hands out a capability under this id. -/
structure HandsOut (root : Root) (question identifier : UInt32) : Prop where
  handed : ∃ (ret : ReturnReader) (payload : PayloadReader) (desc : CapDescriptor)
    (rest : List (Except NotInSchema CapDescriptor)),
    root = .ok (.ok (.ret (.ok ret))) ∧ ret.answerId = question ∧
      ret.which = .ok (.results (.ok payload)) ∧ payload.capTable = .ok (.ok desc :: rest) ∧
        (desc = .senderHosted identifier ∨ desc = .senderPromise identifier)

theorem decodeBootstrap_of_handsOut {root : Root} {question identifier : UInt32}
    (h : HandsOut root question identifier) : decodeBootstrap root question = .ok .capability := by
  obtain ⟨ret, payload, desc, rest, hroot, hanswer, hwhich, htable, hdesc⟩ := h.handed
  rw [decodeBootstrap, expectReturn_eq_ok.mpr ⟨hroot, hanswer⟩, ok_bind, hwhich]
  show (orCapnp payload.capTable >>= _) = _
  rw [htable]
  rcases hdesc with rfl | rfl
  · rfl
  · rfl

/-- The message addresses the capability under this id, and releases it once, if it does either. -/
def Message.Addresses (identifier : UInt32) : Message → Prop
  | .call _ target _ _ _ => target = identifier
  | .release released count => released = identifier ∧ count = 1
  | _ => True

def Message.isRelease : Message → Bool
  | .release .. => true
  | _ => false

/-- A request of the stream that writes no other message. -/
def WritesTo (identifier : UInt32) : (wire E).Op → Prop
  | .write message => message.Addresses identifier
  | _ => True

/-! ## What a tunnel client does with it -/

inductive TunnelCall where
  | registerConnection (auth : TunnelAuth) (tunnelIdentifier : List UInt8)
      (connectionIndex : UInt8) (options : ConnectionOptions)
  | unregisterConnection
  | updateLocalConfiguration (configuration : List UInt8)

namespace TunnelClient

/-- The client after the call; what the call returns is the caller's. -/
def perform (client : TunnelClient) : TunnelCall → Program (wire E) TunnelClient
  | .registerConnection auth tunnelIdentifier connectionIndex options =>
      (client.registerConnection auth tunnelIdentifier connectionIndex options).bind fun
        | (_, client) => .done client
  | .unregisterConnection => client.unregisterConnection.bind fun (_, client) => .done client
  | .updateLocalConfiguration configuration =>
      (client.updateLocalConfiguration configuration).bind fun (_, client) => .done client

/-- Calls, and in the end `close` or `into_inner`. -/
def use (closing : Bool) : List TunnelCall → TunnelClient → Program (wire E) Unit
  | [], client => if closing then client.close.bind fun _ => .done () else .done ()
  | call :: calls, client => (client.perform call).bind (use closing calls)

end TunnelClient

theorem requests_perform (client : TunnelClient) (call : TunnelCall) :
    (client.perform (E := E) call).Requests (WritesTo 0) := by
  have hrpc : ∀ {α : Type} (method : UInt16) (params : Payload)
      (decode : PayloadReader → Except RpcError α),
      (TunnelClient.onRpc (E := E) (RpcClient.call 0 registrationServerInterfaceId method
        (.ok params) decode) client).Requests (WritesTo 0) := by
    intro α method params decode
    exact requests_onRpc (requests_call trivial (fun _ => rfl) fun _ _ => trivial) client
  cases call with
  | registerConnection => exact Requests.bind (hrpc ..) fun _ => trivial
  | unregisterConnection => exact Requests.bind (hrpc ..) fun _ => trivial
  | updateLocalConfiguration => exact Requests.bind (hrpc ..) fun _ => trivial

theorem requests_use (closing : Bool) (calls : List TunnelCall) (client : TunnelClient) :
    (TunnelClient.use (E := E) closing calls client).Requests (WritesTo 0) := by
  induction calls generalizing client with
  | nil =>
      cases closing with
      | false => exact trivial
      | true =>
          apply Requests.bind
          · exact Requests.bind (requests_close ⟨rfl, rfl⟩ client.rpc) fun _ => trivial
          · exact fun _ => trivial
  | cons call calls ih => exact Requests.bind (requests_perform client call) ih

theorem addresses_of_exec_use {closing : Bool} {calls : List TunnelCall} {client : TunnelClient}
    {trace : List (Event (wire E))} (h : Exec (TunnelClient.use closing calls client) trace ()) :
    ∀ message ∈ writes trace, message.Addresses 0 := by
  intro message hmessage
  obtain ⟨⟨op, reply⟩, hevent, hwrite⟩ := List.mem_filterMap.mp hmessage
  have hto := (requests_use closing calls client).of_exec h _ hevent
  cases op with
  | write written =>
      obtain rfl : written = message := Option.some.inj hwrite
      exact hto
  | read => nomatch hwrite
  | effect => nomatch hwrite

/-! ## What it releases -/

/-- An exchange over a call releases nothing. -/
theorem Exchanged.filter_isRelease {α γ : Type} {question target : UInt32} {interfaceId : UInt64}
    {methodId : UInt16} {params : Payload} {decode : Root → Except RpcError γ}
    {release : γ → Bool} {conclude : γ → Except RpcError α} {client client' : RpcClient}
    {trace : List (Event (wire E))} {result : Except RpcError α}
    (h : Exchanged question (.call question target interfaceId methodId params) decode release
      conclude client (fun _ => client) trace result client') :
    (writes trace).filter Message.isRelease = [] ∧ client' = client := by
  cases h with
  | unsent | unanswered | undecoded | unfinished | finished => exact ⟨rfl, rfl⟩

theorem exec_perform {call : TunnelCall} {client client' : TunnelClient}
    {trace : List (Event (wire E))} (h : Exec (client.perform call) trace client')
    (hboot : client.rpc.hasBootstrap = true) :
    (writes trace).filter Message.isRelease = [] ∧ client'.rpc.hasBootstrap = true := by
  have hrpc : ∀ {α : Type} {method : UInt16} {params : Payload}
      {decode : PayloadReader → Except RpcError α},
      Exec ((TunnelClient.onRpc (E := E) (RpcClient.call 0 registrationServerInterfaceId method
        (.ok params) decode) client).bind fun (_, client) => .done client) trace client' →
        (writes trace).filter Message.isRelease = [] ∧ client'.rpc.hasBootstrap = true := by
    intro α method params decode h
    obtain ⟨first, ⟨result, last⟩, second, rfl, hfirst, hlast⟩ := exec_bind_iff.mp h
    obtain ⟨rfl, rfl⟩ := exec_done_iff.mp hlast
    have hcall := exec_onRpc hfirst
    rw [call_eq _ _ _ _ hboot] at hcall
    obtain ⟨hnone, hclient⟩ := (exchanged_of_exec hcall).filter_isRelease
    rw [List.append_nil]
    refine ⟨hnone, ?_⟩
    rw [hclient]
    exact hboot
  cases call with
  | registerConnection => exact hrpc h
  | unregisterConnection => exact hrpc h
  | updateLocalConfiguration => exact hrpc h

/-- `close` releases once, `into_inner` does not, and nothing else does. -/
theorem exec_use {closing : Bool} {calls : List TunnelCall} {client : TunnelClient}
    {trace : List (Event (wire E))} (h : Exec (TunnelClient.use closing calls client) trace ())
    (hboot : client.rpc.hasBootstrap = true) :
    (writes trace).filter Message.isRelease = if closing then [.release 0 1] else [] := by
  induction calls generalizing client trace with
  | nil =>
      cases closing with
      | false =>
          obtain ⟨rfl, _⟩ := exec_done_iff.mp h
          rfl
      | true =>
          have hclose : Exec ((TunnelClient.close client).bind fun _ => .done ()) trace () := h
          obtain ⟨_, hwrites, _⟩ := exec_close_done hclose hboot
          rw [hwrites]
          rfl
  | cons call calls ih =>
      obtain ⟨first, client', rest, rfl, hfirst, hrest⟩ := exec_bind_iff.mp h
      obtain ⟨hnone, hboot'⟩ := exec_perform hfirst hboot
      rw [writes_append, List.filter_append, hnone, List.nil_append]
      exact ih hrest hboot'

/-! ## The id is 0 -/

theorem exec_tunnel_bootstrap {client client' : TunnelClient} {trace : List (Event (wire E))}
    {result : Except RpcError Unit} (h : Exec (client.bootstrap) trace (result, client')) :
    ∃ booted, Exec (RpcClient.bootstrap client.rpc) trace (booted, client'.rpc) ∧
      result = booted.map fun _ => () :=
  exec_map (exec_onRpc h)

/-- The client has a capability once the return is decoded, even if its `finish` is not sent. -/
theorem exec_bootstrap_of_handsOut {rpc rpc' : RpcClient} {root : Root} {identifier : UInt32}
    {trace : List (Event (wire E))} {booted : Except RpcError UInt32}
    (hnew : rpc.hasBootstrap = false)
    (hboot : Exec (RpcClient.bootstrap rpc) trace (booted, rpc'))
    (hread : readings trace = [.ok root]) (hout : HandsOut root rpc.nextQuestion identifier) :
    rpc'.hasBootstrap = true ∧ (AcceptsWrites trace → booted = .ok 0) ∧
      ∀ returned, booted = .ok returned → returned = 0 := by
  have hdecode := decodeBootstrap_of_handsOut hout
  rw [bootstrap_eq hnew] at hboot
  cases exchanged_of_exec hboot with
  | unsent e => cases hread
  | unanswered e => cases hread
  | undecoded h =>
      cases hread
      cases h.symm.trans hdecode
  | unfinished h e =>
      cases hread
      cases h.symm.trans hdecode
      refine ⟨rfl, fun hw => ?_, fun returned => nofun⟩
      cases hw _ _ (List.mem_cons_of_mem _ (List.mem_cons_of_mem _ List.mem_cons_self))
  | finished h =>
      cases hread
      cases h.symm.trans hdecode
      refine ⟨rfl, fun _ => rfl, fun returned hreturned => ?_⟩
      cases hreturned
      rfl

/-- **The bootstrapped capability is import id 0**, whatever id the peer has handed it out under: the
bootstrap returns 0, every call targets 0, `close` releases 0 once. So the client addresses the
capability it was handed if and only if the peer's id is 0. -/
theorem addresses_zero {rpc : RpcClient} {client : TunnelClient} {root : Root}
    {identifier : UInt32} {first rest : List (Event (wire E))} {result : Except RpcError Unit}
    {calls : List TunnelCall} {closing : Bool} (hnew : rpc.hasBootstrap = false)
    (hboot : Exec (TunnelClient.bootstrap ⟨rpc⟩) first (result, client))
    (hread : readings first = [.ok root]) (hout : HandsOut root rpc.nextQuestion identifier)
    (huse : Exec (client.use closing calls) rest ()) :
    ∃ booted, Exec (RpcClient.bootstrap rpc) first (booted, client.rpc) ∧
      result = booted.map (fun _ => ()) ∧ (AcceptsWrites first → booted = .ok 0) ∧
      (∀ message ∈ writes rest, message.Addresses 0) ∧
      (writes rest).filter Message.isRelease = (if closing then [.release 0 1] else []) ∧
      ∀ returned, booted = .ok returned →
        (returned = identifier ∧ (∀ message ∈ writes rest, message.Addresses identifier) ↔
          identifier = 0) := by
  obtain ⟨booted, hbooted, hresult⟩ := exec_tunnel_bootstrap hboot
  obtain ⟨hhas, haccepted, hzero⟩ := exec_bootstrap_of_handsOut hnew hbooted hread hout
  have haddresses := addresses_of_exec_use huse
  refine ⟨booted, hbooted, hresult, haccepted, haddresses, exec_use huse hhas, ?_⟩
  intro returned hreturned
  rw [hzero returned hreturned]
  constructor
  · rintro ⟨hid, _⟩
    exact hid.symm
  · rintro rfl
    exact ⟨rfl, haddresses⟩

/-! ## A peer that exports its interface as 7 -/

def sevenReader : PayloadReader :=
  { capabilityReader with capTable := .ok [.ok (.senderHosted 7)] }

theorem handsOut_seven : HandsOut (returnRoot 0 sevenReader) 0 7 :=
  ⟨_, sevenReader, .senderHosted 7, [], rfl, rfl, rfl, rfl, .inl rfl⟩

def sevenBootstrap : List (Event (wire noEffects)) :=
  [wrote (.bootstrap 0) (.ok ()), gotten (.ok (returnRoot 0 sevenReader)),
    wrote (.finish 0 false) (.ok ())]

/-- Unregister, then close. -/
def sevenUse : List (Event (wire noEffects)) :=
  [wrote (.call 1 0 registrationServerInterfaceId methodUnregisterConnection
      ⟨.unregisterConnectionParams, []⟩) (.ok ()),
    gotten (.ok (returnRoot 1 capabilityReader)), wrote (.finish 1 false) (.ok ()),
    wrote (.release 0 1) (.ok ())]

theorem exec_sevenBootstrap :
    Exec (TunnelClient.bootstrap ⟨.new⟩) sevenBootstrap (.ok (), ⟨⟨1, true⟩⟩) :=
  .request _ (.request _ (.request _ (.done _)))

theorem exec_sevenUse :
    Exec (TunnelClient.use true [.unregisterConnection] ⟨⟨1, true⟩⟩) sevenUse () :=
  .request _ (.request _ (.request _ (.request _ (.done _))))

theorem addresses_zero_seven :
    (writes sevenUse).filter Message.isRelease = [.release 0 1] ∧
      ∃ booted, Exec (RpcClient.bootstrap (E := noEffects) .new) sevenBootstrap
        (booted, ⟨1, true⟩) := by
  obtain ⟨booted, hbooted, _, _, _, hreleases, _⟩ :=
    addresses_zero rfl exec_sevenBootstrap rfl handsOut_seven exec_sevenUse
  exact ⟨hreleases, booted, hbooted⟩

/-- The bootstrap returns 0, and the call that follows is not addressed to 7. -/
theorem not_addresses_seven :
    HandsOut (returnRoot 0 sevenReader) 0 7 ∧
      Exec (RpcClient.bootstrap (E := noEffects) .new) sevenBootstrap (.ok 0, ⟨1, true⟩) ∧
      Exec (TunnelClient.use true [.unregisterConnection] ⟨⟨1, true⟩⟩) sevenUse () ∧
      ∃ message ∈ writes sevenUse, ¬ message.Addresses 7 := by
  refine ⟨handsOut_seven, ?_, exec_sevenUse, ?_⟩
  · exact .request _ (.request _ (.request _ (.done _)))
  · refine ⟨_, List.mem_cons_self, fun h => ?_⟩
    have hzero : (0 : UInt32) = 7 := h
    exact absurd hzero (by decide)

end Libcfd.Rpc
