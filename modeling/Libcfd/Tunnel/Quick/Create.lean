import Libcfd.Edge.Discovery
import Libcfd.Foundation.Monitor
import Libcfd.Tunnel.Quick.Truncated

/-!
# Creating a quick tunnel

`create_quick_tunnel` asks the service for a tunnel and takes what it answers apart: the response by
its headers, its body by `serde_json`. The parser of responses does not notice that a body was cut
short. What is left of a cut body is no longer the text of an object though, so the two together
create the tunnel the service has described, or none.
-/

namespace Libcfd.Tunnel.Quick

open Program
open Libcfd.Edge.Discovery (fromUtf8Lossy)
open Libcfd.Origin (utf8)
open Libcfd.Rpc (IoError)
open Libcfd.Text

/-! ## The tunnel and the answer -/

structure QuickTunnel where
  tunnelIdentifier : String
  name : String
  hostname : String
  accountTag : String
  secret : List UInt8
  deriving DecidableEq

/-- What an answer leaves out is empty. -/
structure QuickTunnelResult where
  identifier : String := ""
  name : String := ""
  hostname : String := ""
  accountTag : String := ""
  secret : List UInt8 := []

structure QuickTunnelError where
  code : Int := 0
  message : String := ""

structure QuickTunnelResponse where
  success : Bool := false
  result : Option QuickTunnelResult := none
  errors : List QuickTunnelError := []

/-- `tunnel::Error`, with the two that sending the request ends with. -/
inductive ApiError where
  | quickTunnelApi (message : String)
  | quickTunnelRequest (error : IoError)
  | other (error : Error)
  deriving DecidableEq

def ApiError.quickTunnelResponse (message : String) : ApiError :=
  .other (.quickTunnelResponse message)

/-! ## The crates -/

/-- The parts of a `http::Uri`. -/
structure ApiUri where
  scheme : Option String
  host : Option String
  port : Option UInt16
  path : String
  query : Option String

/-- What `http`, `rustls` and `serde_json` make of a text, and the version of this crate. -/
structure ApiCrates where
  ServerName : Type
  uri : String → Except String ApiUri
  serverName : String → Except String ServerName
  fromSlice : List UInt8 → Except String QuickTunnelResponse
  version : String

section

variable (K : ApiCrates)

/-! ## The request -/

/-- Where the request goes, and what is asked for there. -/
structure ApiTarget where
  host : String
  port : UInt16
  path : String
  query : String
  serverName : K.ServerName

def apiTarget (url : String) : Except ApiError (ApiTarget K) :=
  match K.uri url with
  | .error e => .error (.quickTunnelResponse ("invalid api url: " ++ e))
  | .ok uri =>
      let scheme := uri.scheme.getD "https"
      if scheme ≠ "https" then .error (.quickTunnelResponse ("unsupported scheme " ++ scheme))
      else
        match uri.host with
        | none => .error (.quickTunnelResponse "missing host")
        | some host =>
            match K.serverName host with
            | .error e => .error (.quickTunnelResponse ("invalid host: " ++ e))
            | .ok serverName =>
                .ok
                  { host := host
                    port := uri.port.getD 443
                    path := if uri.path.isEmpty then "/" else uri.path
                    query := (uri.query.map ("?" ++ ·)).getD ""
                    serverName := serverName }

variable {K}

/-- The request as it is sent. -/
def ApiTarget.request (target : ApiTarget K) (headers : List (String × String)) : List UInt8 :=
  utf8 ("POST " ++ target.path ++ target.query ++ " HTTP/1.1\r\nHost: " ++ target.host ++
    "\r\nContent-Type: application/json\r\nContent-Length: 0\r\nConnection: close\r\n" ++
    String.join (headers.map fun (name, value) => name ++ ": " ++ value ++ "\r\n") ++ "\r\n")

/-! ## The exchange -/

/-- What is asked of the system and of the TLS crate. -/
inductive ApiOp (ServerName Address : Type) where
  | lookupHost (host : String) (port : UInt16)
  -- these two and the last under the timeout
  | connect (address : Address)
  | handshake (serverName : ServerName)
  | writeAll (bytes : List UInt8)
  | flush
  | readToEnd

def api (ServerName Address : Type) : Signature where
  Op := ApiOp ServerName Address
  Reply
    | .lookupHost .. => Except IoError (List Address)
    | .connect _ => Option (Except IoError Unit)
    | .handshake _ => Option (Except IoError Unit)
    | .writeAll _ => Except IoError Unit
    | .flush => Except IoError Unit
    | .readToEnd => Option (Except IoError (List UInt8))

variable {Address : Type}

/-- `post_empty` from its connection on. -/
def postOver (target : ApiTarget K) (headers : List (String × String)) :
    Program (api K.ServerName Address) (Except ApiError (Nat × List UInt8)) :=
  .request (.handshake target.serverName) fun
    | none => .done (.error (.quickTunnelApi "tls handshake timed out"))
    | some (.error e) => .done (.error (.quickTunnelRequest e))
    | some (.ok ()) =>
        .request (.writeAll (target.request headers)) fun
          | .error e => .done (.error (.quickTunnelRequest e))
          | .ok () =>
              .request .flush fun
                | .error e => .done (.error (.quickTunnelRequest e))
                | .ok () =>
                    .request .readToEnd fun
                      | none => .done (.error (.quickTunnelApi "response timed out"))
                      | some (.error e) => .done (.error (.quickTunnelRequest e))
                      | some (.ok received) =>
                          .done ((postEmptyResult received).mapError .other)

variable (K)

def postEmpty (url : String) (headers : List (String × String)) :
    Program (api K.ServerName Address) (Except ApiError (Nat × List UInt8)) :=
  match apiTarget K url with
  | .error e => .done (.error e)
  | .ok target =>
      .request (.lookupHost target.host target.port) fun
        | .error e => .done (.error (.quickTunnelRequest e))
        | .ok [] =>
            .done (.error (.quickTunnelResponse
              ("could not resolve " ++ target.host ++ ":" ++ toString target.port)))
        | .ok (address :: _) =>
            .request (.connect address) fun
              | none => .done (.error (.quickTunnelApi "connection timed out"))
              | some (.error e) => .done (.error (.quickTunnelRequest e))
              | some (.ok ()) => postOver target headers

/-! ## The answer -/

def QuickTunnelResult.tunnel (result : QuickTunnelResult) : QuickTunnel :=
  ⟨result.identifier, result.name, result.hostname, result.accountTag, result.secret⟩

def parseResponse (body : List UInt8) : Except ApiError QuickTunnel :=
  match K.fromSlice body with
  | .error e => .error (.quickTunnelResponse e)
  | .ok data =>
      if data.success = false then
        .error (.quickTunnelApi (match data.errors with
          | e :: _ => toString e.code ++ ": " ++ e.message
          | [] => "unknown error"))
      else
        match data.result with
        | none => .error (.quickTunnelResponse "response has no result")
        | some result =>
            if result.identifier.isEmpty || result.hostname.isEmpty then
              .error (.quickTunnelResponse "response result is missing id or hostname")
            else .ok result.tunnel

/-- What `create_quick_tunnel` makes of a response. -/
def createdBy : Except ApiError (Nat × List UInt8) → Except ApiError QuickTunnel
  | .error e => .error e
  | .ok (status, body) =>
      if status ≥ 300 then
        .error (.quickTunnelApi
          ("service returned status " ++ toString status ++ ": " ++ fromUtf8Lossy body))
      else parseResponse K body

/-- `format!("{}/tunnel", service_url.trim_end_matches('/'))`. -/
def apiUrl (serviceUrl : String) : String :=
  String.ofList (serviceUrl.toList.rdropWhile (· == '/')) ++ "/tunnel"

def createQuickTunnel (serviceUrl : String) :
    Program (api K.ServerName Address) (Except ApiError QuickTunnel) :=
  (postEmpty K (apiUrl serviceUrl) [("user-agent", "cloudflared/" ++ K.version)]).bind fun answer =>
    .done (createdBy K answer)

end

/-! ## A response that has arrived in part -/

theorem headerEnd_of_length_lt {bytes : List UInt8} (h : bytes.length < 4) :
    headerEnd bytes = none := by
  induction bytes with
  | nil => rfl
  | cons b bytes ih =>
      have hnot : ¬ [13, 10, 13, 10].isPrefixOf (b :: bytes) = true := by
        intro hprefix
        have hle := (List.isPrefixOf_iff_prefix.mp hprefix).length_le
        exact absurd h (Nat.not_lt_of_le hle)
      rw [headerEnd, if_neg hnot, ih (Nat.lt_of_succ_lt h)]
      rfl

/-- Before the blank line is there, no start of the bytes has a blank line in it. -/
theorem headerEnd_take {bytes : List UInt8} {n k : Nat} (h : headerEnd bytes = some n)
    (hk : k < n + 4) : headerEnd (bytes.take k) = none := by
  induction bytes generalizing n k with
  | nil => cases h
  | cons b bytes ih =>
      cases k with
      | zero => rfl
      | succ k =>
          by_cases hprefix : [13, 10, 13, 10].isPrefixOf (b :: bytes) = true
          · rw [headerEnd, if_pos hprefix] at h
            cases h
            apply headerEnd_of_length_lt
            rw [List.length_take]
            omega
          · rw [headerEnd, if_neg hprefix] at h
            obtain ⟨m, hm, rfl⟩ := Option.map_eq_some_iff.mp h
            have hnot : ¬ [13, 10, 13, 10].isPrefixOf (b :: bytes.take k) = true := by
              intro htake
              apply hprefix
              have hstart := List.isPrefixOf_iff_prefix.mp htake
              exact List.isPrefixOf_iff_prefix.mpr
                (hstart.trans (List.prefix_cons_inj b |>.mpr (List.take_prefix k bytes)))
            rw [List.take_succ_cons, headerEnd, if_neg hnot, ih hm (by omega)]
            rfl

namespace Response

variable (response : Response)

/-- The bytes up to the body. -/
def headLength : Nat := (utf8 (String.ofList response.head)).length + 4

/-- What the parser makes of the head and of a piece that follows it. -/
theorem postEmptyResult_head (piece : List UInt8) :
    postEmptyResult (utf8 (String.ofList response.head) ++ 13 :: 10 :: 13 :: 10 :: piece) =
      .ok (response.status,
        cutBody (if ∃ header ∈ response.headers, header.IsContentLength then
          some response.body.length else none) piece) := by
  obtain ⟨headers, hparse⟩ := parseHttpResponse_of_head (headOf_head response piece)
    (fromUtf8_utf8 _) (statusOf_head response)
  rw [postEmptyResult, hparse, bodyOf_head, headerLines_head,
    foldl_line response.isUsize response.contentLength]
  rfl

/-- Of a response that is cut off, and of one that more follows if a header gives its length, the
parser takes the head for granted once it is there, and as much of the body as there is. -/
theorem postEmptyResult_take {extra : List UInt8}
    (hextra : extra ≠ [] → ∃ header ∈ response.headers, header.IsContentLength) (k : Nat) :
    postEmptyResult ((response.bytes ++ extra).take k) =
      if k < response.headLength then .error (.quickTunnelResponse "missing response headers")
      else .ok (response.status, response.body.take (k - response.headLength)) := by
  have hbytes : response.bytes ++ extra =
      utf8 (String.ofList response.head) ++ 13 :: 10 :: 13 :: 10 :: (response.body ++ extra) := by
    rw [response.bytes_eq, List.append_assoc]
    rfl
  split
  · next hk =>
      have hnone : headerEnd ((response.bytes ++ extra).take k) = none :=
        headerEnd_take (response.headerEnd_bytes extra) hk
      rw [postEmptyResult, parseHttpResponse, hnone]
      rfl
  · next hk =>
      obtain ⟨j, rfl⟩ := Nat.exists_eq_add_of_le (Nat.le_of_not_lt hk)
      have htake : (response.bytes ++ extra).take (response.headLength + j) =
          utf8 (String.ofList response.head) ++
            13 :: 10 :: 13 :: 10 :: (response.body ++ extra).take j := by
        have hhead : response.headLength + j =
            (utf8 (String.ofList response.head)).length + (j + 4) := by
          rw [headLength]
          omega
        rw [hbytes, hhead, List.take_length_add_append]
        rfl
      rw [htake, postEmptyResult_head, Nat.add_sub_cancel_left]
      congr 2
      split
      · next hlength =>
          rw [cutBody, List.length_take, List.length_append]
          split
          · next hle =>
              rw [List.take_take, Nat.min_eq_left (by omega), List.take_left,
                List.take_of_length_le (by omega)]
          · next hlt =>
              rw [List.take_append_of_le_length (by omega)]
      · next hlength =>
          have hnil : extra = [] := by
            by_contra hne
            exact hlength (hextra hne)
          rw [cutBody, hnil, List.append_nil]

end Response

/-! ## Which requests there are, and in which order -/

/-- How far an exchange has come: `posted` is what was given to `write_all`, and `written` says that
it has gone through. -/
structure Exchange (ServerName : Type) where
  secured : Option ServerName := none
  posted : Option (List UInt8) := none
  written : Bool := false
  received : Option (List UInt8) := none

/-- Something is written once only, after a handshake, and no more is tried when that fails;
something is read only after it was written, and once only. -/
def exchange (ServerName Address : Type) : Monitor (api ServerName Address) where
  State := Exchange ServerName
  allows s
    | .lookupHost .. | .connect _ | .handshake _ => s.secured = none
    | .writeAll _ => s.secured.isSome = true ∧ s.posted = none
    | .flush | .readToEnd => s.written = true ∧ s.received = none
  next s
    | .handshake serverName, some (.ok ()) => { s with secured := some serverName }
    | .writeAll bytes, .ok () => { s with posted := some bytes, written := true }
    | .writeAll bytes, .error _ => { s with posted := some bytes }
    | .readToEnd, some (.ok bytes) => { s with received := some bytes }
    | _, _ => s

section Exchange

variable {K : ApiCrates} {Address : Type} {url : String} {headers : List (String × String)}

/-- What `post_empty` returns is what was received, taken apart; without it there is an error. What
was posted is the request, to a server that has proved to be the one of the target. -/
structure Posted (url : String) (headers : List (String × String)) (s : Exchange K.ServerName)
    (answer : Except ApiError (Nat × List UInt8)) : Prop where
  received : ∀ bytes, s.received = some bytes → answer = (postEmptyResult bytes).mapError .other
  unreceived : s.received = none → ∃ e, answer = .error e
  posted : ∀ bytes, s.posted = some bytes → ∃ target, apiTarget K url = .ok target ∧
    s.secured = some target.serverName ∧ bytes = target.request headers

/-- Nothing was posted. -/
theorem posted_of_error {s : Exchange K.ServerName} (hposted : s.posted = none)
    (hreceived : s.received = none) (e : ApiError) : Posted url headers s (.error e) where
  received := by
    rw [hreceived]
    exact fun _ => nofun
  unreceived _ := ⟨e, rfl⟩
  posted := by
    rw [hposted]
    exact fun _ => nofun

theorem conforms_postOver {target : ApiTarget K} (htarget : apiTarget K url = .ok target) :
    Conforms (exchange K.ServerName Address) {} (postOver target headers)
      (Posted url headers) := by
  have hposted : ∀ {written received answer},
      (∀ bytes, received = some bytes → answer = (postEmptyResult bytes).mapError .other) →
      (received = none → ∃ e, answer = .error e) →
      Posted url headers (K := K)
        ⟨some target.serverName, some (target.request headers), written, received⟩ answer := by
    intro written received answer hreceived hunreceived
    refine ⟨hreceived, hunreceived, fun bytes hbytes => ?_⟩
    exact ⟨target, htarget, rfl, (Option.some.inj hbytes).symm⟩
  refine ⟨rfl, fun shaken => ?_⟩
  match shaken with
  | none => exact posted_of_error rfl rfl _
  | some (.error e) => exact posted_of_error rfl rfl _
  | some (.ok ()) =>
  refine ⟨⟨rfl, rfl⟩, fun written => ?_⟩
  match written with
  | .error e => exact hposted (fun _ => nofun) fun _ => ⟨_, rfl⟩
  | .ok () =>
  refine ⟨⟨rfl, rfl⟩, fun flushed => ?_⟩
  match flushed with
  | .error e => exact hposted (fun _ => nofun) fun _ => ⟨_, rfl⟩
  | .ok () =>
  refine ⟨⟨rfl, rfl⟩, fun read => ?_⟩
  match read with
  | none => exact hposted (fun _ => nofun) fun _ => ⟨_, rfl⟩
  | some (.error e) => exact hposted (fun _ => nofun) fun _ => ⟨_, rfl⟩
  | some (.ok bytes) =>
      apply hposted
      · intro bytes' hbytes
        rw [Option.some.inj hbytes]
      · exact nofun

theorem conforms_postEmpty :
    Conforms (exchange K.ServerName Address) {} (postEmpty K url headers)
      (Posted url headers) := by
  unfold postEmpty
  cases htarget : apiTarget K url with
  | error e => exact posted_of_error rfl rfl _
  | ok target =>
      refine ⟨rfl, fun addresses => ?_⟩
      match addresses with
      | .error e => exact posted_of_error rfl rfl _
      | .ok [] => exact posted_of_error rfl rfl _
      | .ok (address :: _) =>
      refine ⟨rfl, fun connected => ?_⟩
      match connected with
      | none => exact posted_of_error rfl rfl _
      | some (.error e) => exact posted_of_error rfl rfl _
      | some (.ok ()) => exact conforms_postOver htarget

end Exchange

/-! ## The tunnel that is created -/

section Create

variable {K : ApiCrates} {Address : Type}

/-- The text of an object and blanks after it: `serde_json` reads the object once its `size` bytes
are there, and does not take a part of it for an object. -/
structure Rendered (K : ApiCrates) (body : List UInt8) (size : Nat)
    (answer : QuickTunnelResponse) : Prop where
  whole : ∀ k ≥ size, K.fromSlice (body.take k) = .ok answer
  part : ∀ k < size, ∃ e, K.fromSlice (body.take k) = .error e

/-- The service has granted this tunnel. -/
def Grants (response : Response) (answer : QuickTunnelResponse) (tunnel : QuickTunnel) : Prop :=
  response.status < 300 ∧ answer.success = true ∧ ∃ result, answer.result = some result ∧
    result.identifier ≠ "" ∧ result.hostname ≠ "" ∧ result.tunnel = tunnel

theorem parseResponse_eq_ok_iff {body : List UInt8} {tunnel : QuickTunnel} :
    parseResponse K body = .ok tunnel ↔ ∃ answer, K.fromSlice body = .ok answer ∧
      answer.success = true ∧ ∃ result, answer.result = some result ∧
        result.identifier ≠ "" ∧ result.hostname ≠ "" ∧ result.tunnel = tunnel := by
  unfold parseResponse
  cases K.fromSlice body with
  | error e => simp
  | ok answer =>
      cases hsuccess : answer.success with
      | false => simp [hsuccess]
      | true =>
          cases hresult : answer.result with
          | none => simp [hsuccess, hresult]
          | some result =>
              by_cases hidentifier : result.identifier = ""
              · simp [hsuccess, hresult, hidentifier]
              · by_cases hhostname : result.hostname = ""
                · simp [hsuccess, hresult, hhostname]
                · simp [hsuccess, hresult, hidentifier, hhostname]

theorem createdBy_take_iff {response : Response} {size : Nat} {answer : QuickTunnelResponse}
    (hanswer : Rendered K response.body size answer) {extra : List UInt8}
    (hextra : extra ≠ [] → ∃ header ∈ response.headers, header.IsContentLength) {k : Nat}
    {tunnel : QuickTunnel} :
    createdBy K ((postEmptyResult ((response.bytes ++ extra).take k)).mapError .other) =
        .ok tunnel ↔
      response.headLength + size ≤ k ∧ Grants response answer tunnel := by
  rw [response.postEmptyResult_take hextra]
  by_cases hhead : k < response.headLength
  · rw [if_pos hhead]
    refine iff_of_false nofun ?_
    omega
  · rw [if_neg hhead]
    show (if response.status ≥ 300 then _ else parseResponse K _) = _ ↔ _
    by_cases hstatus : response.status ≥ 300
    · rw [if_pos hstatus]
      refine iff_of_false nofun ?_
      rintro ⟨_, hlt, _⟩
      omega
    · rw [if_neg hstatus, parseResponse_eq_ok_iff]
      by_cases hwhole : response.headLength + size ≤ k
      · rw [hanswer.whole (k - response.headLength) (by omega)]
        constructor
        · rintro ⟨_, ⟨⟩, hgrants⟩
          exact ⟨hwhole, Nat.lt_of_not_le hstatus, hgrants⟩
        · rintro ⟨_, _, hgrants⟩
          exact ⟨answer, rfl, hgrants⟩
      · obtain ⟨e, hpart⟩ := hanswer.part (k - response.headLength) (by omega)
        rw [hpart]
        refine iff_of_false ?_ fun h => hwhole h.1
        rintro ⟨_, ⟨⟩, _⟩

/-- **A tunnel is created from a whole answer, or not at all.** Whatever the system and the network
do, `create_quick_tunnel` writes once at most, the request to the server its handshake was with; if
the service answers with a response, all of it or any part of it, it returns `Ok` only if the object
has arrived up to its end and grants a tunnel, and then that tunnel. -/
theorem createQuickTunnel_iff {serviceUrl : String} {response : Response} {size : Nat}
    {answer : QuickTunnelResponse} (hanswer : Rendered K response.body size answer)
    {extra : List UInt8}
    (hextra : extra ≠ [] → ∃ header ∈ response.headers, header.IsContentLength) {k : Nat}
    {trace : List (Program.Event (api K.ServerName Address))}
    {result : Except ApiError QuickTunnel}
    (hexec : Exec (createQuickTunnel K serviceUrl) trace result)
    (hreceived : ∀ bytes, ((exchange K.ServerName Address).after {} trace).received = some bytes →
      bytes = (response.bytes ++ extra).take k) :
    (exchange K.ServerName Address).Admits {} trace ∧
      (∀ bytes, ((exchange K.ServerName Address).after {} trace).posted = some bytes →
        ∃ target, apiTarget K (apiUrl serviceUrl) = .ok target ∧
          ((exchange K.ServerName Address).after {} trace).secured = some target.serverName ∧
          bytes = target.request [("user-agent", "cloudflared/" ++ K.version)]) ∧
      ∀ tunnel, result = .ok tunnel ↔
        ((exchange K.ServerName Address).after {} trace).received.isSome = true ∧
          response.headLength + size ≤ k ∧ Grants response answer tunnel := by
  obtain ⟨first, posted, second, rfl, hpost, hdone⟩ := exec_bind_iff.mp hexec
  obtain ⟨rfl, rfl⟩ := exec_done_iff.mp hdone
  rw [List.append_nil] at *
  obtain ⟨hadmits, hposted⟩ := conforms_postEmpty.of_exec hpost
  refine ⟨hadmits, hposted.posted, fun tunnel => ?_⟩
  cases hbytes : ((exchange K.ServerName Address).after {} first).received with
  | none =>
      obtain ⟨e, rfl⟩ := hposted.unreceived hbytes
      exact iff_of_false nofun fun h => absurd h.1 nofun
  | some bytes =>
      rw [hposted.received bytes hbytes, hreceived bytes hbytes, createdBy_take_iff hanswer hextra]
      exact (and_iff_right rfl).symm

end Create

/-! ## An answer that grants a tunnel -/

def grantedResult : QuickTunnelResult where
  identifier := "6ea05ba1-9e0e-4f0d-9e9e-3d0f0f0f0f0f"
  hostname := "abc.trycloudflare.com"

def grantedAnswer : QuickTunnelResponse where
  success := true
  result := some grantedResult

def grantedBody : List UInt8 :=
  utf8 ("\x7b\"success\":true,\"result\":\x7b\"id\":\"6ea05ba1-9e0e-4f0d-9e9e-3d0f0f0f0f0f\"," ++
    "\"hostname\":\"abc.trycloudflare.com\"\x7d\x7d")

/-- The crates, as far as this answer goes. -/
def grantingCrates : ApiCrates where
  ServerName := String
  uri _ := .ok ⟨some "https", some "api.trycloudflare.com", none, "/tunnel", none⟩
  serverName := .ok
  fromSlice body := if body = grantedBody then .ok grantedAnswer else .error "EOF while parsing"
  version := "0.1.0"

def grantedResponse : Response where
  status := 201
  reason := "Created"
  headers := []
  body := grantedBody
  status_lt := by decide
  noBreak := by decide
  contentLength := fun _ hheader => absurd hheader List.not_mem_nil
  isUsize := by decide

theorem rendered_grantedBody : Rendered grantingCrates grantedResponse.body grantedBody.length
    grantedAnswer where
  whole k hk := by
    rw [List.take_of_length_le (show grantedResponse.body.length ≤ k from hk)]
    simp [grantingCrates, grantedResponse]
  part k hk := by
    refine ⟨_, if_neg fun htake => ?_⟩
    have hlength := congrArg List.length htake
    rw [List.length_take] at hlength
    exact absurd hlength (Nat.ne_of_lt (Nat.lt_of_le_of_lt (Nat.min_le_left _ _) hk))

/-- Where this tunnel is asked for. -/
def grantingTarget : ApiTarget grantingCrates :=
  ⟨"api.trycloudflare.com", 443, "/tunnel", "", "api.trycloudflare.com"⟩

/-- An exchange in which all goes well. -/
def grantingTrace : List (Program.Event (api grantingCrates.ServerName Unit)) :=
  [⟨.lookupHost grantingTarget.host grantingTarget.port, .ok [()]⟩, ⟨.connect (), some (.ok ())⟩,
    ⟨.handshake grantingTarget.serverName, some (.ok ())⟩,
    ⟨.writeAll (grantingTarget.request [("user-agent", "cloudflared/0.1.0")]), .ok ()⟩,
    ⟨.flush, .ok ()⟩, ⟨.readToEnd, some (.ok grantedResponse.bytes)⟩]

/-- The granted tunnel is created once all of the response has arrived. -/
theorem createQuickTunnel_granted :
    Exec (createQuickTunnel grantingCrates "https://api.trycloudflare.com/") grantingTrace
      (.ok grantedResult.tunnel) := by
  have htarget : apiTarget grantingCrates (apiUrl "https://api.trycloudflare.com/") =
      .ok grantingTarget := rfl
  have hpost : Exec (postEmpty grantingCrates (apiUrl "https://api.trycloudflare.com/")
      [("user-agent", "cloudflared/0.1.0")]) grantingTrace
      ((postEmptyResult grantedResponse.bytes).mapError .other) := by
    rw [postEmpty, htarget]
    exact .request _ (.request _ (.request _ (.request _ (.request _ (.request _ (.done _))))))
  have hexec : Exec (createQuickTunnel grantingCrates "https://api.trycloudflare.com/")
      grantingTrace
      (createdBy grantingCrates ((postEmptyResult grantedResponse.bytes).mapError .other)) :=
    exec_bind_iff.mpr ⟨_, _, [], (List.append_nil _).symm, hpost, .done _⟩
  have hreceived : ∀ bytes,
      ((exchange grantingCrates.ServerName Unit).after {} grantingTrace).received = some bytes →
        bytes = (grantedResponse.bytes ++ []).take grantedResponse.bytes.length := by
    intro bytes hbytes
    rw [List.append_nil, List.take_length]
    exact (Option.some.inj hbytes).symm
  have hcreate := (createQuickTunnel_iff rendered_grantedBody (fun hne => absurd rfl hne) hexec
    hreceived).2.2 grantedResult.tunnel
  have hgrants : Grants grantedResponse grantedAnswer grantedResult.tunnel :=
    ⟨by decide, rfl, _, rfl, by decide, by decide, rfl⟩
  have harrived : grantedResponse.headLength + grantedBody.length ≤
      grantedResponse.bytes.length := by
    rw [Response.headLength, grantedResponse.bytes_eq]
    simp [grantedResponse]
    omega
  rw [hcreate.mpr ⟨rfl, harrived, hgrants⟩] at hexec
  exact hexec

end Libcfd.Tunnel.Quick
