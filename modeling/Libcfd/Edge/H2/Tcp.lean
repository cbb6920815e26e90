import Libcfd.Edge.Serve.Layout
import Mathlib.Data.Bool.AllAny
import Mathlib.Logic.Basic

/-!
# TCP destinations

The destination of a proxied TCP connection comes in the `ConnectRequest` over QUIC, and over HTTP/2
in the `Host` header of a request or in its URI. The handler is given a request for
`http://<destination>`. Of a URI `request_host` takes the host only: a port that comes there is lost.
-/

namespace Libcfd.Edge.H2

open Libcfd.Program Libcfd.Stream Libcfd.Origin Libcfd.Rpc

/-! ## Destinations -/

/-- A host with an optional port. -/
structure Destination where
  host : String
  port : Option UInt16
  deriving DecidableEq, Repr

/-- A name or an IPv4 address. -/
def IsName (host : List Char) : Prop :=
  host ≠ [] ∧ ∀ c ∈ host, c.isAlphanum = true ∨ c = '-' ∨ c = '.' ∨ c = '_'

/-- An IPv6 address in brackets. -/
def IsBracketed (host : List Char) : Prop :=
  ∃ address, address ≠ [] ∧ (∀ c ∈ address, c.isAlphanum = true ∨ c = ':' ∨ c = '.') ∧
    host = '[' :: address ++ [']']

namespace Destination

def IsValid (d : Destination) : Prop := IsName d.host.toList ∨ IsBracketed d.host.toList

/-- `<host>[:port]`. -/
def text (d : Destination) : String :=
  match d.port with
  | none => d.host
  | some port => d.host ++ ":" ++ toString port.toNat

def withoutPort (d : Destination) : Destination := ⟨d.host, none⟩

/-- The `http` crate takes no URI that is longer. -/
def Fits (d : Destination) : Prop := ("http://" ++ d.text).utf8ByteSize ≤ 65534

theorem Fits.withoutPort {d : Destination} (h : d.Fits) : d.withoutPort.Fits := by
  unfold Fits text at h
  split at h
  · exact h
  · show ("http://" ++ d.host).utf8ByteSize ≤ 65534
    simp only [String.utf8ByteSize_append] at h ⊢
    omega

end Destination

/-- `Uri::host` and `Uri::authority` of the `http` crate. -/
structure UriAccess (H : Http) where
  host : H.Uri → Option String
  authority : H.Uri → Option String

structure UriAccess.Lawful {H : Http} (U : UriAccess H) : Prop where
  -- the host is the authority without its port
  host_eq : ∀ uri (d : Destination), d.IsValid → U.authority uri = some d.text →
    U.host uri = some d.host
  uriTryFrom_eq : ∀ d : Destination, d.IsValid → d.Fits →
    ∃ uri, H.uriTryFrom ("http://" ++ d.text) = .ok uri ∧ U.authority uri = some d.text
  fits_of_uriTryFrom : ∀ (d : Destination) (uri : H.Uri),
    H.uriTryFrom ("http://" ++ d.text) = .ok uri → d.Fits

/-! ## `handle_h2_tcp` -/

/-- What a request has besides its body. -/
structure RequestParts (H : Http) where
  headers : H.HeaderMap
  uri : H.Uri

/-- What the task of a request asks for: the stream of an origin is known by its name. -/
inductive H2Op (H : Http) (S : Type) where
  -- the handler is invoked, and its outcome waited for
  | tcp (request : Request H)
  -- `write_h2_error`
  | writeError (message : String)
  -- `write_h2_headers`
  | writeHeaders (response : Response H)
  -- `pump`, between the request and the origin's stream
  | pump (origin : S)

def h2Serving (H : Http) (S : Type) : Signature where
  Op := H2Op H S
  Reply
    | .tcp _ => Except String S
    | .writeError _ | .writeHeaders _ | .pump _ => Except Error Unit

section Handle

variable (H : Http) (U : UriAccess H)

def requestHost (parts : RequestParts H) : String :=
  match H.find parts.headers "host" with
  | some host => (H.valueToStr host).getD ""
  | none => (U.host parts.uri).getD ""

/-- The headers of the acknowledgement; `none` where an `unwrap` panics. -/
def ackHeaders (websocketAccept : String → String) (parts : RequestParts H) :
    Option H.HeaderMap :=
  match (H.find parts.headers "sec-websocket-key").bind H.valueToStr with
  | none => some H.emptyMap
  | some key => do
      let connection ← H.valueFromStr "Upgrade"
      let upgrade ← H.valueFromStr "websocket"
      let accept ← H.valueFromStr (websocketAccept key)
      let headers := H.insert H.emptyMap (H.nameFromStatic "connection") connection
      let headers := H.insert headers (H.nameFromStatic "upgrade") upgrade
      return H.insert headers (H.nameFromStatic "sec-websocket-accept") accept

/-- With the TCP handler configured or not. -/
def handleH2Tcp {S : Type} (websocketAccept : String → String) (tcp : Bool)
    (parts : RequestParts H) : Program (h2Serving H S) (Except Error Unit) :=
  if tcp then
    .request (S := h2Serving H S) (.tcp (.tcp H (requestHost H U parts))) fun
      | .error message => .request (S := h2Serving H S) (.writeError message) .done
      | .ok origin =>
          match ackHeaders H websocketAccept parts with
          -- a panic
          | none => .done (.error (.other "called `Result::unwrap()` on an `Err` value"))
          | some headers =>
              let ack : Response H := ⟨101, headers, .empty⟩
              .request (S := h2Serving H S) (.writeHeaders ack) fun
                | .error e => .done (.error e)
                | .ok () => .request (S := h2Serving H S) (.pump origin) .done
  else .request (S := h2Serving H S) (.writeError "no tcp origin handler") .done

end Handle

/-! ## The same request -/

section Same

variable {H : Http} {U : UriAccess H} {d : Destination}

/-- A request is for a destination: in its `Host` header, or in its URI if there is no such
header. -/
inductive Carries (U : UriAccess H) (d : Destination) (parts : RequestParts H) : Prop
  | hostHeader {value : H.HeaderValue} (hfind : H.find parts.headers "host" = some value)
      (htext : H.valueToStr value = some d.text)
  | uri (hnone : H.find parts.headers "host" = none)
      (hauthority : U.authority parts.uri = some d.text)

/-- Either transport calls `connect` before anything else, with one request, whose URI is
`http://<host>[:port]`. -/
def SameRequest {T : SegmentTable} (C : QuicCapnp T) {S : Type} (U : UriAccess H)
    (websocketAccept : String → String) (origin : Serve.Origin H S) (d : Destination)
    (parts : RequestParts H) : Prop :=
  ∃ request : Request H, U.authority request.uri = some d.text ∧
    H.uriTryFrom ("http://" ++ d.text) = .ok request.uri ∧
    (∀ connect : ConnectRequest, connect.destination = d.text →
      ∃ next, Serve.handleQuicTcp C origin connect =
        asking (E := Serve.serving H S) (Serve.ServeOp.tcp request) next) ∧
    ∃ next, handleH2Tcp H U websocketAccept origin.tcp parts =
      .request (S := h2Serving H S) (H2Op.tcp request) next

theorem text_ne_host (h : d.port ≠ none) : d.text ≠ d.host := by
  intro heq
  cases hport : d.port with
  | none => exact h hport
  | some port =>
      rw [Destination.text, hport] at heq
      have hlength := congrArg String.length heq
      simp only [String.length_append] at hlength
      have hcolon : ":".length = 1 := rfl
      omega

/-- The request that is made of a destination has its authority. -/
theorem authority_tcp (hU : U.Lawful) (hvalid : d.IsValid) (hfits : d.Fits) :
    U.authority (Request.tcp H d.text).uri = some d.text ∧
      H.uriTryFrom ("http://" ++ d.text) = .ok (Request.tcp H d.text).uri := by
  obtain ⟨uri, htry, hauthority⟩ := hU.uriTryFrom_eq d hvalid hfits
  have huri : (Request.tcp H d.text).uri = uri := by
    rw [Request.tcp, htry]
  rw [huri]
  exact ⟨hauthority, htry⟩

theorem handleH2Tcp_eq {S : Type} (websocketAccept : String → String) {parts : RequestParts H}
    {request : Request H} :
    (∃ next, handleH2Tcp (S := S) H U websocketAccept true parts =
      .request (S := h2Serving H S) (H2Op.tcp request) next) ↔
      request = .tcp H (requestHost H U parts) := by
  rw [handleH2Tcp, if_pos rfl]
  constructor
  · rintro ⟨next, heq⟩
    injection heq with hop
    exact (H2Op.tcp.inj hop).symm
  · rintro rfl
    exact ⟨_, rfl⟩

/-- **Both transports make the same request of a destination if and only if** it fits in a URI, and
it comes in a `Host` header or has no port. -/
theorem sameRequest_iff {T : SegmentTable} (C : QuicCapnp T) {S : Type} (hU : U.Lawful)
    (websocketAccept : String → String) {origin : Serve.Origin H S} (htcp : origin.tcp = true)
    (hvalid : d.IsValid) {parts : RequestParts H} (hcarries : Carries U d parts) :
    SameRequest C U websocketAccept origin d parts ↔
      d.Fits ∧ ((H.find parts.headers "host").isSome = true ∨ d.port = none) := by
  have hsame : d.Fits → requestHost H U parts = d.text →
      SameRequest C U websocketAccept origin d parts := by
    intro hfits hhost
    obtain ⟨hauthority, htry⟩ := authority_tcp hU hvalid hfits
    refine ⟨.tcp H d.text, hauthority, htry, fun connect hconnect => ?_, ?_⟩
    · rw [Serve.handleQuicTcp, if_pos htcp, hconnect]
      exact ⟨_, rfl⟩
    · rw [htcp, handleH2Tcp_eq, hhost]
  have hfitting : SameRequest C U websocketAccept origin d parts → d.Fits := by
    rintro ⟨request, _, htry, _⟩
    exact hU.fits_of_uriTryFrom d request.uri htry
  cases hcarries with
  | hostHeader hfind htext =>
      refine ⟨fun hrequest => ⟨hfitting hrequest, .inl (by rw [hfind]; rfl)⟩, fun h => ?_⟩
      apply hsame h.1
      rw [requestHost, hfind]
      exact congrArg (Option.getD · "") htext
  | uri hnone hauthority =>
      have hhost : requestHost H U parts = d.host := by
        rw [requestHost, hnone]
        exact congrArg (Option.getD · "") (hU.host_eq parts.uri d hvalid hauthority)
      rw [hnone]
      constructor
      · intro hrequest
        have hfits := hfitting hrequest
        refine ⟨hfits, .inr ?_⟩
        obtain ⟨request, hrequest, _, _, hasked⟩ := hrequest
        by_contra hport
        rw [htcp, handleH2Tcp_eq, hhost] at hasked
        -- what is asked for is the destination without its port
        have hwithout : U.authority request.uri = some d.host := by
          rw [hasked]
          exact (authority_tcp (d := d.withoutPort) hU hvalid hfits.withoutPort).1
        rw [hrequest] at hwithout
        exact text_ne_host hport (Option.some.inj hwithout)
      · rintro ⟨hfits, hsome | hport⟩
        · cases hsome
        · apply hsame hfits
          rw [hhost, Destination.text, hport]

end Same

/-! ## Destinations as texts -/

/-- The authority without its port. -/
def hostOf (authority : List Char) : List Char :=
  match authority with
  | '[' :: _ => authority.takeWhile (· ≠ ']') ++ [']']
  | _ => authority.takeWhile (· ≠ ':')

theorem hostOf_name {host : List Char} (h : IsName host) {port : List Char}
    (hport : port = [] ∨ ∃ digits, port = ':' :: digits) : hostOf (host ++ port) = host := by
  obtain ⟨hne, hall⟩ := h
  have hplain : ∀ c ∈ host, c ≠ '[' ∧ decide (c ≠ ':') = true := by
    intro c hc
    rcases hall c hc with halphanum | rfl | rfl | rfl
    · constructor
      · rintro rfl
        cases halphanum
      · refine decide_eq_true ?_
        rintro rfl
        cases halphanum
    · decide
    · decide
    · decide
  have hstop : port.takeWhile (· ≠ ':') = [] := by
    rcases hport with rfl | ⟨digits, rfl⟩ <;> rfl
  have htake : (host ++ port).takeWhile (· ≠ ':') = host := by
    rw [List.takeWhile_append_of_pos fun c hc => (hplain c hc).2, hstop, List.append_nil]
  cases host with
  | nil => exact absurd rfl hne
  | cons c host =>
      rw [hostOf]
      · exact htake
      · rintro rest hcons
        exact (hplain c List.mem_cons_self).1 (List.cons.inj hcons).1

theorem hostOf_bracketed {host : List Char} (h : IsBracketed host) (port : List Char) :
    hostOf (host ++ port) = host := by
  obtain ⟨address, _, hall, rfl⟩ := h
  have hplain : ∀ c ∈ '[' :: address, decide (c ≠ ']') = true := by
    intro c hc
    refine decide_eq_true ?_
    rintro rfl
    rcases List.mem_cons.mp hc with heq | hc
    · cases heq
    · rcases hall _ hc with halphanum | heq | heq
      · cases halphanum
      · cases heq
      · cases heq
  show ('[' :: address ++ [']'] ++ port).takeWhile (· ≠ ']') ++ [']'] = _
  rw [List.append_assoc, List.takeWhile_append_of_pos hplain]
  show '[' :: address ++ [] ++ [']'] = _
  rw [List.append_nil]

def UriAccess.ofLists : UriAccess Http.ofLists where
  host uri := (stripPrefix uri "http://").map fun authority => String.ofList (hostOf authority.toList)
  authority uri := stripPrefix uri "http://"

theorem hostOf_text {d : Destination} (h : d.IsValid) :
    String.ofList (hostOf d.text.toList) = d.host := by
  obtain ⟨port, hport, htext⟩ : ∃ port : List Char,
      (port = [] ∨ ∃ digits, port = ':' :: digits) ∧ d.text.toList = d.host.toList ++ port := by
    cases hport : d.port with
    | none => exact ⟨[], .inl rfl, by rw [Destination.text, hport, List.append_nil]⟩
    | some port =>
        refine ⟨':' :: (toString port.toNat).toList, .inr ⟨_, rfl⟩, ?_⟩
        rw [Destination.text, hport]
        simp
  rw [htext]
  rcases h with hname | hbracketed
  · rw [hostOf_name hname hport, String.ofList_toList]
  · rw [hostOf_bracketed hbracketed, String.ofList_toList]

theorem scheme_append_ne_empty (d : Destination) : "http://" ++ d.text ≠ "" := by
  intro h
  have hlength := congrArg String.length h
  rw [String.length_append] at hlength
  have hscheme : "http://".length = 7 := rfl
  have hempty : "".length = 0 := rfl
  omega

theorem UriAccess.lawful_ofLists : UriAccess.ofLists.Lawful where
  host_eq uri d hvalid h := by
    have h : stripPrefix uri "http://" = some d.text := h
    show (stripPrefix uri "http://").map _ = _
    rw [h, Option.map_some, hostOf_text hvalid]
  uriTryFrom_eq d _ hfits := by
    refine ⟨"http://" ++ d.text, ?_, stripPrefix_append "http://" d.text⟩
    show (if "http://" ++ d.text = "" then Except.error "empty string"
      else if 65534 < ("http://" ++ d.text).utf8ByteSize then Except.error "uri too long"
      else Except.ok ("http://" ++ d.text)) = _
    rw [if_neg (scheme_append_ne_empty d), if_neg (Nat.not_lt_of_le hfits)]
    rfl
  fits_of_uriTryFrom d uri h := by
    have h : (if "http://" ++ d.text = "" then Except.error "empty string"
      else if 65534 < ("http://" ++ d.text).utf8ByteSize then Except.error "uri too long"
      else Except.ok ("http://" ++ d.text)) = .ok uri := h
    rw [if_neg (scheme_append_ne_empty d)] at h
    split at h
    · cases h
    · next hfits => exact Nat.le_of_not_lt hfits

/-- The destination of a request in its URI. -/
def uriParts (uri : String) : RequestParts Http.ofLists := ⟨[], uri⟩

def database : Destination := ⟨"10.0.0.1", some 5432⟩

theorem isValid_database : database.IsValid := by
  refine .inl ⟨nofun, ?_⟩
  exact List.all_iff_forall_prop.mp (by decide)

/-- With its port, it is another request over HTTP/2 than over QUIC. -/
theorem not_sameRequest_database :
    database.IsValid ∧ Carries .ofLists database (uriParts "http://10.0.0.1:5432") ∧
      ¬ SameRequest Serve.plainCapnp .ofLists id Serve.greedyOrigin database
        (uriParts "http://10.0.0.1:5432") := by
  refine ⟨isValid_database, .uri rfl (by decide), ?_⟩
  rintro ⟨request, hauthority, htry, -, hasked⟩
  have hrequest := (handleH2Tcp_eq id).mp hasked
  rw [hrequest] at hauthority
  revert hauthority
  decide

theorem sameRequest_host :
    SameRequest Serve.plainCapnp .ofLists id Serve.greedyOrigin ⟨"[::1]", none⟩
      (uriParts "http://[::1]") := by
  have hvalid : (⟨"[::1]", none⟩ : Destination).IsValid := by
    refine .inr ⟨[':', ':', '1'], nofun, ?_, rfl⟩
    exact List.all_iff_forall_prop.mp (by decide)
  have hcarries : Carries .ofLists ⟨"[::1]", none⟩ (uriParts "http://[::1]") := .uri rfl rfl
  have hfits : (⟨"[::1]", none⟩ : Destination).Fits := by
    unfold Destination.Fits
    decide
  exact (sameRequest_iff Serve.plainCapnp UriAccess.lawful_ofLists id rfl hvalid hcarries).mpr
    ⟨hfits, .inr rfl⟩

end Libcfd.Edge.H2
