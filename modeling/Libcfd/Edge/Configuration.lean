import Libcfd.Edge.Error
import Libcfd.Rpc.Serve

/-!
# Remotely-managed configuration

The edge pushes a configuration over either transport: as an `updateConfiguration` call on an RPC
stream, or as the JSON body of an HTTP/2 stream. Both come to one `EdgeConfigurationHandler`, whose
`applied` says what the latest push that could be parsed was.
-/

namespace Libcfd.Edge

open Program Libcfd.Rpc

/-! ## What is pushed -/

/-- A rule of the `ingress` list. -/
structure IngressRule where
  hostname : String
  service : String

structure RemoteConfiguration where
  version : Int32
  hostnames : List String
  services : List String
  deriving DecidableEq

/-- The `serde_json` crate, as far as it is used. -/
structure SerdeJson where
  Value : Type
  -- `from_slice` of an `IngressConfiguration`
  ingress : List UInt8 → Except String (List IngressRule)
  -- `from_slice` of a `ConfigurationUpdateBody`
  configurationUpdateBody : List UInt8 → Except String (Int32 × Value)
  toVec : Value → Except String (List UInt8)
  -- `to_string` of the reply object, as bytes
  reply : UpdateConfigurationResponse → Except String (List UInt8)

/-- What is relied on: a `Value` and the reply object can be serialized, and the version can be
read back. -/
structure SerdeJson.Lawful (J : SerdeJson) : Prop where
  toVec_ok : ∀ value, ∃ bytes, J.toVec value = .ok bytes
  reply_ok : ∀ response, ∃ bytes, J.reply response = .ok bytes
  reply_version : ∀ response response' bytes, J.reply response = .ok bytes →
    J.reply response' = .ok bytes → response.latestAppliedVersion = response'.latestAppliedVersion

def parseRemoteConfiguration (J : SerdeJson) (version : Int32) (configuration : List UInt8) :
    Except String RemoteConfiguration :=
  match J.ingress configuration with
  | .error e => .error ("config is not valid JSON: " ++ e)
  | .ok ingress =>
      let rules := ingress.filter fun rule => rule.hostname ≠ ""
      .ok ⟨version, rules.map (·.hostname), rules.map (·.service)⟩

/-! ## The handler -/

/-- `onConfiguration` is the callback, by the calls made of it so far. -/
structure EdgeConfigurationHandler where
  onConfiguration : Option (List RemoteConfiguration)
  applied : Int32
  deriving DecidableEq

namespace EdgeConfigurationHandler

def new (onConfiguration : Option (List RemoteConfiguration)) : EdgeConfigurationHandler :=
  ⟨onConfiguration, -1⟩

def updateConfiguration (J : SerdeJson) (version : Int32) (configuration : List UInt8)
    (handler : EdgeConfigurationHandler) : UpdateConfigurationResponse × EdgeConfigurationHandler :=
  match parseRemoteConfiguration J version configuration with
  | .ok remote =>
      (⟨version, ""⟩,
        { handler with
          applied := version
          onConfiguration := handler.onConfiguration.map (· ++ [remote]) })
  | .error e => (⟨handler.applied, e⟩, handler)

/-- The handler for `serve_cloudflared`; the UDP session methods keep their defaults. -/
def methods (J : SerdeJson) : CloudflaredHandler EdgeConfigurationHandler where
  updateConfiguration := updateConfiguration J

end EdgeConfigurationHandler

/-! ## An HTTP/2 update-configuration stream -/

inductive H2StreamOp where
  -- `read_to_end` of the request body
  | readToEnd
  | updateConfiguration (version : Int32) (configuration : List UInt8)
  | sendResponse
  | writeAll (bytes : List UInt8)
  | close

def h2Stream : Signature where
  Op := H2StreamOp
  Reply
    | .readToEnd => Except Error (List UInt8)
    | .updateConfiguration .. => UpdateConfigurationResponse
    | .sendResponse => Except Error Unit
    | .writeAll _ => Except Error Unit
    | .close => Except Error Unit

/-- The end of `handle_h2_configuration`. -/
def replyOnH2 (J : SerdeJson) (response : UpdateConfigurationResponse) :
    Program h2Stream (Except Error Unit) :=
  match J.reply response with
  | .error e => .done (.error (.h2 e))
  | .ok reply => .request (S := h2Stream) .sendResponse fun
    | .error e => .done (.error e)
    | .ok () => .request (S := h2Stream) (.writeAll reply) fun
      | .error e => .done (.error e)
      | .ok () => .request (S := h2Stream) .close fun
        | .error e => .done (.error e)
        | .ok () => .done (.ok ())

def handleH2Configuration (J : SerdeJson) : Program h2Stream (Except Error Unit) :=
  .request (S := h2Stream) .readToEnd fun
    | .error e => .done (.error e)
    | .ok data =>
        match J.configurationUpdateBody data with
        | .ok (version, value) =>
            match J.toVec value with
            | .error e => .done (.error (.h2 e))
            | .ok configuration =>
                .request (S := h2Stream) (.updateConfiguration version configuration)
                  fun response => replyOnH2 J response
        | .error e => replyOnH2 J ⟨-1, "config update body is not valid JSON: " ++ e⟩

/-- The other end of the stream, and the handler. -/
structure H2Edge where
  body : List UInt8
  sent : List UInt8
  handler : EdgeConfigurationHandler

/-- The body comes in whole, and what is sent is accepted. -/
def respondOnH2 (J : SerdeJson) : (op : h2Stream.Op) → H2Edge → h2Stream.Reply op × H2Edge
  | .readToEnd, edge => (.ok edge.body, { edge with body := [] })
  | .updateConfiguration version configuration, edge =>
      let (response, handler) := edge.handler.updateConfiguration J version configuration
      (response, { edge with handler := handler })
  | .sendResponse, edge => (.ok (), edge)
  | .writeAll bytes, edge => (.ok (), { edge with sent := edge.sent ++ bytes })
  | .close, edge => (.ok (), edge)

/-! ## Pushes -/

/-- A push, over either transport. -/
inductive Push where
  | quic (call : CallReader)
      (isUpdate : classify call.interfaceId call.methodId = .updateConfiguration)
  | h2 (body : List UInt8)

/-- What a push is answered with: the messages on the RPC stream, or the bytes on the HTTP/2 stream
and how its handler ended. -/
inductive Answer where
  | quic (messages : List Message)
  | h2 (result : Except Error Unit) (sent : List UInt8)

/-- Serve one push: a turn of `serve_cloudflared`, or `handle_h2_configuration`. -/
def Push.serve (J : SerdeJson) :
    Push → EdgeConfigurationHandler → Answer × EdgeConfigurationHandler
  | .quic call _, handler =>
      let (_, edge) := serveTurn.interpret (respond (EdgeConfigurationHandler.methods J))
        ⟨[.ok (.ok (.call (.ok call)))], .eof, [], handler⟩
      (.quic (written edge.log), edge.handler)
  | .h2 body, handler =>
      let (result, edge) := (handleH2Configuration J).interpret (respondOnH2 J) ⟨body, [], handler⟩
      (.h2 result edge.sent, edge.handler)

/-- Serve pushes one after another. -/
def servePushes (J : SerdeJson) (pushes : List Push) (handler : EdgeConfigurationHandler) :
    EdgeConfigurationHandler :=
  pushes.foldl (fun handler push => (push.serve J handler).2) handler

/-- The push gets one answer, which carries the response. -/
def Push.IsAnsweredWith (J : SerdeJson) (response : UpdateConfigurationResponse) :
    Push → Answer → Prop
  | .quic call _, answer =>
      answer = .quic [buildUpdateConfigurationReturn call.questionId response]
  | .h2 _, answer => ∃ reply, J.reply response = .ok reply ∧ answer = .h2 (.ok ()) reply

/-! ## The layers of a push -/

/-- What becomes of a push on its way to the handler. -/
inductive Course where
  -- the handler is asked
  | update (version : Int32) (configuration : List UInt8)
  -- the HTTP/2 body is not the expected object
  | malformed (message : String)
  -- the call's parameters cannot be read
  | unreadable (error : CapnpError)
  -- the value read cannot be serialized again
  | unserializable (message : String)

/-- The parameters of an `updateConfiguration` call. -/
def readUpdate (call : CallReader) : Except CapnpError (Int32 × List UInt8) := do
  let params ← call.params
  let parameters ← params.content.updateConfigurationParams
  return (parameters.version, ← parameters.config)

def Push.course (J : SerdeJson) : Push → Course
  | .quic call _ =>
      match readUpdate call with
      | .ok (version, configuration) => .update version configuration
      | .error e => .unreadable e
  | .h2 body =>
      match J.configurationUpdateBody body with
      | .ok (version, value) =>
          match J.toVec value with
          | .ok configuration => .update version configuration
          | .error e => .unserializable e
      | .error e => .malformed e

/-- The configuration of a push that can be parsed at every layer. -/
def Push.remote (J : SerdeJson) (push : Push) : Option RemoteConfiguration :=
  match push.course J with
  | .update version configuration => (parseRemoteConfiguration J version configuration).toOption
  | _ => none

/-! ## What serving a push does -/

section Serve

variable {J : SerdeJson} {handler : EdgeConfigurationHandler} {push : Push}

/-- A call is decoded to its parameters or not at all. -/
theorem decodeRequest_update {call : CallReader}
    (isUpdate : classify call.interfaceId call.methodId = .updateConfiguration) :
    decodeRequest (.ok (.ok (.call (.ok call)))) =
      match readUpdate call with
      | .ok (version, configuration) =>
          .ok (.updateConfiguration call.questionId version configuration)
      | .error e => .error (.ofCapnp e) := by
  rw [decodeRequest, readUpdate]
  simp only [rootWhich, orCapnp, orNotInSchema, ok_bind, isUpdate]
  cases call.params with
  | error e => rfl
  | ok params =>
      simp only [ok_bind]
      cases params.content.updateConfigurationParams with
      | error e => rfl
      | ok parameters =>
          simp only [ok_bind]
          cases parameters.config with
          | error e => rfl
          | ok config => rfl

/-- On HTTP/2 an accepted reply is the answer. -/
theorem replyOnH2_interpret (hJ : J.Lawful) (response : UpdateConfigurationResponse)
    (body : List UInt8) (handler : EdgeConfigurationHandler) :
    ∃ reply, J.reply response = .ok reply ∧
      (replyOnH2 J response).interpret (respondOnH2 J) ⟨body, [], handler⟩ =
        (.ok (), ⟨body, reply, handler⟩) := by
  obtain ⟨reply, hreply⟩ := hJ.reply_ok response
  refine ⟨reply, hreply, ?_⟩
  rw [replyOnH2, hreply]
  rfl

/-- A push that comes to the handler is answered with what the handler says. -/
theorem serve_update (hJ : J.Lawful) {version : Int32} {configuration : List UInt8}
    (h : push.course J = .update version configuration) :
    (push.serve J handler).2 = (handler.updateConfiguration J version configuration).2 ∧
      push.IsAnsweredWith J (handler.updateConfiguration J version configuration).1
        (push.serve J handler).1 := by
  cases push with
  | quic call isUpdate =>
      have hdecode := decodeRequest_update isUpdate
      rw [Push.course] at h
      split at h
      · next hread =>
          cases h
          rw [hread] at hdecode
          have hturn := @serveTurn_request _ (EdgeConfigurationHandler.methods J) _ [] .eof []
            handler _ hdecode
          rw [Push.serve, hturn]
          exact ⟨rfl, rfl⟩
      · cases h
  | h2 body =>
      rw [Push.course] at h
      split at h
      · next value hbody =>
          split at h
          · next hvalue =>
              cases h
              obtain ⟨reply, hreply, hend⟩ := replyOnH2_interpret hJ
                (handler.updateConfiguration J version configuration).1 []
                (handler.updateConfiguration J version configuration).2
              have hrun : (handleH2Configuration J).interpret (respondOnH2 J) ⟨body, [], handler⟩ =
                  (.ok (), ⟨[], reply, (handler.updateConfiguration J version configuration).2⟩) := by
                simp only [handleH2Configuration, interpret, respondOnH2, hbody, hvalue]
                exact hend
              rw [Push.serve, hrun]
              exact ⟨rfl, reply, hreply, rfl⟩
          · cases h
      · cases h

/-- A body that is not the expected object is answered without asking the handler. -/
theorem serve_malformed (hJ : J.Lawful) {message : String}
    (h : push.course J = .malformed message) :
    (push.serve J handler).2 = handler ∧
      push.IsAnsweredWith J ⟨-1, "config update body is not valid JSON: " ++ message⟩
        (push.serve J handler).1 := by
  cases push with
  | quic call isUpdate =>
      rw [Push.course] at h
      split at h <;> cases h
  | h2 body =>
      rw [Push.course] at h
      split at h
      · split at h <;> cases h
      · next hbody =>
          cases h
          obtain ⟨reply, hreply, hend⟩ := replyOnH2_interpret hJ
            ⟨-1, "config update body is not valid JSON: " ++ message⟩ [] handler
          have hrun : (handleH2Configuration J).interpret (respondOnH2 J) ⟨body, [], handler⟩ =
              (.ok (), ⟨[], reply, handler⟩) := by
            simp only [handleH2Configuration, interpret, respondOnH2, hbody]
            exact hend
          rw [Push.serve, hrun]
          exact ⟨rfl, reply, hreply, rfl⟩

/-- A call that cannot be read ends the RPC stream, without an answer. -/
theorem serve_unreadable {e : CapnpError} (h : push.course J = .unreadable e) :
    push.serve J handler = (.quic [], handler) := by
  cases push with
  | quic call isUpdate =>
      have hdecode := decodeRequest_update isUpdate
      rw [Push.course] at h
      split at h
      · cases h
      · next hread =>
          rw [hread] at hdecode
          have hturn := @serveTurn_undecodable _ (EdgeConfigurationHandler.methods J) _ [] .eof []
            handler _ hdecode
          rw [Push.serve, hturn]
          rfl
  | h2 body =>
      rw [Push.course] at h
      split at h
      · split at h <;> cases h
      · cases h

theorem course_ne_unserializable (hJ : J.Lawful) (push : Push) (message : String) :
    push.course J ≠ .unserializable message := by
  intro h
  cases push with
  | quic call isUpdate =>
      rw [Push.course] at h
      split at h <;> cases h
  | h2 body =>
      rw [Push.course] at h
      split at h
      · next value _ =>
          obtain ⟨bytes, hbytes⟩ := hJ.toVec_ok value
          rw [hbytes] at h
          cases h
      · cases h

/-- An answer carries one version. -/
theorem version_of_isAnsweredWith (hJ : J.Lawful) {response response' : UpdateConfigurationResponse}
    {answer : Answer} (h : push.IsAnsweredWith J response answer)
    (h' : push.IsAnsweredWith J response' answer) :
    response.latestAppliedVersion = response'.latestAppliedVersion := by
  cases push with
  | quic call isUpdate =>
      have heq : response = response' := by
        simpa [buildUpdateConfigurationReturn] using h.symm.trans h'
      rw [heq]
  | h2 body =>
      obtain ⟨reply, hreply, rfl⟩ := h
      obtain ⟨reply', hreply', heq⟩ := h'
      cases heq
      exact hJ.reply_version _ _ _ hreply hreply'

theorem not_isAnsweredWith_nil {response : UpdateConfigurationResponse} :
    ¬ push.IsAnsweredWith J response (.quic []) := by
  cases push with
  | quic => exact nofun
  | h2 =>
      rintro ⟨reply, _, h⟩
      cases h

end Serve

/-! ## Histories -/

/-- The version of the last push that could be parsed. -/
def latestVersion (J : SerdeJson) (before : List Push) : Int32 :=
  ((before.filterMap (Push.remote J)).map (·.version)).getLastD (-1)

/-- What a push is to do after the pushes `before` have left the handler so. -/
def Push.IsHandled (J : SerdeJson) (before : List Push) (handler : EdgeConfigurationHandler)
    (push : Push) : Prop :=
  match push.remote J with
  | some remote =>
      push.IsAnsweredWith J ⟨remote.version, ""⟩ (push.serve J handler).1 ∧
        (push.serve J handler).2 =
          ⟨handler.onConfiguration.map (· ++ [remote]), remote.version⟩
  | none =>
      (∃ error, error ≠ "" ∧
        push.IsAnsweredWith J ⟨latestVersion J before, error⟩ (push.serve J handler).1) ∧
        (push.serve J handler).2 = handler

/-- The condition on a push: its call can be read, and an HTTP/2 body that is not the expected
object comes before any version but -1 has been applied. -/
def Push.IsSound (J : SerdeJson) (before : List Push) (push : Push) : Prop :=
  match push.course J with
  | .unreadable _ => False
  | .malformed _ => latestVersion J before = -1
  | _ => True

section History

variable {J : SerdeJson} {handler : EdgeConfigurationHandler} {push : Push} {before : List Push}

theorem latestVersion_append_some {remote : RemoteConfiguration} (h : push.remote J = some remote) :
    latestVersion J (before ++ [push]) = remote.version := by
  simp [latestVersion, h]

theorem latestVersion_append_none (h : push.remote J = none) :
    latestVersion J (before ++ [push]) = latestVersion J before := by
  simp [latestVersion, h]

/-- The version of a push that was parsed is its own. -/
theorem version_of_parse {version : Int32} {configuration : List UInt8}
    {remote : RemoteConfiguration}
    (h : parseRemoteConfiguration J version configuration = .ok remote) :
    remote.version = version := by
  rw [parseRemoteConfiguration] at h
  split at h
  · cases h
  · cases h
    rfl

/-- An error of the parser says so. -/
theorem error_of_parse {version : Int32} {configuration : List UInt8} {error : String}
    (h : parseRemoteConfiguration J version configuration = .error error) : error ≠ "" := by
  rw [parseRemoteConfiguration] at h
  split at h
  · cases h
    simp
  · cases h

/-- **One push.** With the latest version applied, a push is handled just in case it is sound. -/
theorem isHandled_iff (hJ : J.Lawful) (happlied : handler.applied = latestVersion J before) :
    push.IsHandled J before handler ↔ push.IsSound J before := by
  rw [Push.IsHandled, Push.IsSound, Push.remote]
  cases hcourse : push.course J with
  | update version configuration =>
      obtain ⟨hstate, hanswer⟩ := @serve_update _ handler _ hJ _ _ hcourse
      rw [EdgeConfigurationHandler.updateConfiguration] at hstate hanswer
      cases hparse : parseRemoteConfiguration J version configuration with
      | ok remote =>
          rw [hparse] at hstate hanswer
          dsimp only
          rw [hparse, Except.toOption]
          dsimp only
          rw [version_of_parse hparse]
          exact iff_true_intro ⟨hanswer, hstate⟩
      | error error =>
          rw [hparse, happlied] at hanswer
          rw [hparse] at hstate
          dsimp only
          rw [hparse, Except.toOption]
          exact iff_true_intro ⟨⟨error, error_of_parse hparse, hanswer⟩, hstate⟩
  | malformed message =>
      obtain ⟨hstate, hanswer⟩ := @serve_malformed _ handler _ hJ _ hcourse
      constructor
      · rintro ⟨⟨error, _, hlatest⟩, _⟩
        exact version_of_isAnsweredWith hJ hlatest hanswer
      · intro hlatest
        rw [← hlatest] at hanswer
        exact ⟨⟨_, by simp, hanswer⟩, hstate⟩
  | unreadable e =>
      constructor
      · rintro ⟨⟨error, _, hlatest⟩, _⟩
        rw [serve_unreadable hcourse] at hlatest
        exact not_isAnsweredWith_nil hlatest
      · exact False.elim
  | unserializable message => exact absurd hcourse (course_ne_unserializable hJ push message)

/-- A push leaves the latest version applied, sound or not. -/
theorem applied_serve (hJ : J.Lawful) (happlied : handler.applied = latestVersion J before) :
    (push.serve J handler).2.applied = latestVersion J (before ++ [push]) := by
  cases hcourse : push.course J with
  | update version configuration =>
      obtain ⟨hstate, _⟩ := @serve_update _ handler _ hJ _ _ hcourse
      rw [hstate, EdgeConfigurationHandler.updateConfiguration]
      cases hparse : parseRemoteConfiguration J version configuration with
      | ok remote =>
          rw [latestVersion_append_some (show push.remote J = some remote by
            simp [Push.remote, hcourse, hparse, Except.toOption])]
          exact (version_of_parse hparse).symm
      | error error =>
          rw [latestVersion_append_none (by simp [Push.remote, hcourse, hparse, Except.toOption])]
          exact happlied
  | malformed message =>
      rw [(serve_malformed hJ hcourse).1, latestVersion_append_none (by simp [Push.remote, hcourse])]
      exact happlied
  | unreadable e =>
      rw [serve_unreadable hcourse, latestVersion_append_none (by simp [Push.remote, hcourse])]
      exact happlied
  | unserializable message => exact absurd hcourse (course_ne_unserializable hJ push message)

/-- Served one after another, pushes leave the latest version applied. -/
theorem applied_servePushes (hJ : J.Lawful) (pushes : List Push)
    (handler : EdgeConfigurationHandler) (happlied : handler.applied = latestVersion J before) :
    (servePushes J pushes handler).applied = latestVersion J (before ++ pushes) := by
  induction pushes generalizing handler before with
  | nil =>
      rw [List.append_nil]
      exact happlied
  | cons push rest ih =>
      rw [List.append_cons]
      exact ih _ (applied_serve hJ happlied)

/-- **Every push of a history.** Each push of a history on one connection is handled as it should
be if and only if each is sound: the calls can be read, and no HTTP/2 body that is not the expected
object comes after another version than -1 has been applied. -/
theorem configuration_history_iff (hJ : J.Lawful) (onConfiguration : Option (List RemoteConfiguration))
    (pushes : List Push) :
    (∀ before push after, pushes = before ++ push :: after →
      push.IsHandled J before (servePushes J before (.new onConfiguration))) ↔
    ∀ before push after, pushes = before ++ push :: after → push.IsSound J before := by
  have hiff : ∀ before push, Push.IsHandled J before
      (servePushes J before (.new onConfiguration)) push ↔ push.IsSound J before := by
    intro before push
    exact isHandled_iff hJ (@applied_servePushes _ [] hJ before _ rfl)
  constructor
  · intro h before push after hsplit
    exact (hiff before push).mp (h before push after hsplit)
  · intro h before push after hsplit
    exact (hiff before push).mpr (h before push after hsplit)

end History

/-! ## Two bodies -/

def asciiBytes (s : String) : List UInt8 := s.toList.map fun c => c.toNat.toUInt8

def pushedBody : List UInt8 := asciiBytes "\x7b\"version\":5,\"config\":\x7b\x7d\x7d"

def brokenBody : List UInt8 := asciiBytes "not json"

def brokenMessage : String :=
  "config update body is not valid JSON: expected ident at line 1 column 2"

def pushedReply : List UInt8 := asciiBytes "\x7b\"err\":\"\",\"latestAppliedVersion\":5\x7d"

def brokenReply : List UInt8 :=
  asciiBytes ("\x7b\"err\":\"" ++ brokenMessage ++ "\",\"latestAppliedVersion\":-1\x7d")

/-- `serde_json` on the two bodies and what they are answered with; of any other reply only the
version can be read back. -/
def sampleJson : SerdeJson where
  Value := Unit
  ingress bytes :=
    if bytes = asciiBytes "\x7b\x7d" then .ok [] else .error "expected value at line 1 column 1"
  configurationUpdateBody bytes :=
    if bytes = pushedBody then .ok (5, ()) else .error "expected ident at line 1 column 2"
  toVec _ := .ok (asciiBytes "\x7b\x7d")
  reply response :=
    .ok (if response = ⟨5, ""⟩ then pushedReply
      else if response = ⟨-1, brokenMessage⟩ then brokenReply
      else 0 :: List.replicate response.latestAppliedVersion.toBitVec.toNat 0)

/-- The version of a reply of `sampleJson`. -/
def replyVersion (reply : List UInt8) : Int32 :=
  if reply = pushedReply then 5
  else if reply = brokenReply then -1
  else .ofBitVec (.ofNat 32 (reply.length - 1))

theorem replyVersion_reply {response : UpdateConfigurationResponse} {bytes : List UInt8}
    (h : sampleJson.reply response = .ok bytes) :
    replyVersion bytes = response.latestAppliedVersion := by
  cases h
  simp only [replyVersion]
  split
  · next hpushed => simp [hpushed]
  · split
    · next hbroken =>
        have hne : ¬ brokenReply = pushedReply := by decide
        simp [hbroken, hne]
    · have hpushed : ∀ n, ¬ (0 :: List.replicate n 0 : List UInt8) = pushedReply := by
        intro n hn
        cases hn
      have hbroken : ∀ n, ¬ (0 :: List.replicate n 0 : List UInt8) = brokenReply := by
        intro n hn
        cases hn
      simp [hpushed, hbroken]

theorem lawful_sampleJson : sampleJson.Lawful where
  toVec_ok _ := ⟨_, rfl⟩
  reply_ok _ := ⟨_, rfl⟩
  reply_version _ _ _ h h' := (replyVersion_reply h).symm.trans (replyVersion_reply h')

/-- A body that is not JSON, after version 5 has been applied, is answered with version -1. -/
theorem malformed_after_push :
    ¬ ∀ before push after, [.h2 pushedBody, .h2 brokenBody] = before ++ push :: after →
      Push.IsHandled sampleJson before (servePushes sampleJson before (.new (some []))) push := by
  intro h
  have hhandled := h [.h2 pushedBody] (.h2 brokenBody) [] rfl
  have hsound := (isHandled_iff lawful_sampleJson
    (@applied_servePushes _ [] lawful_sampleJson _ _ rfl)).mp hhandled
  have hcourse : Push.course sampleJson (.h2 brokenBody) =
      .malformed "expected ident at line 1 column 2" := by
    rfl
  rw [Push.IsSound, hcourse] at hsound
  exact absurd hsound (by decide)

/-- The same body before any other push is handled as it should be. -/
theorem configuration_history_malformed_first :
    sampleJson.Lawful ∧
      ∀ before push after, [.h2 brokenBody, .h2 pushedBody] = before ++ push :: after →
        Push.IsHandled sampleJson before (servePushes sampleJson before (.new (some []))) push := by
  refine ⟨lawful_sampleJson, ?_⟩
  apply (configuration_history_iff lawful_sampleJson (some []) _).mpr
  rintro (_ | ⟨first, _ | ⟨second, before⟩⟩) push after h
  · cases h
    exact rfl
  · cases h
    exact trivial
  · simp at h

end Libcfd.Edge
