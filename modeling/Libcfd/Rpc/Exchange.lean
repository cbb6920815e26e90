import Libcfd.Foundation.Network
import Libcfd.Rpc.Serve
import Libcfd.Rpc.Session
import Mathlib.Data.List.Nodup

/-!
# A client and `serve_cloudflared` at the two ends of a stream

The client bootstraps and calls, the connector serves. What the two say to each other is a list of
messages with their replies (`conversation`), and every schedule, however it cuts the bytes and
whoever moves, has them say it: the client ends up with the answers of the handler, and nothing is
left in the channels (`exchange_settles`).
-/

namespace Libcfd.Rpc

open Program Libcfd.Stream

/-! ## Messages as they are read -/

/-- What was set is read; nothing is said of reading it as a struct that it is not. -/
def Content.ReadAs : Content → ContentReader → Prop
  | .updateConfigurationParams version config, reader =>
      reader.updateConfigurationParams = .ok ⟨version, .ok config⟩
  | .registerUdpSessionParams sessionId dstIp dstPort, reader =>
      reader.registerUdpSessionParams = .ok ⟨.ok sessionId, .ok dstIp, dstPort⟩
  | .unregisterUdpSessionParams sessionId message, reader =>
      reader.unregisterUdpSessionParams = .ok ⟨.ok sessionId, .ok (.ok message)⟩
  | .updateConfigurationResults result, reader =>
      reader.updateConfigurationResults =
        .ok (.ok ⟨result.latestAppliedVersion, .ok (.ok result.error)⟩)
  | .registerUdpSessionResults result, reader =>
      reader.registerUdpSessionResults = .ok (.ok ⟨.ok (.ok result.error), .ok result.spans⟩)
  | _, _ => True

def Payload.ReadAs (payload : Payload) (reader : PayloadReader) : Prop :=
  payload.content.ReadAs reader.content ∧ reader.capTable = .ok (payload.capTable.map .ok)

def ReturnBody.ReadAs : ReturnBody → ReturnWhich → Prop
  | .results payload, which => ∃ reader, which = .results (.ok reader) ∧ payload.ReadAs reader
  | .exception reason type, which => which = .exception (.ok ⟨.ok (.ok reason), .ok type⟩)

def Message.ReadAs : Message → MessageWhich → Prop
  | .bootstrap questionId, which => which = .bootstrap (.ok questionId)
  | .call questionId _ interfaceId methodId params, which =>
      ∃ reader, which = .call (.ok ⟨questionId, interfaceId, methodId, .ok reader⟩) ∧
        params.ReadAs reader
  | .ret answerId body, which =>
      ∃ found, which = .ret (.ok ⟨answerId, .ok found⟩) ∧ body.ReadAs found
  | .finish .., which => which = .finish
  | .release .., which => which = .release

/-- Reading a built message returns what was set. -/
def Capnp.Lawful {T : SegmentTable} (C : Capnp T) : Prop :=
  ∀ (message : Message) (frame : Frame) (owned : T.OwnedSegments),
    C.serialize message = frame.bytes → T.segments owned = frame.segments →
      ∃ which, C.getRoot owned = .ok (.ok which) ∧ message.ReadAs which

/-- The message is one that `read_message` takes: it is within its limits. -/
def Framed {T : SegmentTable} (C : Capnp T) (message : Message) : Prop :=
  ∃ frame : Frame, C.serialize message = frame.bytes

/-! ## Calls -/

/-- The parameters are those of the method, if there is such a method. -/
def Content.Fits : Content → Method → Prop
  | .updateConfigurationParams .., .updateConfiguration => True
  | .registerUdpSessionParams .., .registerUdpSession => True
  | .unregisterUdpSessionParams .., .unregisterUdpSession => True
  | _, .unknown => True
  | _, _ => False

/-- What a method returns. -/
def Method.Returns : Method → Content → Prop
  | .updateConfiguration, content => ∃ result, content = .updateConfigurationResults result
  | .registerUdpSession, content => ∃ result, content = .registerUdpSessionResults result
  | .unregisterUdpSession, content => content = .unregisterUdpSessionResults
  | .unknown, _ => False

/-- A call, with what its `decode` makes of the results of the method. -/
structure Call (α : Type) where
  interfaceIdentifier : UInt64
  methodIdentifier : UInt16
  params : Payload
  fits : params.content.Fits (classify interfaceIdentifier methodIdentifier)
  decode : PayloadReader → Except RpcError α
  value : Content → α
  decode_eq : ∀ payload reader, Payload.ReadAs payload reader →
    (classify interfaceIdentifier methodIdentifier).Returns payload.content →
      decode reader = .ok (value payload.content)

namespace Call

variable {α σ : Type} (call : Call α)

def method : Method := classify call.interfaceIdentifier call.methodIdentifier

/-- The capability that `bootstrap` returns has the import id 0. -/
def operation : Operation α :=
  .call 0 call.interfaceIdentifier call.methodIdentifier (.ok call.params) call.decode

def message (question : UInt32) : Message :=
  .call question 0 call.interfaceIdentifier call.methodIdentifier call.params

/-- What the connector returns, and the handler afterwards. -/
def serve (handler : CloudflaredHandler σ) (s : σ) : ReturnBody × σ :=
  match call.method, call.params.content with
  | .updateConfiguration, .updateConfigurationParams version config =>
      let (response, s') := handler.updateConfiguration version config s
      (.results ⟨.updateConfigurationResults response, []⟩, s')
  | .registerUdpSession, .registerUdpSessionParams sessionId dstIp dstPort =>
      let (response, s') :=
        handler.registerUdpSession (sessionIdentifierBytes sessionId) dstIp dstPort s
      (.results ⟨.registerUdpSessionResults response, []⟩, s')
  | .unregisterUdpSession, _ => (.results ⟨.unregisterUdpSessionResults, []⟩, s)
  | _, _ => (.exception "unimplemented" .unimplemented, s)

/-- The method of the handler that a call asks, if the connector is to ask it. -/
def asks : Option HandlerOp :=
  match call.method, call.params.content with
  | .updateConfiguration, .updateConfigurationParams version config =>
      some (.updateConfiguration version config)
  | .registerUdpSession, .registerUdpSessionParams sessionId dstIp dstPort =>
      some (.registerUdpSession (sessionIdentifierBytes sessionId) dstIp dstPort)
  | _, _ => none

/-- What the client makes of it. -/
def outcome : ReturnBody → CallOutcome α
  | .results payload => .value (call.value payload.content)
  | .exception reason _ => .exception reason

end Call

/-- What is said about these calls: each message of the client with the reply it gets, if any. -/
def conversation {α σ : Type} (handler : CloudflaredHandler σ) :
    List (Call α) → UInt32 → σ → List (Message × Option Message)
  | [], _, _ => []
  | call :: calls, question, s =>
      (call.message question, some (.ret question (call.serve handler s).1)) ::
        (.finish question (call.outcome (call.serve handler s).1).releases, none) ::
          conversation handler calls (question + 1) (call.serve handler s).2

/-- All that is said, from the bootstrap on. -/
def wholeConversation {α σ : Type} (handler : CloudflaredHandler σ) (calls : List (Call α)) (s : σ) :
    List (Message × Option Message) :=
  (.bootstrap 0, some (buildBootstrapReturn 0)) :: (.finish 0 false, none) ::
    conversation handler calls 1 s

/-! ## What each end makes of a message -/

section Decode

variable {α σ : Type} {which : MessageWhich}

theorem decodeBootstrap_of_readAs {question : UInt32}
    (h : (buildBootstrapReturn question).ReadAs which) :
    decodeBootstrap (.ok (.ok which)) question = .ok .capability := by
  obtain ⟨_, rfl, reader, rfl, _, hcapTable⟩ := h
  have hreturn : expectReturn (.ok (.ok (.ret (.ok ⟨question, .ok (.results (.ok reader))⟩))))
      question = .ok ⟨question, .ok (.results (.ok reader))⟩ := expectReturn_eq_ok.mpr ⟨rfl, rfl⟩
  rw [decodeBootstrap, hreturn]
  simp only [ok_bind, orNotInSchema, orCapnp, hcapTable]
  rfl

theorem decodeCall_of_readAs (call : Call α) (handler : CloudflaredHandler σ) (s : σ)
    {question : UInt32} (h : (Message.ret question (call.serve handler s).1).ReadAs which) :
    decodeCall (.ok (.ok which)) question call.decode =
      .ok (call.outcome (call.serve handler s).1) := by
  obtain ⟨found, rfl, hbody⟩ := h
  have hreturn : expectReturn (.ok (.ok (.ret (.ok ⟨question, .ok found⟩)))) question =
      .ok ⟨question, .ok found⟩ := expectReturn_eq_ok.mpr ⟨rfl, rfl⟩
  have hvalue : ∀ payload, (call.serve handler s).1 = .results payload →
      call.method.Returns payload.content := by
    intro payload
    unfold Call.serve
    split
    · next hmethod _ =>
        rw [hmethod]
        rintro ⟨⟩
        exact ⟨_, rfl⟩
    · next hmethod _ =>
        rw [hmethod]
        rintro ⟨⟩
        exact ⟨_, rfl⟩
    · next hmethod =>
        rw [hmethod]
        rintro ⟨⟩
        rfl
    · nofun
  rw [decodeCall, hreturn]
  simp only [ok_bind, orNotInSchema]
  cases hserve : (call.serve handler s).1 with
  | results payload =>
      rw [hserve] at hbody
      obtain ⟨reader, rfl, hreader⟩ := hbody
      simp only [orCapnp, ok_bind, call.decode_eq payload reader hreader (hvalue payload hserve)]
      rfl
  | exception reason type =>
      rw [hserve] at hbody
      obtain rfl := hbody
      rfl

/-- The message is a request, and what comes of it. -/
def Serves (handler : CloudflaredHandler σ) (message : Message) (s : σ) (reply : Option Message)
    (s' : σ) : Prop :=
  ∀ which, message.ReadAs which → ∃ request, decodeRequest (.ok (.ok which)) = .ok request ∧
    request.serve handler s = (reply, s')

variable (handler : CloudflaredHandler σ) (s : σ) (question : UInt32)

theorem serves_bootstrap :
    Serves handler (.bootstrap question) s (some (buildBootstrapReturn question)) s := by
  rintro _ rfl
  exact ⟨.bootstrap question, rfl, rfl⟩

theorem serves_finish (release : Bool) : Serves handler (.finish question release) s none s := by
  rintro _ rfl
  exact ⟨.other, rfl, rfl⟩

theorem serves_call (call : Call α) :
    Serves handler (call.message question) s
      (some (.ret question (call.serve handler s).1)) (call.serve handler s).2 := by
  rintro _ ⟨reader, rfl, hcontent, _⟩
  have hfits : call.params.content.Fits call.method := call.fits
  have hmethod : classify call.interfaceIdentifier call.methodIdentifier = call.method := rfl
  unfold Call.serve
  simp only [decodeRequest, rootWhich, orNotInSchema, orCapnp, ok_bind, hmethod]
  generalize call.params.content = content at hfits hcontent
  cases hm : call.method with
  | updateConfiguration =>
      rw [hm] at hfits
      cases content with
      | updateConfigurationParams version config =>
          have hread : reader.content.updateConfigurationParams = .ok ⟨version, .ok config⟩ :=
            hcontent
          simp only [hread, ok_bind]
          exact ⟨_, rfl, rfl⟩
      | _ => exact hfits.elim
  | registerUdpSession =>
      rw [hm] at hfits
      cases content with
      | registerUdpSessionParams sessionId dstIp dstPort =>
          have hread : reader.content.registerUdpSessionParams =
              .ok ⟨.ok sessionId, .ok dstIp, dstPort⟩ := hcontent
          simp only [hread, ok_bind]
          exact ⟨_, rfl, rfl⟩
      | _ => exact hfits.elim
  | unregisterUdpSession => exact ⟨_, rfl, rfl⟩
  | unknown => exact ⟨_, rfl, rfl⟩

end Decode

/-! ## Programs on messages, performed on bytes -/

section Ends

variable {T : SegmentTable} {C : Capnp T} {E : Signature} {α β σ : Type}

abbrev onBytes (C : Capnp T) (p : Program (wire E) α) : StreamProgram UInt8 IoError E α :=
  p.handle (overBytes C E)

theorem sends_write (C : Capnp T) (message : Message)
    (next : Except RpcError Unit → Program (wire E) α) :
    Sends (onBytes C (.request (S := wire E) (.write message) next)) (C.serialize message)
      (onBytes C (next (.ok ()))) :=
  (sends_writeAll (C.serialize message)).bind _

theorem receives_read (hC : C.Lawful) {message : Message} (hframed : Framed C message) :
    ∃ which, message.ReadAs which ∧ ∀ next : Except RpcError Root → Program (wire E) α,
      Receives (onBytes C (.request (S := wire E) .read next)) (C.serialize message)
        (onBytes C (next (.ok (.ok (.ok which))))) := by
  obtain ⟨frame, hframe⟩ := hframed
  obtain ⟨owned, hsegments, hread⟩ := receives_readMessage (E := E) T frame
  obtain ⟨which, hroot, hwhich⟩ := hC message frame owned hframe hsegments
  refine ⟨which, hwhich, fun next => ?_⟩
  have hroots := hread.bind (Async.andThen fun reader => (pure (C.getRoot reader) : Io E Root).run)
  rw [hframe, ← hroot]
  exact hroots.bind _

/-! ### The connector -/

/-- The rest of a turn, and the turns after it. -/
def afterReply (turns : Nat) :
    Except RpcError (Option Message) → Program (wire handlerCalls) (Option (Except RpcError Unit))
  | .error e => .done (some (.error e))
  | .ok none => serveCloudflared turns
  | .ok (some reply) => .request (S := wire handlerCalls) (.write reply) fun
      | .error e => .done (some (.error e))
      | .ok () => serveCloudflared turns

theorem serveCloudflared_eq (turns : Nat) :
    ∃ next, serveCloudflared (turns + 1) = .request (S := wire handlerCalls) .read next ∧
      ∀ root request, decodeRequest root = .ok request →
        next (.ok root) = request.perform.bind (afterReply turns) := by
  refine ⟨_, rfl, fun root request hdecode => ?_⟩
  show ((replyTo root).run.bind _).bind _ = _
  rw [run_replyTo, hdecode, bind_assoc]
  congr 1
  funext reply
  match reply with
  | .error e => rfl
  | .ok none => rfl
  | .ok (some message) =>
      show Program.request (S := wire handlerCalls) (.write message) _ = _
      congr 1
      funext sent
      cases sent <;> rfl

theorem advances_perform (handler : CloudflaredHandler σ) (request : Request)
    (next : Except RpcError (Option Message) → Program (wire handlerCalls) β) (s : σ)
    (inbox sent : List UInt8) :
    ∃ n, Party.Advances handler.answer n
      ⟨onBytes C (request.perform.bind next), s, inbox, sent⟩ []
      ⟨onBytes C (next (.ok (request.serve handler s).1)), (request.serve handler s).2, inbox,
        sent⟩ := by
  cases request with
  | updateConfiguration => exact ⟨1, Party.advances_of_asking⟩
  | registerUdpSession => exact ⟨1, Party.advances_of_asking⟩
  | _ => exact ⟨0, .refl _⟩

def replyBytes (C : Capnp T) : Option Message → List UInt8
  | some reply => C.serialize reply
  | none => []

/-- The connector takes a message in, does what it asks for, and replies. -/
theorem advances_turn (hC : C.Lawful) {handler : CloudflaredHandler σ} {message : Message}
    {reply : Option Message} {s s' : σ} (hframed : Framed C message)
    (hserves : Serves handler message s reply s') (turns : Nat) (sent : List UInt8) :
    ∃ n, Party.Advances handler.answer n
      ⟨onBytes C (serveCloudflared (turns + 1)), s, C.serialize message, sent⟩ (replyBytes C reply)
      ⟨onBytes C (serveCloudflared turns), s', [], sent ++ replyBytes C reply⟩ := by
  obtain ⟨next, heq, hnext⟩ := serveCloudflared_eq turns
  obtain ⟨which, hwhich, hreceives⟩ :=
    receives_read (E := handlerCalls) (α := Option (Except RpcError Unit)) hC hframed
  obtain ⟨request, hdecode, hserve⟩ := hserves which hwhich
  have hread := hreceives next
  rw [← heq, hnext _ request hdecode] at hread
  have hfirst := @Party.advances_of_receives _ _ _ _ _ handler.answer _ _ s _ [] sent hread
  rw [List.append_nil] at hfirst
  obtain ⟨n, hperform⟩ := advances_perform (C := C) handler request (afterReply turns) s [] sent
  rw [hserve] at hperform
  have hasked := hfirst.append hperform
  cases reply with
  | none =>
      rw [replyBytes, List.append_nil]
      exact ⟨_, hasked⟩
  | some reply =>
      have hwrite : Sends (onBytes C (afterReply turns (.ok (some reply)))) (C.serialize reply)
          (onBytes C (serveCloudflared turns)) := sends_write C reply _
      exact ⟨_, hasked.append (Party.advances_of_sends hwrite)⟩

end Ends

/-! ## Both ends -/

section Exchange

variable {T : SegmentTable} {C : Capnp T} {α β γ σ : Type}

/-- A client on the left, and the connector with its handler on the right. -/
abbrev Talk (α β σ : Type) : Type := Network UInt8 IoError noEffects handlerCalls α β Unit σ

/-- The client asks for nothing but the stream. -/
def noAnswers : (op : noEffects.Op) → Unit → noEffects.Reply op × Unit := fun _ _ => ((), ())

/-- Some schedule leads from one state to the other. -/
def Leads (handler : CloudflaredHandler σ) (net net' : Talk α β σ) : Prop :=
  ∃ n, Steps (Network.Small noAnswers handler.answer) n net net'

/-- The client at `p`, the connector with so many turns left, and nothing in the channels. -/
def between (C : Capnp T) (p : Program (wire noEffects) α) (asked : List UInt8) (turns : Nat) (s : σ)
    (replied : List UInt8) : Talk α (Option (Except RpcError Unit)) σ where
  left := ⟨onBytes C p, (), [], asked⟩
  right := ⟨onBytes C (serveCloudflared turns), s, [], replied⟩

variable {handler : CloudflaredHandler σ}

theorem Leads.trans {net net' net'' : Talk α β σ} (h : Leads handler net net')
    (h' : Leads handler net' net'') : Leads handler net net'' := by
  obtain ⟨n, h⟩ := h
  obtain ⟨m, h'⟩ := h'
  exact ⟨n + m, h.append h'⟩

/-- The client writes a message, which is served; the reply is in its channel. -/
theorem leads_write (hC : C.Lawful) {message : Message} {reply : Option Message} {s s' : σ}
    (hframed : Framed C message) (hserves : Serves handler message s reply s')
    (next : Except RpcError Unit → Program (wire noEffects) α) (turns : Nat)
    (asked replied : List UInt8) :
    Leads handler
      (between C (.request (S := wire noEffects) (.write message) next) asked (turns + 1) s replied)
      ⟨⟨onBytes C (next (.ok ())), (), replyBytes C reply, asked ++ C.serialize message⟩,
        ⟨onBytes C (serveCloudflared turns), s', [], replied ++ replyBytes C reply⟩⟩ := by
  have hwrite := @Party.advances_of_sends _ _ _ _ _ noAnswers _ _ () _ [] asked
    (sends_write C message next)
  obtain ⟨n, hturn⟩ := advances_turn hC hframed hserves turns replied
  exact ⟨_, (Network.steps_of_left hwrite _).append (Network.steps_of_right hturn _)⟩

theorem leads_read (hC : C.Lawful) {reply : Message} (hframed : Framed C reply)
    (next : Except RpcError Root → Program (wire noEffects) α) (asked : List UInt8)
    (right : Party UInt8 IoError handlerCalls β σ) :
    ∃ which, reply.ReadAs which ∧ Leads handler
      ⟨⟨onBytes C (.request (S := wire noEffects) .read next), (), C.serialize reply, asked⟩, right⟩
      ⟨⟨onBytes C (next (.ok (.ok (.ok which)))), (), [], asked⟩, right⟩ := by
  obtain ⟨which, hwhich, hreceives⟩ := receives_read (E := noEffects) (α := α) hC hframed
  have hread := @Party.advances_of_receives _ _ _ _ _ noAnswers _ _ () _ [] asked (hreceives next)
  rw [List.append_nil] at hread
  have hsteps := @Network.steps_of_left _ _ _ _ _ _ _ _ _ handler.answer _ _ _ _ hread right
  rw [Party.receive_nil] at hsteps
  exact ⟨which, hwhich, _, hsteps⟩

/-- The requests of an exchange, as far as its answer is not read or can be decoded. -/
theorem exchange_bind_eq (question : UInt32) (message : Message)
    (decode : Root → Except RpcError γ) (release : γ → Bool) (conclude : γ → Except RpcError β)
    (client : RpcClient) (settle : γ → RpcClient)
    (next : Except RpcError β × RpcClient → Program (wire noEffects) α) :
    ∃ written gotten, written (.ok ()) = .request (S := wire noEffects) .read gotten ∧
      (exchange question message decode release conclude client settle).bind next =
        .request (S := wire noEffects) (.write message) written ∧
      (∀ e, gotten (.error e) = next (.error e, client)) ∧
      ∀ root outcome, decode root = .ok outcome →
        ∃ finished, gotten (.ok root) = .request (S := wire noEffects)
            (.write (.finish question (release outcome))) finished ∧
          finished (.ok ()) = next (conclude outcome, settle outcome) := by
  refine ⟨_, _, rfl, rfl, fun e => rfl, fun root outcome hdecode => ?_⟩
  dsimp only
  rw [hdecode]
  exact ⟨_, rfl, rfl⟩

/-- A question is asked, answered and settled. -/
theorem leads_exchange (hC : C.Lawful) {question : UInt32} {message reply : Message}
    (decode : Root → Except RpcError γ) (release : γ → Bool) (conclude : γ → Except RpcError β)
    (client : RpcClient) (settle : γ → RpcClient) {outcome : γ} {s s' : σ}
    (hmessage : Framed C message) (hserves : Serves handler message s (some reply) s')
    (hreply : Framed C reply)
    (hdecode : ∀ which, reply.ReadAs which → decode (.ok (.ok which)) = .ok outcome)
    (hfinish : Framed C (.finish question (release outcome)))
    (next : Except RpcError β × RpcClient → Program (wire noEffects) α) (turns : Nat)
    (asked replied : List UInt8) :
    Leads handler
      (between C ((exchange question message decode release conclude client settle).bind next) asked
        (turns + 2) s replied)
      (between C (next (conclude outcome, settle outcome))
        (asked ++ C.serialize message ++ C.serialize (.finish question (release outcome))) turns s'
        (replied ++ C.serialize reply)) := by
  obtain ⟨written, gotten, hwritten, heq, _, hgotten⟩ :=
    exchange_bind_eq question message decode release conclude client settle next
  have hask := leads_write hC hmessage hserves written (turns + 1) asked replied
  rw [hwritten] at hask
  obtain ⟨which, hwhich, hanswer⟩ := leads_read hC hreply gotten (asked ++ C.serialize message)
    ⟨onBytes C (serveCloudflared (turns + 1)), s', [], replied ++ C.serialize reply⟩
  obtain ⟨finished, hfinished, hnext⟩ := hgotten _ outcome (hdecode which hwhich)
  rw [hfinished] at hanswer
  have hsettle := leads_write hC hfinish (serves_finish handler s' question (release outcome))
    finished turns (asked ++ C.serialize message) (replied ++ C.serialize reply)
  rw [hnext, replyBytes, List.append_nil] at hsettle
  rw [heq]
  exact (hask.trans hanswer).trans hsettle

/-! ### Calls, one after the other -/

/-- The answer of the handler, as results. -/
def HandlerOp.returned : (op : HandlerOp) → handlerCalls.Reply op → Content
  | .updateConfiguration .., response => .updateConfigurationResults response
  | .registerUdpSession .., response => .registerUdpSessionResults response
  | .unregisterUdpSession .., _ => .unregisterUdpSessionResults

/-- The results of the calls are the answers of the handler, one call after the other. Nothing is
said of a call of `unregisterUdpSession`, and of what it does to the handler. -/
inductive Gets (handler : CloudflaredHandler σ) :
    σ → List (Call α) → List (Except RpcError (Answer α)) → Prop
  | nil (s : σ) : Gets handler s [] []
  | answered {s : σ} {call : Call α} {calls : List (Call α)}
      {results : List (Except RpcError (Answer α))} {op : HandlerOp} (hop : call.asks = some op)
      (h : Gets handler (handler.answer op s).2 calls results) :
      Gets handler s (call :: calls)
        (.ok (.value (call.value (op.returned (handler.answer op s).1))) :: results)
  | unknown {s : σ} {call : Call α} {calls : List (Call α)}
      {results : List (Except RpcError (Answer α))} (hmethod : call.method = .unknown)
      (h : Gets handler s calls results) :
      Gets handler s (call :: calls) (.error (.remoteCall "unimplemented") :: results)
  | unregister {s : σ} {call : Call α} {calls : List (Call α)}
      {results : List (Except RpcError (Answer α))} (hmethod : call.method = .unregisterUdpSession)
      (result : Except RpcError (Answer α)) (s' : σ) (h : Gets handler s' calls results) :
      Gets handler s (call :: calls) (result :: results)

/-- What a call returns. -/
def Call.result (call : Call α) (body : ReturnBody) : Except RpcError (Answer α) :=
  (call.outcome body).conclude.map .value

theorem Gets.cons {call : Call α} {calls : List (Call α)}
    {results : List (Except RpcError (Answer α))} {s : σ}
    (h : Gets handler (call.serve handler s).2 calls results) :
    Gets handler s (call :: calls) (call.result (call.serve handler s).1 :: results) := by
  have hfits : call.params.content.Fits call.method := call.fits
  cases hmethod : call.method with
  | updateConfiguration =>
      rw [hmethod] at hfits
      cases hcontent : call.params.content with
      | updateConfigurationParams version config =>
          have hasks : call.asks = some (.updateConfiguration version config) := by
            rw [Call.asks, hmethod, hcontent]
          rw [Call.serve, hmethod, hcontent] at h ⊢
          exact .answered hasks h
      | _ =>
          rw [hcontent] at hfits
          exact hfits.elim
  | registerUdpSession =>
      rw [hmethod] at hfits
      cases hcontent : call.params.content with
      | registerUdpSessionParams sessionId dstIp dstPort =>
          have hasks : call.asks =
              some (.registerUdpSession (sessionIdentifierBytes sessionId) dstIp dstPort) := by
            rw [Call.asks, hmethod, hcontent]
          rw [Call.serve, hmethod, hcontent] at h ⊢
          exact .answered hasks h
      | _ =>
          rw [hcontent] at hfits
          exact hfits.elim
  | unregisterUdpSession => exact .unregister hmethod _ _ h
  | unknown =>
      rw [Call.serve, hmethod] at h ⊢
      exact .unknown hmethod h

/-- All the messages of a conversation are within the limits. -/
def AllFramed (C : Capnp T) (said : List (Message × Option Message)) : Prop :=
  ∀ pair ∈ said, Framed C pair.1 ∧ ∀ reply ∈ pair.2, Framed C reply

/-- What the client writes in a conversation. -/
def askedBytes (C : Capnp T) (said : List (Message × Option Message)) : List UInt8 :=
  said.flatMap fun pair => C.serialize pair.1

def repliedBytes (C : Capnp T) (said : List (Message × Option Message)) : List UInt8 :=
  said.flatMap fun pair => replyBytes C pair.2

theorem perform_operation_bind (call : Call α) {client : RpcClient}
    (h : client.hasBootstrap = true)
    (next : Except RpcError (Answer α) × RpcClient → Program (wire noEffects) β) :
    (call.operation.perform client).bind next =
      (exchange client.nextQuestion (call.message client.nextQuestion)
        (decodeCall · client.nextQuestion call.decode) CallOutcome.releases CallOutcome.conclude
        client.countQuestion fun _ => client.countQuestion).bind
          fun out => next (out.1.map .value, out.2) := by
  show ((RpcClient.call 0 call.interfaceIdentifier call.methodIdentifier (.ok call.params)
    call.decode client).bind _).bind next = _
  rw [call_eq 0 _ _ _ h, bind_assoc]
  congr 1
  funext ⟨result, client'⟩
  cases result with
  | ok value => rfl
  | error e => rfl

/-- The calls are made, served and settled, one after the other. -/
theorem leads_calls (hC : C.Lawful) (calls : List (Call α)) {client : RpcClient}
    (hbootstrap : client.hasBootstrap = true) {s : σ}
    (hframed : AllFramed C (conversation handler calls client.nextQuestion s))
    (next : List (Turn α) × RpcClient → Program (wire noEffects) β) (turns : Nat)
    (asked replied : List UInt8) :
    ∃ taken client' s', Gets handler s calls (taken.map Turn.result) ∧ Leads handler
      (between C ((operations (calls.map Call.operation) client).bind next) asked
        (turns + 2 * calls.length) s replied)
      (between C (next (taken, client'))
        (asked ++ askedBytes C (conversation handler calls client.nextQuestion s)) turns s'
        (replied ++ repliedBytes C (conversation handler calls client.nextQuestion s))) := by
  induction calls generalizing client s next asked replied with
  | nil =>
      refine ⟨[], client, s, .nil s, ?_⟩
      rw [conversation, askedBytes, repliedBytes, List.flatMap_nil, List.append_nil, List.flatMap_nil,
        List.append_nil]
      exact ⟨0, .refl _⟩
  | cons call calls ih =>
      obtain ⟨⟨hmessage, hreply⟩, hrest⟩ := List.forall_mem_cons.mp hframed
      obtain ⟨⟨hfinish, _⟩, hrest⟩ := List.forall_mem_cons.mp hrest
      let turn : Turn α :=
        ⟨client, call.result (call.serve handler s).1, client.countQuestion⟩
      obtain ⟨taken, client', s', hgets, hleads⟩ :=
        @ih client.countQuestion hbootstrap (call.serve handler s).2 hrest
          (fun out => next (turn :: out.1, out.2))
          (asked ++ C.serialize (call.message client.nextQuestion) ++ C.serialize
            (.finish client.nextQuestion (call.outcome (call.serve handler s).1).releases))
          (replied ++ C.serialize (.ret client.nextQuestion (call.serve handler s).1))
      refine ⟨turn :: taken, client', s', hgets.cons, ?_⟩
      have hexchange := leads_exchange hC (decodeCall · client.nextQuestion call.decode)
        CallOutcome.releases CallOutcome.conclude client.countQuestion
        (fun _ => client.countQuestion) hmessage
        (serves_call handler s client.nextQuestion call) (hreply _ rfl)
        (fun which hwhich => decodeCall_of_readAs call handler s hwhich) hfinish
        (fun out => ((operations (calls.map Call.operation) out.2).bind fun last =>
          .done (⟨client, out.1.map .value, out.2⟩ :: last.1, last.2)).bind next)
        (turns + 2 * calls.length) asked replied
      have hfirst : (operations ((call :: calls).map Call.operation) client).bind next = _ :=
        (bind_assoc ..).trans (perform_operation_bind call hbootstrap _)
      rw [hfirst]
      refine hexchange.trans ?_
      show Leads handler (between C (((operations (calls.map Call.operation)
        client.countQuestion).bind _).bind next) _ _ _ _) _
      rw [bind_assoc]
      rw [conversation, askedBytes, repliedBytes, List.flatMap_cons, List.flatMap_cons,
        List.flatMap_cons, List.flatMap_cons, ← List.append_assoc, ← List.append_assoc,
        ← List.append_assoc, ← List.append_assoc]
      show Leads handler _ (between C _ _ turns s' (replied ++ _ ++ [] ++ _))
      rw [List.append_nil]
      exact hleads

/-! ### The whole exchange -/

theorem perform_bootstrap_bind {client : RpcClient} (h : client.hasBootstrap = false)
    (next : Except RpcError (Answer α) × RpcClient → Program (wire noEffects) β) :
    (Operation.bootstrap.perform client).bind next =
      (exchange client.nextQuestion (.bootstrap client.nextQuestion)
        (decodeBootstrap · client.nextQuestion) BootstrapOutcome.releases BootstrapOutcome.conclude
        client.countQuestion (BootstrapOutcome.settle client.countQuestion)).bind
          fun out => next (out.1.map .capability, out.2) := by
  show ((RpcClient.bootstrap client).bind _).bind next = _
  rw [bootstrap_eq h, bind_assoc]
  congr 1
  funext ⟨result, client'⟩
  cases result with
  | ok value => rfl
  | error e => rfl

/-- The operations of the client. -/
def bootstrapAndCall (calls : List (Call α)) : Program (wire noEffects) (List (Turn α)) :=
  session (.bootstrap :: calls.map Call.operation) false

/-- The client once it has the capability. -/
def RpcClient.bootstrapped : RpcClient :=
  BootstrapOutcome.settle RpcClient.new.countQuestion .capability

theorem RpcClient.nextQuestion_bootstrapped : RpcClient.bootstrapped.nextQuestion = 1 := rfl

def bootstrapTurn (α : Type) : Turn α := ⟨.new, .ok (.capability 0), .bootstrapped⟩

theorem leads_bootstrap (hC : C.Lawful) (calls : List (Call α)) (s : σ)
    (hbootstrap : Framed C (.bootstrap 0)) (hreturn : Framed C (buildBootstrapReturn 0))
    (hfinish : Framed C (.finish 0 false)) (turns : Nat) :
    Leads handler (between C (bootstrapAndCall calls) [] (turns + 2) s [])
      (between C ((operations (calls.map Call.operation) .bootstrapped).bind fun out =>
          .done (bootstrapTurn α :: out.1))
        (C.serialize (.bootstrap 0) ++ C.serialize (.finish 0 false)) turns s
        (C.serialize (buildBootstrapReturn 0))) := by
  let next : Except RpcError (Answer α) × RpcClient → Program (wire noEffects) (List (Turn α)) :=
    fun out => ((operations (calls.map Call.operation) out.2).bind fun last =>
      .done ((⟨.new, out.1, out.2⟩ : Turn α) :: last.1, last.2)).bind fun last => .done last.1
  have hfirst : bootstrapAndCall calls = (Operation.bootstrap.perform .new).bind next :=
    bind_assoc ..
  have hlast : next (.ok (.capability 0), .bootstrapped) =
      (operations (calls.map Call.operation) .bootstrapped).bind fun out =>
        .done (bootstrapTurn α :: out.1) := bind_assoc ..
  have hexchange := leads_exchange hC (decodeBootstrap · 0) BootstrapOutcome.releases
    BootstrapOutcome.conclude RpcClient.new.countQuestion
    (BootstrapOutcome.settle RpcClient.new.countQuestion) hbootstrap
    (serves_bootstrap handler s 0) hreturn (fun which hwhich => decodeBootstrap_of_readAs hwhich)
    hfinish (fun out => next (out.1.map .capability, out.2)) turns [] []
  rw [hfirst, perform_bootstrap_bind rfl, ← hlast]
  exact hexchange

theorem leads_session (hC : C.Lawful) (handler : CloudflaredHandler σ) (calls : List (Call α)) (s : σ)
    (hframed : AllFramed C (wholeConversation handler calls s)) (turns : Nat) :
    ∃ taken results s', taken.map Turn.result = .ok (.capability 0) :: results ∧
      Gets handler s calls results ∧ Leads handler
        (between C (bootstrapAndCall calls) [] (turns + 2 * calls.length + 2) s [])
        (between C (.done taken) (askedBytes C (wholeConversation handler calls s)) turns s'
          (repliedBytes C (wholeConversation handler calls s))) := by
  obtain ⟨⟨hmessage, hreply⟩, hrest⟩ := List.forall_mem_cons.mp hframed
  obtain ⟨⟨hfinish, _⟩, hrest⟩ := List.forall_mem_cons.mp hrest
  rw [← RpcClient.nextQuestion_bootstrapped] at hrest
  obtain ⟨taken, client', s', hgets, hleads⟩ :=
    @leads_calls _ _ _ _ _ handler hC calls .bootstrapped rfl s hrest
      (fun out => .done (bootstrapTurn α :: out.1)) turns
      (C.serialize (.bootstrap 0) ++ C.serialize (.finish 0 false))
      (C.serialize (buildBootstrapReturn 0))
  refine ⟨bootstrapTurn α :: taken, taken.map Turn.result, s', rfl, hgets, ?_⟩
  refine (leads_bootstrap hC calls s hmessage (hreply _ rfl) hfinish _).trans ?_
  rw [RpcClient.nextQuestion_bootstrapped] at hleads
  rw [wholeConversation, askedBytes, repliedBytes, List.flatMap_cons, List.flatMap_cons,
    List.flatMap_cons, List.flatMap_cons, ← List.append_assoc]
  exact hleads

/-- A question gets its return, and anything else gets nothing. -/
def Matched (pair : Message × Option Message) : Prop :=
  match pair.1.question? with
  | some question => ∃ body, pair.2 = some (.ret question body)
  | none => pair.2 = none

theorem matched_ret {message : Message} {question : UInt32} (h : message.question? = some question)
    (body : ReturnBody) : Matched (message, some (.ret question body)) := by
  rw [Matched, h]
  exact ⟨body, rfl⟩

theorem matched_none {message : Message} (h : message.question? = none) :
    Matched (message, none) := by
  rw [Matched, h]

/-- The question a message settles. -/
def Message.settles? : Message → Option UInt32
  | .finish questionId _ => some questionId
  | _ => none

theorem matched_conversation (handler : CloudflaredHandler σ) (calls : List (Call α))
    (question : UInt32) (s : σ) :
    (∀ pair ∈ conversation handler calls question s, Matched pair) ∧
      (conversation handler calls question s).filterMap (Message.question? ·.1) =
        (conversation handler calls question s).filterMap (Message.settles? ·.1) := by
  induction calls generalizing question s with
  | nil => exact ⟨List.forall_mem_nil _, rfl⟩
  | cons call calls ih =>
      obtain ⟨hmatched, hsettled⟩ := ih (question + 1) (call.serve handler s).2
      rw [conversation]
      constructor
      · rw [List.forall_mem_cons, List.forall_mem_cons]
        exact ⟨matched_ret rfl _, matched_none rfl, hmatched⟩
      · exact congrArg (question :: ·) hsettled

theorem matched_wholeConversation (handler : CloudflaredHandler σ) (calls : List (Call α)) (s : σ) :
    (∀ pair ∈ wholeConversation handler calls s, Matched pair) ∧
      (wholeConversation handler calls s).filterMap (Message.question? ·.1) =
        (wholeConversation handler calls s).filterMap (Message.settles? ·.1) := by
  obtain ⟨hmatched, hsettled⟩ := matched_conversation handler calls 1 s
  rw [wholeConversation]
  constructor
  · rw [List.forall_mem_cons, List.forall_mem_cons]
    exact ⟨matched_ret rfl _, matched_none rfl, hmatched⟩
  · exact congrArg (0 :: ·) hsettled

theorem isReading_serveCloudflared (C : Capnp T) (turns : Nat) :
    IsReading (onBytes C (serveCloudflared (turns + 1))) := by
  obtain ⟨next, heq, _⟩ := run_readExactFrom (E := handlerCalls) [] (show 8 ≠ 0 by decide)
  show IsReading ((((readExactFrom [] 8).run.bind _).bind _).bind _)
  rw [heq]
  exact ⟨8, _, rfl⟩

theorem coherent_onBytes {E : Signature} (C : Capnp T) (p : Program (wire E) α) :
    Coherent (onBytes C p) :=
  coherent_handle (coherent_overBytes C) p

/-- **The client and the connector get on**, whatever the schedule: it is at most so long, it cannot
get stuck but at its end, and there every question has been answered and settled, nothing is left in
the channels, and the client has the answers of the handler. -/
theorem exchange_settles (hC : C.Lawful) (handler : CloudflaredHandler σ) (calls : List (Call α))
    (s : σ) (more : Nat) (hframed : AllFramed C (wholeConversation handler calls s)) :
    ∃ last turns results,
      Network.Settles noAnswers handler.answer
        (between C (bootstrapAndCall calls) [] (more + 1 + 2 * calls.length + 2) s []) last ∧
      last.left.program = .done turns ∧
      turns.map Turn.result = .ok (.capability 0) :: results ∧ Gets handler s calls results ∧
      last.left.inbox = [] ∧ last.right.Waits ∧
      last.left.sent = askedBytes C (wholeConversation handler calls s) ∧
      last.right.sent = repliedBytes C (wholeConversation handler calls s) ∧
      (∀ pair ∈ wholeConversation handler calls s, Matched pair) ∧
      (wholeConversation handler calls s).filterMap (Message.question? ·.1) =
        (wholeConversation handler calls s).filterMap (Message.settles? ·.1) ∧
      ∀ moves reached,
        Machine.run (Network.step noAnswers handler.answer)
          (between C (bootstrapAndCall calls) [] (more + 1 + 2 * calls.length + 2) s []) moves =
            some reached →
          ¬ (reached.left.Waits ∧ reached.right.Waits) := by
  obtain ⟨turns, results, s', hresults, hgets, n, hsteps⟩ :=
    leads_session hC handler calls s hframed (more + 1)
  have hwaits := isReading_serveCloudflared C more
  have hsettles := Network.settles_of_steps ⟨coherent_onBytes C _, coherent_onBytes C _⟩
    (Network.stuck_iff.mpr fun size =>
      ⟨Party.step_of_done rfl size, Party.step_of_waits ⟨hwaits, rfl⟩ size⟩) hsteps
  obtain ⟨hmatched, hsettled⟩ := matched_wholeConversation handler calls s
  refine ⟨_, turns, results, hsettles, rfl, hresults, hgets, rfl, ⟨hwaits, rfl⟩, rfl, rfl, hmatched,
    hsettled, ?_⟩
  rintro moves reached hrun ⟨hleft, hright⟩
  obtain ⟨_, bound, hall⟩ := hsettles
  obtain ⟨_, _, hstuck⟩ := hall moves reached hrun
  have hlast := hstuck (Network.stuck_iff.mpr fun size =>
    ⟨Party.step_of_waits hleft size, Party.step_of_waits hright size⟩)
  -- the client is done in the last state
  obtain ⟨⟨room, next, hreading⟩, _⟩ := hleft
  rw [hlast] at hreading
  cases hreading

end Exchange

/-! ### One call -/

/-- A client that pushes a configuration. -/
def pushCall : Call UpdateConfigurationResponse where
  interfaceIdentifier := configurationManagerInterfaceId
  methodIdentifier := 0
  params := ⟨.updateConfigurationParams 1 [123, 125], []⟩
  fits := by
    rw [show classify configurationManagerInterfaceId 0 = .updateConfiguration by decide]
    trivial
  decode payload := do
    let results ← orCapnp payload.content.updateConfigurationResults
    let response ← orCapnp results
    return ⟨response.latestAppliedVersion, ← toStr response.err⟩
  value
    | .updateConfigurationResults response => response
    | _ => ⟨-1, ""⟩
  decode_eq := by
    rintro ⟨content, _⟩ reader ⟨hcontent, _⟩ hreturns
    rw [show classify configurationManagerInterfaceId 0 = .updateConfiguration by decide] at hreturns
    obtain ⟨response, rfl⟩ := hreturns
    have hread : reader.content.updateConfigurationResults =
        .ok (.ok ⟨response.latestAppliedVersion, .ok (.ok response.error)⟩) := hcontent
    simp only [hread, orCapnp, ok_bind]
    rfl

/-- The crate as it is on the messages given, each with its frame and what is read of it. -/
def Capnp.scripted (T : SegmentTable) (entries : List (Message × Frame × MessageWhich))
    (otherwise : Message → List UInt8) : Capnp T where
  serialize message :=
    match entries.find? (·.1 = message) with
    | some entry => entry.2.1.bytes
    | none => otherwise message
  getRoot owned :=
    match entries.find? (·.2.1.segments = T.segments owned) with
    | some entry => .ok (.ok entry.2.2)
    | none => .error ⟨"no such message"⟩

theorem find?_of_nodup_map {β κ : Type} [DecidableEq κ] {key : β → κ} {xs : List β}
    (h : (xs.map key).Nodup) {x : β} (hx : x ∈ xs) : xs.find? (key · = key x) = some x := by
  cases hfind : xs.find? (key · = key x) with
  | none =>
      have hnone := List.find?_eq_none.mp hfind x hx
      simp at hnone
  | some y =>
      have hkey : key y = key x := by simpa using List.find?_some hfind
      rw [List.inj_on_of_nodup_map h (List.mem_of_find?_eq_some hfind) hx hkey]

theorem Capnp.lawful_scripted {T : SegmentTable} {entries : List (Message × Frame × MessageWhich)}
    {otherwise : Message → List UInt8} (hread : ∀ entry ∈ entries, entry.1.ReadAs entry.2.2)
    (hdistinct : (entries.map fun entry => entry.2.1.segments).Nodup)
    (hotherwise : ∀ (message : Message) (frame : Frame), otherwise message ≠ frame.bytes) :
    (Capnp.scripted T entries otherwise).Lawful := by
  intro message frame owned hbytes hsegments
  rw [scripted] at hbytes ⊢
  dsimp only at hbytes ⊢
  cases hfind : entries.find? (·.1 = message) with
  | none =>
      rw [hfind] at hbytes
      exact absurd hbytes (hotherwise message frame)
  | some entry =>
      rw [hfind] at hbytes
      have hmem := List.mem_of_find?_eq_some hfind
      have hmessage : entry.1 = message := by simpa using List.find?_some hfind
      -- the entry is found again by its segments
      rw [hsegments, ← Frame.segments_eq hbytes, find?_of_nodup_map hdistinct hmem]
      exact ⟨entry.2.2, rfl, hmessage ▸ hread entry hmem⟩

theorem Capnp.framed_scripted {T : SegmentTable} {entries : List (Message × Frame × MessageWhich)}
    {otherwise : Message → List UInt8} (hdistinct : (entries.map (·.1)).Nodup)
    {entry : Message × Frame × MessageWhich} (h : entry ∈ entries) :
    Framed (Capnp.scripted T entries otherwise) entry.1 := by
  refine ⟨entry.2.1, ?_⟩
  rw [scripted]
  dsimp only
  rw [find?_of_nodup_map hdistinct h]

/-! Messages as capnp lays them out, one word after the other. -/

def bootstrapFrame : Frame :=
  Frame.single
    ([0, 0, 0, 0, 1, 0, 1, 0] ++ [8, 0, 0, 0, 0, 0, 0, 0] ++ [0, 0, 0, 0, 1, 0, 1, 0] ++
      [0, 0, 0, 0, 0, 0, 0, 0] ++ [0, 0, 0, 0, 0, 0, 0, 0]) (by decide) (by decide)

def bootstrapReturnFrame : Frame :=
  Frame.single
    ([0, 0, 0, 0, 1, 0, 1, 0] ++ [3, 0, 0, 0, 0, 0, 0, 0] ++ [0, 0, 0, 0, 2, 0, 1, 0] ++
      [0, 0, 0, 0, 0, 0, 0, 0] ++ [0, 0, 0, 0, 0, 0, 0, 0] ++ [0, 0, 0, 0, 0, 0, 2, 0] ++
      [3, 0, 0, 0, 0, 0, 0, 0] ++ [1, 0, 0, 0, 23, 0, 0, 0] ++ [4, 0, 0, 0, 1, 0, 1, 0] ++
      [1, 0, 0, 0, 0, 0, 0, 0] ++ [0, 0, 0, 0, 0, 0, 0, 0]) (by decide) (by decide)

/-- `finish` of a question below 256, with nothing released. -/
def finishFrame (question : UInt8) : Frame :=
  Frame.single
    ([0, 0, 0, 0, 1, 0, 1, 0] ++ [4, 0, 0, 0, 0, 0, 0, 0] ++ [0, 0, 0, 0, 1, 0, 0, 0] ++
      [question, 0, 0, 0, 1, 0, 0, 0]) (by simp) (by simp; decide)

def pushFrame : Frame :=
  Frame.single
    ([0, 0, 0, 0, 1, 0, 1, 0] ++ [2, 0, 0, 0, 0, 0, 0, 0] ++ [0, 0, 0, 0, 3, 0, 3, 0] ++
      [1, 0, 0, 0, 0, 0, 0, 0] ++ [4, 219, 37, 170, 189, 223, 142, 180] ++
      [0, 0, 0, 0, 0, 0, 0, 0] ++ [8, 0, 0, 0, 1, 0, 1, 0] ++ [12, 0, 0, 0, 0, 0, 2, 0] ++
      [0, 0, 0, 0, 0, 0, 0, 0] ++ [0, 0, 0, 0, 0, 0, 0, 0] ++ [0, 0, 0, 0, 0, 0, 0, 0] ++
      [4, 0, 0, 0, 1, 0, 1, 0] ++ [0, 0, 0, 0, 0, 0, 0, 0] ++ [1, 0, 0, 0, 0, 0, 0, 0] ++
      [1, 0, 0, 0, 18, 0, 0, 0] ++ [123, 125, 0, 0, 0, 0, 0, 0])
    (by decide +kernel) (by decide +kernel)

def pushReturnFrame : Frame :=
  Frame.single
    ([0, 0, 0, 0, 1, 0, 1, 0] ++ [3, 0, 0, 0, 0, 0, 0, 0] ++ [0, 0, 0, 0, 2, 0, 1, 0] ++
      [1, 0, 0, 0, 0, 0, 0, 0] ++ [0, 0, 0, 0, 0, 0, 0, 0] ++ [0, 0, 0, 0, 0, 0, 2, 0] ++
      [4, 0, 0, 0, 0, 0, 1, 0] ++ [17, 0, 0, 0, 7, 0, 0, 0] ++ [0, 0, 0, 0, 1, 0, 1, 0] ++
      [1, 0, 0, 0, 0, 0, 0, 0] ++ [1, 0, 0, 0, 10, 0, 0, 0] ++ [0, 0, 0, 0, 0, 0, 0, 0] ++
      [0, 0, 0, 0, 1, 0, 1, 0]) (by decide) (by decide)

/-- A struct that is read as any other is an error here. -/
def noContent : ContentReader := capabilityReader.content

/-- The messages of a bootstrap and a push, up to the return of the push. -/
def pushEntries : List (Message × Frame × MessageWhich) :=
  [(.bootstrap 0, bootstrapFrame, .bootstrap (.ok 0)),
    (buildBootstrapReturn 0, bootstrapReturnFrame,
      .ret (.ok ⟨0, .ok (.results (.ok capabilityReader))⟩)),
    (.finish 0 false, finishFrame 0, .finish),
    (pushCall.message 1, pushFrame,
      .call (.ok ⟨1, configurationManagerInterfaceId, 0,
        .ok ⟨{ noContent with updateConfigurationParams := .ok ⟨1, .ok [123, 125]⟩ }, .ok []⟩⟩)),
    (.finish 1 false, finishFrame 1, .finish)]

theorem readAs_pushEntries : ∀ entry ∈ pushEntries, entry.1.ReadAs entry.2.2 := by
  have hpush : (pushCall.message 1).ReadAs (.call (.ok ⟨1, configurationManagerInterfaceId, 0,
      .ok ⟨{ noContent with updateConfigurationParams := .ok ⟨1, .ok [123, 125]⟩ }, .ok []⟩⟩)) :=
    ⟨_, rfl, rfl, rfl⟩
  have hreturn : (buildBootstrapReturn 0).ReadAs
      (.ret (.ok ⟨0, .ok (.results (.ok capabilityReader))⟩)) := ⟨_, rfl, _, rfl, trivial, rfl⟩
  simp only [pushEntries, List.forall_mem_cons]
  refine ⟨rfl, hreturn, rfl, hpush, rfl, ?_⟩
  intro entry hentry
  cases hentry

/-- A handler that takes every configuration. -/
def willing : CloudflaredHandler Unit where
  updateConfiguration version _ s := (⟨version, ""⟩, s)

def answeredEntries : List (Message × Frame × MessageWhich) :=
  pushEntries ++ [(buildUpdateConfigurationReturn 1 ⟨1, ""⟩, pushReturnFrame,
    .ret (.ok ⟨1, .ok (.results (.ok ⟨{ noContent with
      updateConfigurationResults := .ok (.ok ⟨1, .ok (.ok "")⟩) }, .ok []⟩))⟩))]

def pushCapnp : Capnp SegmentTable.ofLists := .scripted .ofLists answeredEntries fun _ => []

theorem lawful_pushCapnp : pushCapnp.Lawful := by
  apply Capnp.lawful_scripted
  · rw [answeredEntries, List.forall_mem_append, List.forall_mem_singleton]
    exact ⟨readAs_pushEntries, _, rfl, _, rfl, rfl, rfl⟩
  · decide
  · intro _ frame
    exact frame.bytes_ne_nil.symm

theorem conversation_push : wholeConversation willing [pushCall] () =
    [(.bootstrap 0, some (buildBootstrapReturn 0)), (.finish 0 false, none),
      (pushCall.message 1, some (buildUpdateConfigurationReturn 1 ⟨1, ""⟩)),
      (.finish 1 false, none)] := rfl

theorem exchange_settles_push :
    ∃ last turns, Network.Settles noAnswers willing.answer
        (between pushCapnp (bootstrapAndCall [pushCall]) [] 5 () []) last ∧
      last.left.program = .done turns ∧
      turns.map Turn.result = [.ok (.capability 0), .ok (.value ⟨1, ""⟩)] := by
  have hframed : AllFramed pushCapnp (wholeConversation willing [pushCall] ()) := by
    have hall : ∀ entry ∈ answeredEntries, Framed pushCapnp entry.1 := fun entry hentry =>
      Capnp.framed_scripted (by decide) hentry
    simp only [answeredEntries, pushEntries, List.cons_append, List.nil_append,
      List.forall_mem_cons] at hall
    obtain ⟨hbootstrap, hreturn, hfinish, hpush, hfinish', hreturn', _⟩ := hall
    rw [conversation_push, AllFramed]
    simp only [List.forall_mem_cons]
    refine ⟨⟨hbootstrap, ?_⟩, ⟨hfinish, nofun⟩, ⟨hpush, ?_⟩, ⟨hfinish', nofun⟩,
      List.forall_mem_nil _⟩
    · rintro reply ⟨⟩
      exact hreturn
    · rintro reply ⟨⟩
      exact hreturn'
  obtain ⟨last, turns, results, hsettles, hdone, hresults, hgets, _⟩ :=
    exchange_settles lawful_pushCapnp willing [pushCall] () 0 hframed
  refine ⟨last, turns, hsettles, hdone, ?_⟩
  have hasks : pushCall.asks = some (.updateConfiguration 1 [123, 125]) := rfl
  cases hgets with
  | answered hop h =>
      cases hasks.symm.trans hop
      cases h
      exact hresults
  | unknown hmethod _ => cases hmethod
  | unregister hmethod _ _ _ => cases hmethod

/-! ### A reply that is too large -/

/-- A message that `read_message` does not take is an error of the client's, wherever it comes
from. -/
theorem leads_refused {T : SegmentTable} (C : Capnp T) {α β σ : Type}
    (handler : CloudflaredHandler σ) {input : List UInt8} (hbad : BadTable input)
    (hmore : tableSize (announced input) < input.length)
    (next : Except RpcError Root → Program (wire noEffects) α) (asked : List UInt8)
    (right : Party UInt8 IoError handlerCalls β σ) :
    ∃ message rest, Leads handler
      ⟨⟨onBytes C (.request (S := wire noEffects) .read next), (), input, asked⟩, right⟩
      ⟨⟨onBytes C (next (.error (.protocol message))), (), rest, asked⟩, right⟩ := by
  obtain ⟨message, consumed, hle, hread⟩ :=
    reads_readMessage_of_badTable (E := noEffects) (T := T) hbad
  have hrest : input.drop consumed ≠ [] := by
    rw [← List.length_pos_iff, List.length_drop]
    omega
  have hsplit : Reads (readMessage (E := noEffects) T).run
      (input.take consumed ++ input.drop consumed) (.error (.protocol message))
      (input.drop consumed) := by rwa [List.take_append_drop]
  have hreceives : Receives (onBytes C (.request (S := wire noEffects) .read next))
      (input.take consumed) (onBytes C (next (.error (.protocol message)))) :=
    ((hsplit.receives hrest).bind _).bind _
  have hadvances := @Party.advances_of_receives _ _ _ _ _ noAnswers _ _ () _ (input.drop consumed)
    asked hreceives
  rw [List.take_append_drop] at hadvances
  have hsteps := @Network.steps_of_left _ _ _ _ _ _ _ _ _ handler.answer _ _ _ _ hadvances right
  rw [Party.receive_nil] at hsteps
  exact ⟨message, _, _, hsteps⟩

/-- A call whose return `read_message` does not take fails with an error of the client's. -/
theorem exchange_refuses {T : SegmentTable} {C : Capnp T} {α σ : Type} (hC : C.Lawful)
    (handler : CloudflaredHandler σ) (call : Call α) (s : σ)
    (hbootstrap : Framed C (.bootstrap 0)) (hreturn : Framed C (buildBootstrapReturn 0))
    (hfinish : Framed C (.finish 0 false)) (hcall : Framed C (call.message 1)) {input : List UInt8}
    (hreply : C.serialize (.ret 1 (call.serve handler s).1) = input) (hbad : BadTable input)
    (hmore : tableSize (announced input) < input.length) (turns : Nat) :
    ∃ moves net taken message,
      Machine.run (Network.step noAnswers handler.answer)
        (between C (bootstrapAndCall [call]) [] (turns + 3) s []) moves = some net ∧
      net.left.program = .done taken ∧
      taken.map Turn.result = [.ok (.capability 0), .error (.protocol message)] := by
  have hfirst := @leads_bootstrap _ _ _ _ handler hC [call] s hbootstrap hreturn hfinish
    (turns + 1)
  let next : List (Turn α) × RpcClient → Program (wire noEffects) (List (Turn α)) :=
    fun out => .done (bootstrapTurn _ :: out.1)
  let last : Except RpcError (Answer α) × RpcClient → Program (wire noEffects) (List (Turn α)) :=
    fun out => next ([⟨.bootstrapped, out.1, out.2⟩], out.2)
  have heq : (operations ([call].map Call.operation) .bootstrapped).bind next =
      (call.operation.perform .bootstrapped).bind last := bind_assoc ..
  obtain ⟨written, gotten, hwritten, hexchange, herror, _⟩ :=
    exchange_bind_eq 1 (call.message 1) (decodeCall · 1 call.decode) CallOutcome.releases
      CallOutcome.conclude RpcClient.bootstrapped.countQuestion
      (fun _ => RpcClient.bootstrapped.countQuestion) fun out => last (out.1.map .value, out.2)
  rw [heq, perform_operation_bind call rfl, RpcClient.nextQuestion_bootstrapped, hexchange]
    at hfirst
  have hask := leads_write hC hcall (serves_call handler s 1 call) written turns
    (C.serialize (.bootstrap 0) ++ C.serialize (.finish 0 false))
    (C.serialize (buildBootstrapReturn 0))
  rw [hwritten, replyBytes, hreply] at hask
  obtain ⟨message, rest, hrefused⟩ := leads_refused C handler hbad hmore gotten
    (C.serialize (.bootstrap 0) ++ C.serialize (.finish 0 false) ++ C.serialize (call.message 1))
    ⟨onBytes C (serveCloudflared turns), (call.serve handler s).2, [],
      C.serialize (buildBootstrapReturn 0) ++ input⟩
  rw [herror] at hrefused
  obtain ⟨n, hsteps⟩ := (hfirst.trans hask).trans hrefused
  obtain ⟨moves, hrun⟩ := Network.run_of_steps hsteps
  exact ⟨moves, _, _, message, hrun, rfl, rfl⟩

/-- 64 MiB of text. -/
def longText : String := String.ofList (List.replicate (2 ^ 26) 'a')

/-- A handler that takes every configuration, and says too much about it. -/
def verbose : CloudflaredHandler Unit where
  updateConfiguration version _ s := (⟨version, longText⟩, s)

def longReturn : Message := buildUpdateConfigurationReturn 1 ⟨1, longText⟩

/-- The segment table of `longReturn`: capnp puts the text into a segment of its own. -/
def longTable : List UInt8 := [1, 0, 0, 0, 12, 0, 0, 0, 2, 0, 128, 0, 0, 0, 0, 0]

def longSegments : List UInt8 :=
  [0, 0, 0, 0, 1, 0, 1, 0] ++ [3, 0, 0, 0, 0, 0, 0, 0] ++ [0, 0, 0, 0, 2, 0, 1, 0] ++
    [1, 0, 0, 0, 0, 0, 0, 0] ++ [0, 0, 0, 0, 0, 0, 0, 0] ++ [0, 0, 0, 0, 0, 0, 2, 0] ++
    [4, 0, 0, 0, 0, 0, 1, 0] ++ [13, 0, 0, 0, 7, 0, 0, 0] ++ [0, 0, 0, 0, 1, 0, 1, 0] ++
    [1, 0, 0, 0, 0, 0, 0, 0] ++ [2, 0, 0, 0, 1, 0, 0, 0] ++ [0, 0, 0, 0, 1, 0, 1, 0] ++
    [1, 0, 0, 0, 10, 0, 0, 32] ++ List.replicate (2 ^ 26) 97 ++ [0, 0, 0, 0, 0, 0, 0, 0]

def longCapnp : Capnp SegmentTable.ofLists :=
  .scripted .ofLists pushEntries fun message =>
    if message = longReturn then longTable ++ longSegments else []

theorem longSegments_ne_nil : longSegments ≠ [] :=
  List.append_ne_nil_of_right_ne_nil _ (List.cons_ne_nil 0 _)

theorem badTable_longTable {rest : List UInt8} (hrest : rest ≠ []) :
    BadTable (longTable ++ rest) ∧
      tableSize (announced (longTable ++ rest)) < (longTable ++ rest).length := by
  have hlength : 16 < (longTable ++ rest).length := by
    rw [List.length_append]
    exact Nat.lt_add_of_pos_right (List.length_pos_iff.mpr hrest)
  have hannounced : announced (longTable ++ rest) = 2 := rfl
  have hcounts : announcedCounts (longTable ++ rest) =
    [little [12, 0, 0, 0], little [2, 0, 128, 0]] := rfl
  refine ⟨⟨Nat.le_trans (by decide) hlength, .inr (.inr ⟨?_, ?_⟩)⟩, ?_⟩
  · rw [hannounced]
    exact Nat.le_of_lt hlength
  · rw [hcounts]
    decide
  · rw [hannounced]
    exact hlength

theorem lawful_longCapnp : longCapnp.Lawful := by
  apply Capnp.lawful_scripted readAs_pushEntries
  · decide
  · intro message frame hbytes
    split at hbytes
    · have hcomplete := isComplete_frame frame []
      rw [List.append_nil, ← hbytes] at hcomplete
      exact (not_badTable_of_isComplete hcomplete).1 (badTable_longTable longSegments_ne_nil).1
    · exact frame.bytes_ne_nil hbytes.symm

theorem serialize_longReturn : longCapnp.serialize longReturn = longTable ++ longSegments := by
  have hnone : pushEntries.find? (·.1 = longReturn) = none := by
    rw [List.find?_eq_none]
    simp only [pushEntries, List.forall_mem_cons, decide_eq_true_eq, longReturn,
      buildUpdateConfigurationReturn, buildBootstrapReturn, Call.message, Message.ret.injEq,
      reduceCtorEq]
    refine ⟨nofun, ?_, nofun, nofun, nofun, List.forall_mem_nil _⟩
    rintro ⟨h, _⟩
    exact absurd h (by decide)
  rw [longCapnp, Capnp.scripted]
  dsimp only
  rw [hnone]
  exact if_pos rfl

/-- The client does not get an answer of more than 8 Mi words, but an error of its own. -/
theorem exchange_refuses_long :
    longCapnp.Lawful ∧ ∃ moves net turns message,
      Machine.run (Network.step noAnswers verbose.answer)
        (between longCapnp (bootstrapAndCall [pushCall]) [] 5 () []) moves = some net ∧
      net.left.program = .done turns ∧
      turns.map Turn.result = [.ok (.capability 0), .error (.protocol message)] ∧
      ¬ Gets verbose () [pushCall] [.error (.protocol message)] := by
  have hall : ∀ entry ∈ pushEntries, Framed longCapnp entry.1 := fun entry hentry =>
    Capnp.framed_scripted (by decide) hentry
  simp only [pushEntries, List.forall_mem_cons] at hall
  obtain ⟨hbootstrap, hreturn, hfinish, hpush, _⟩ := hall
  obtain ⟨hbad, hmore⟩ := badTable_longTable longSegments_ne_nil
  obtain ⟨moves, net, turns, message, hrun, hdone, hresults⟩ :=
    exchange_refuses lawful_longCapnp verbose pushCall () hbootstrap hreturn hfinish hpush
      serialize_longReturn hbad hmore 2
  refine ⟨lawful_longCapnp, moves, net, turns, message, hrun, hdone, hresults, ?_⟩
  intro hgets
  cases hgets with
  | unregister hmethod _ _ _ => cases hmethod

end Libcfd.Rpc
