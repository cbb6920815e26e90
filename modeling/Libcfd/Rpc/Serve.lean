import Libcfd.Foundation.Trace
import Libcfd.Rpc.Cloudflared
import Mathlib.Data.List.ReduceOption

/-!
# What `serve_cloudflared` serves

A message is a `Request` or cannot be decoded, and a request is served at once: the handler is asked
if it has to be, and the reply goes out. `serveAll` says what that makes of a list of requests, and
the loop does exactly this with the messages that come in, up to the first that cannot be decoded.
-/

namespace Libcfd.Rpc

open Program

variable {σ : Type}

/-! ## Requests -/

/-- A message, as far as the connector reads it. -/
inductive Request where
  | bootstrap (question : UInt32)
  | updateConfiguration (question : UInt32) (version : Int32) (configuration : List UInt8)
  | registerUdpSession (question : UInt32) (sessionIdentifier : SessionIdentifier)
      (destinationIp : List UInt8) (destinationPort : UInt16)
  -- the parameters are there to be read, but nobody does
  | unregisterUdpSession (question : UInt32) (params : Except CapnpError PayloadReader)
  | unknown (question : UInt32)
  | other

def decodeRequest (root : Root) : Except RpcError Request := do
  match ← rootWhich root with
  | .bootstrap b => return .bootstrap (← orCapnp b)
  | .call c =>
      let call ← orCapnp c
      match classify call.interfaceId call.methodId with
      | .updateConfiguration =>
          let params ← orCapnp call.params
          let parameters ← orCapnp params.content.updateConfigurationParams
          return .updateConfiguration call.questionId parameters.version (← orCapnp parameters.config)
      | .registerUdpSession =>
          let params ← orCapnp call.params
          let parameters ← orCapnp params.content.registerUdpSessionParams
          let sessionId ← orCapnp parameters.sessionId
          return .registerUdpSession call.questionId (sessionIdentifierBytes sessionId)
            (← orCapnp parameters.dstIp) parameters.dstPort
      | .unregisterUdpSession => return .unregisterUdpSession call.questionId call.params
      | .unknown => return .unknown call.questionId
  | _ => return .other

/-- The question of a `Bootstrap` or a `Call`. -/
def Request.question? : Request → Option UInt32
  | .bootstrap question => some question
  | .updateConfiguration question .. => some question
  | .registerUdpSession question .. => some question
  | .unregisterUdpSession question _ => some question
  | .unknown question => some question
  | .other => none

/-- What the connector does with a request. -/
def Request.perform : Request → Program (wire handlerCalls) (Except RpcError (Option Message))
  | .bootstrap question => .done (.ok (some (buildBootstrapReturn question)))
  | .updateConfiguration question version configuration =>
      .request (S := wire handlerCalls) (.effect (.updateConfiguration version configuration))
        fun response => .done (.ok (some (buildUpdateConfigurationReturn question response)))
  | .registerUdpSession question sessionIdentifier destinationIp destinationPort =>
      .request (S := wire handlerCalls)
        (.effect (.registerUdpSession sessionIdentifier destinationIp destinationPort))
        fun response => .done (.ok (some (buildRegisterUdpSessionReturn question response)))
  | .unregisterUdpSession question _ =>
      .done (.ok (some (buildUnregisterUdpSessionReturn question)))
  | .unknown question => .done (.ok (some (buildException question "unimplemented")))
  | .other => .done (.ok none)

/-- All of a message that can fail to decode is decoded before anything is done. -/
theorem run_replyTo (root : Root) :
    (replyTo root).run =
      match decodeRequest root with
      | .ok decoded => decoded.perform
      | .error e => .done (.error e) := by
  rw [replyTo, decodeRequest]
  cases rootWhich root with
  | error e => rfl
  | ok which =>
  rw [Async.run_ok_bind, ok_bind]
  cases which with
  | bootstrap b =>
      cases b with
      | error e => rfl
      | ok question => rfl
  | call c =>
      cases c with
      | error e => rfl
      | ok call =>
      simp only [orCapnp, Async.run_ok_bind, ok_bind]
      cases classify call.interfaceId call.methodId with
      | updateConfiguration =>
          dsimp only
          cases call.params with
          | error e => rfl
          | ok params =>
          simp only [Async.run_ok_bind, ok_bind]
          cases params.content.updateConfigurationParams with
          | error e => rfl
          | ok parameters =>
          simp only [Async.run_ok_bind, ok_bind]
          cases parameters.config with
          | error e => rfl
          | ok config => rfl
      | registerUdpSession =>
          dsimp only
          cases call.params with
          | error e => rfl
          | ok params =>
          simp only [Async.run_ok_bind, ok_bind]
          cases params.content.registerUdpSessionParams with
          | error e => rfl
          | ok parameters =>
          simp only [Async.run_ok_bind, ok_bind]
          cases parameters.sessionId with
          | error e => rfl
          | ok sessionId =>
          simp only [Async.run_ok_bind, ok_bind]
          cases parameters.dstIp with
          | error e => rfl
          | ok dstIp => rfl
      | unregisterUdpSession => rfl
      | unknown => rfl
  | _ => rfl

/-! ## What a request asks of the handler and what it is answered -/

/-- The method of the handler that is called. -/
def Request.invocation : Request → Option HandlerOp
  | .updateConfiguration _ version configuration =>
      some (.updateConfiguration version configuration)
  | .registerUdpSession _ sessionIdentifier destinationIp destinationPort =>
      some (.registerUdpSession sessionIdentifier destinationIp destinationPort)
  | _ => none

/-- The reply to a request, and the handler afterwards. -/
def Request.serve (handler : CloudflaredHandler σ) : Request → σ → Option Message × σ
  | .bootstrap question, s => (some (buildBootstrapReturn question), s)
  | .updateConfiguration question version configuration, s =>
      let (response, s') := handler.updateConfiguration version configuration s
      (some (buildUpdateConfigurationReturn question response), s')
  | .registerUdpSession question sessionIdentifier destinationIp destinationPort, s =>
      let (response, s') :=
        handler.registerUdpSession sessionIdentifier destinationIp destinationPort s
      (some (buildRegisterUdpSessionReturn question response), s')
  | .unregisterUdpSession question _, s => (some (buildUnregisterUdpSessionReturn question), s)
  | .unknown question, s => (some (buildException question "unimplemented"), s)
  | .other, s => (none, s)

/-- One reply, or none, for each request. -/
def serveAll (handler : CloudflaredHandler σ) : List Request → σ → List (Option Message)
  | [], _ => []
  | first :: rest, s =>
      (first.serve handler s).1 :: serveAll handler rest (first.serve handler s).2

/-- The handler after these requests. -/
def afterAll (handler : CloudflaredHandler σ) (requests : List Request) (s : σ) : σ :=
  requests.foldl (fun s request => (request.serve handler s).2) s

/-- The requests up to the first message that cannot be decoded, and why it cannot. -/
def decodeAll : List Root → List Request × Option RpcError
  | [] => ([], none)
  | root :: rest =>
      match decodeRequest root with
      | .error e => ([], some e)
      | .ok decoded => (decoded :: (decodeAll rest).1, (decodeAll rest).2)

/-- What the loop returns after these messages, when the read after the last one fails so. -/
def outcome (incoming : List Root) (ending : RpcError) : Except RpcError Unit :=
  match (decodeAll incoming).2 with
  | some e => .error e
  | none => if ending = .eof then .ok () else .error ending

section Outcome

variable {root : Root} {rest : List Root} {ending : RpcError}

/-- All of the messages are decoded, or those before one that cannot be. -/
theorem decodeAll_cases (incoming : List Root) (ending : RpcError) :
    (incoming.map decodeRequest = (decodeAll incoming).1.map .ok ∧
        outcome incoming ending = if ending = .eof then .ok () else .error ending) ∨
      ∃ e rest, incoming.map decodeRequest = (decodeAll incoming).1.map .ok ++ .error e :: rest ∧
        outcome incoming ending = .error e := by
  induction incoming with
  | nil => exact .inl ⟨rfl, rfl⟩
  | cons root rest ih =>
      rw [List.map_cons, outcome, decodeAll]
      cases h : decodeRequest root with
      | error e => exact .inr ⟨e, rest.map decodeRequest, rfl, rfl⟩
      | ok request =>
          rcases ih with ⟨hmap, hout⟩ | ⟨e, after, hmap, hout⟩
          · exact .inl ⟨congrArg (.ok request :: ·) hmap, hout⟩
          · exact .inr ⟨e, after, congrArg (.ok request :: ·) hmap, hout⟩

theorem outcome_undecodable {e : RpcError} (h : decodeRequest root = .error e) :
    outcome (root :: rest) ending = .error e := by
  rw [outcome, decodeAll, h]

theorem outcome_request {request : Request} (h : decodeRequest root = .ok request) :
    outcome (root :: rest) ending = outcome rest ending := by
  rw [outcome, decodeAll, h]
  rfl

end Outcome

/-- The return of a question. -/
def Message.IsReturnOf (question : UInt32) (message : Message) : Prop :=
  ∃ body, message = .ret question body

/-- A return where there is a question, and nothing where there is none. -/
def Request.IsAnsweredBy (request : Request) (reply : Option Message) : Prop :=
  match request.question? with
  | some question => ∃ message, reply = some message ∧ message.IsReturnOf question
  | none => reply = none

theorem Request.isAnsweredBy_serve (handler : CloudflaredHandler σ) (request : Request) (s : σ) :
    request.IsAnsweredBy (request.serve handler s).1 := by
  cases request with
  | other => rfl
  | _ => exact ⟨_, rfl, _, rfl⟩

theorem isAnsweredBy_serveAll (handler : CloudflaredHandler σ) (requests : List Request) (s : σ) :
    List.Forall₂ Request.IsAnsweredBy requests (serveAll handler requests s) := by
  induction requests generalizing s with
  | nil => exact .nil
  | cons request rest ih => exact .cons (request.isAnsweredBy_serve handler s) (ih _)

/-- The reply depends on the request and on the handler's answer to it only. -/
theorem Request.serve_congr {τ : Type} {handler : CloudflaredHandler σ}
    {handler' : CloudflaredHandler τ} {request : Request} {s : σ} {s' : τ}
    (h : ∀ op, request.invocation = some op →
      (handler.answer op s).1 = (handler'.answer op s').1) :
    (request.serve handler s).1 = (request.serve handler' s').1 := by
  cases request with
  | updateConfiguration question version configuration =>
      have hanswer := h _ rfl
      exact congrArg (fun response => some (buildUpdateConfigurationReturn question response))
        hanswer
  | registerUdpSession question sessionIdentifier destinationIp destinationPort =>
      have hanswer := h _ rfl
      exact congrArg (fun response => some (buildRegisterUdpSessionReturn question response))
        hanswer
  | _ => rfl

/-! ## The edge -/

/-- The other end of the stream, and the handler: the messages still to come, how the read after
them fails, and all that has happened. -/
structure Edge (σ : Type) where
  incoming : List Root
  ending : RpcError
  log : List (Event (wire handlerCalls))
  handler : σ

/-- Writes are accepted, reads get the messages in order. -/
def respond (handler : CloudflaredHandler σ) :
    (op : (wire handlerCalls).Op) → Edge σ → (wire handlerCalls).Reply op × Edge σ
  | .read, edge =>
      match edge.incoming with
      | [] => (.error edge.ending, { edge with log := edge.log ++ [gotten (.error edge.ending)] })
      | root :: rest =>
          (.ok root, { edge with incoming := rest, log := edge.log ++ [gotten (.ok root)] })
  | .write message, edge => (.ok (), { edge with log := edge.log ++ [wrote message (.ok ())] })
  | .effect op, edge =>
      let (answer, s) := handler.answer op edge.handler
      (answer, { edge with handler := s, log := edge.log ++ [⟨.effect op, answer⟩] })

/-- What happens when a request is served. -/
def Request.events (handler : CloudflaredHandler σ) (request : Request) (s : σ) :
    List (Event (wire handlerCalls)) :=
  (request.invocation.toList.map fun op => ⟨.effect op, (handler.answer op s).1⟩) ++
    (request.serve handler s).1.toList.map fun reply => wrote reply (.ok ())

/-- What happens when these messages come in. -/
def serveLog (handler : CloudflaredHandler σ) (ending : RpcError) :
    List Root → σ → List (Event (wire handlerCalls))
  | [], _ => [gotten (.error ending)]
  | root :: rest, s =>
      match decodeRequest root with
      | .error _ => [gotten (.ok root)]
      | .ok decoded =>
          gotten (.ok root) :: decoded.events handler s ++
            serveLog handler ending rest (decoded.serve handler s).2

section Turn

variable (handler : CloudflaredHandler σ) {root : Root} {rest : List Root} {ending : RpcError}
  {log : List (Event (wire handlerCalls))} {s : σ}

theorem serveTurn_end :
    serveTurn.interpret (respond handler) ⟨[], ending, log, s⟩ =
      (some (outcome [] ending), ⟨[], ending, log ++ [gotten (.error ending)], s⟩) := by
  cases ending <;> rfl

theorem serveTurn_undecodable {e : RpcError} (h : decodeRequest root = .error e) :
    serveTurn.interpret (respond handler) ⟨root :: rest, ending, log, s⟩ =
      (some (.error e), ⟨rest, ending, log ++ [gotten (.ok root)], s⟩) := by
  show ((replyTo root).run.bind _).interpret (respond handler)
    ⟨rest, ending, log ++ [gotten (.ok root)], s⟩ = _
  rw [run_replyTo, h]
  rfl

theorem serveTurn_request {request : Request} (h : decodeRequest root = .ok request) :
    serveTurn.interpret (respond handler) ⟨root :: rest, ending, log, s⟩ =
      (none, ⟨rest, ending, log ++ gotten (.ok root) :: request.events handler s,
        (request.serve handler s).2⟩) := by
  show ((replyTo root).run.bind _).interpret (respond handler)
    ⟨rest, ending, log ++ [gotten (.ok root)], s⟩ = _
  rw [run_replyTo, h, List.append_cons log _ (request.events handler s)]
  generalize log ++ [gotten (.ok root)] = log'
  cases request with
  | updateConfiguration | registerUdpSession =>
      -- the two events are logged one by one
      exact congrArg (fun l => (none, Edge.mk rest ending l _)) (List.append_assoc log' [_] [_])
  | other =>
      exact congrArg (fun l => (none, Edge.mk rest ending l s)) (List.append_nil log').symm
  | _ => rfl

end Turn

/-- The loop returns the outcome of the messages that come in, and leaves their log. -/
theorem serveCloudflared_run (handler : CloudflaredHandler σ) (incoming : List Root)
    (ending : RpcError) (log : List (Event (wire handlerCalls))) (s : σ) (turns : Nat) :
    ∃ edge, (serveCloudflared (incoming.length + 1 + turns)).interpret (respond handler)
        ⟨incoming, ending, log, s⟩ = (some (outcome incoming ending), edge) ∧
      edge.log = log ++ serveLog handler ending incoming s ∧
      edge.handler = afterAll handler (decodeAll incoming).1 s := by
  induction incoming generalizing log s with
  | nil =>
      rw [List.length_nil, Nat.add_right_comm]
      exact ⟨_, interpret_loop_stop (serveTurn_end handler) _, rfl, rfl⟩
  | cons root rest ih =>
      rw [List.length_cons, Nat.add_right_comm _ 1 turns]
      cases h : decodeRequest root with
      | error e =>
          rw [outcome_undecodable h, serveLog, decodeAll, h]
          exact ⟨_, interpret_loop_stop (serveTurn_undecodable handler h) _, rfl, rfl⟩
      | ok request =>
          obtain ⟨edge, hrun, hlog, hhandler⟩ :=
            ih (log ++ gotten (.ok root) :: request.events handler s) (request.serve handler s).2
          refine ⟨edge, ?_, ?_, ?_⟩
          · rw [outcome_request h, ← hrun]
            exact interpret_loop_again (serveTurn_request handler h) _
          · rw [hlog, serveLog, h, List.append_assoc]
          · rw [hhandler, decodeAll, h]
            rfl

/-! ## What is written -/

/-- The messages that were written. -/
def written (log : List (Event (wire handlerCalls))) : List Message :=
  log.filterMap fun
    | ⟨.write message, .ok ()⟩ => some message
    | _ => none

@[simp] theorem written_append (log log' : List (Event (wire handlerCalls))) :
    written (log ++ log') = written log ++ written log' :=
  List.filterMap_append ..

@[simp] theorem written_gotten (result : Except RpcError Root)
    (log : List (Event (wire handlerCalls))) : written (gotten result :: log) = written log :=
  rfl

theorem Request.written_events (handler : CloudflaredHandler σ) (request : Request) (s : σ) :
    written (request.events handler s) = (request.serve handler s).1.toList := by
  cases request <;> rfl

theorem written_serveLog (handler : CloudflaredHandler σ) (ending : RpcError)
    (incoming : List Root) (s : σ) :
    written (serveLog handler ending incoming s) =
      (serveAll handler (decodeAll incoming).1 s).reduceOption := by
  induction incoming generalizing s with
  | nil => rfl
  | cons root rest ih =>
      rw [serveLog, decodeAll]
      cases decodeRequest root with
      | error e => rfl
      | ok request =>
          show written (request.events handler s ++ serveLog handler ending rest _) = _
          rw [written_append, request.written_events, ih, serveAll]
          cases (request.serve handler s).1 <;> rfl

/-- Whatever comes in, and whatever the handler does: every request up to the first message that
cannot be decoded is answered once and in order, an unknown method with an exception, and nothing
else is written. -/
theorem serveCloudflared_replies (handler : CloudflaredHandler σ) (incoming : List Root)
    (ending : RpcError) (s : σ) (turns : Nat) :
    ∃ edge result requests, (serveCloudflared (incoming.length + 1 + turns)).interpret
        (respond handler) ⟨incoming, ending, [], s⟩ = (some result, edge) ∧
      ((incoming.map decodeRequest = requests.map .ok ∧
          result = if ending = .eof then .ok () else .error ending) ∨
        ∃ e rest, incoming.map decodeRequest = requests.map .ok ++ .error e :: rest ∧
          result = .error e) ∧
      written edge.log = (serveAll handler requests s).reduceOption ∧
      List.Forall₂ Request.IsAnsweredBy requests (serveAll handler requests s) ∧
      ∀ (request : Request) (t : σ),
        (∀ (τ : Type) (handler' : CloudflaredHandler τ) (t' : τ),
          (∀ op, request.invocation = some op →
            (handler.answer op t).1 = (handler'.answer op t').1) →
          (request.serve handler t).1 = (request.serve handler' t').1) ∧
        ∀ question, request = .unknown question →
          (request.serve handler t).1 =
            some (.ret question (.exception "unimplemented" .unimplemented)) := by
  obtain ⟨edge, hrun, hlog, _⟩ := serveCloudflared_run handler incoming ending [] s turns
  refine ⟨edge, _, (decodeAll incoming).1, hrun, decodeAll_cases incoming ending, ?_,
    isAnsweredBy_serveAll handler _ s, fun request t => ⟨?_, ?_⟩⟩
  · rw [hlog, List.nil_append]
    exact written_serveLog handler ending incoming s
  · intro τ handler' t' h
    exact Request.serve_congr h
  · rintro question rfl
    rfl

end Libcfd.Rpc
