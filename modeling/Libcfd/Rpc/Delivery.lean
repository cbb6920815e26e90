import Libcfd.Rpc.Serve

/-!
# What the handler is asked

The loop is to call the method a message addresses and to say so in the reply. It keeps the two in
step for every method but `unregister_udp_session`, whose calls are answered and never delivered.
-/

namespace Libcfd.Rpc

open Program (Event interpret)

variable {σ : Type}

/-- The method of the handler a message addresses, with its parameters if they can be read. -/
def Request.addressed : Request → Option HandlerOp
  | .unregisterUdpSession _ params =>
      let addressed : Except RpcError HandlerOp := do
        let params ← orCapnp params
        let parameters ← orCapnp params.content.unregisterUdpSessionParams
        let sessionId ← orCapnp parameters.sessionId
        return .unregisterUdpSession (sessionIdentifierBytes sessionId) (← toStr parameters.message)
      addressed.toOption
  | request => request.invocation

def Request.IsCall : Request → Prop
  | .bootstrap _ => False
  | .other => False
  | _ => True

/-- A call of `unregisterUdpSession`, by either of its names. -/
def Request.IsUnregister (request : Request) : Prop :=
  ∃ question params, request = .unregisterUdpSession question params

/-! ## Logs -/

/-- A method called, with its answer. -/
abbrev called (op : HandlerOp) (answer : handlerCalls.Reply op) : Event (wire handlerCalls) :=
  ⟨.effect op, answer⟩

/-- The methods that were called. -/
def invoked (log : List (Event (wire handlerCalls))) : List HandlerOp :=
  log.filterMap fun
    | ⟨.effect op, _⟩ => some op
    | _ => none

/-- The message that came in last, and the methods called since. -/
def lastTurn (log : List (Event (wire handlerCalls))) : Option Root × List HandlerOp :=
  log.foldl (fun turn event =>
    match event with
    | ⟨.read, .ok root⟩ => (some root, [])
    | ⟨.effect op, _⟩ => (turn.1, turn.2.concat op)
    | _ => turn) (none, [])

@[simp] theorem lastTurn_gotten (log : List (Event (wire handlerCalls))) (root : Root) :
    lastTurn (log ++ [gotten (.ok root)]) = (some root, []) :=
  List.foldl_append

@[simp] theorem lastTurn_effect (log : List (Event (wire handlerCalls))) (op : HandlerOp)
    (answer : handlerCalls.Reply op) :
    lastTurn (log ++ [called op answer]) = ((lastTurn log).1, (lastTurn log).2.concat op) :=
  List.foldl_append

/-- A call answered with results has been applied: since it came in, the method it addresses was
called. -/
def Applies (before : List (Event (wire handlerCalls))) (event : Event (wire handlerCalls)) : Prop :=
  ∀ question payload root request,
    event = wrote (.ret question (.results payload)) (.ok ()) →
    (lastTurn before).1 = some root → decodeRequest root = .ok request → request.IsCall →
    ∃ op, request.addressed = some op ∧ op ∈ (lastTurn before).2

/-- The methods called are those the requests address, and answers with results are true. -/
def InStep (requests : List Request) (log : List (Event (wire handlerCalls))) : Prop :=
  invoked log = requests.filterMap Request.addressed ∧ Follows Applies log

/-! ## One event -/

section Applies

variable {before : List (Event (wire handlerCalls))} {root : Root} {request : Request}
  {ops : List HandlerOp}

theorem applies_gotten (result : Except RpcError Root) : Applies before (gotten result) :=
  fun _ _ _ _ heq => absurd heq (gotten_ne_wrote _ _ _)

theorem applies_effect (op : HandlerOp) (answer : handlerCalls.Reply op) :
    Applies before (called op answer) :=
  fun _ _ _ _ heq => nomatch heq

theorem applies_exception (question : UInt32) (reason : String) :
    Applies before (wrote (buildException question reason) (.ok ())) :=
  fun _ _ _ _ heq => nomatch heq

theorem applies_results_iff (hturn : lastTurn before = (some root, ops))
    (h : decodeRequest root = .ok request) (question : UInt32) (payload : Payload) :
    Applies before (wrote (.ret question (.results payload)) (.ok ())) ↔
      (request.IsCall → ∃ op, request.addressed = some op ∧ op ∈ ops) := by
  rw [Applies, hturn]
  constructor
  · intro happlies hcall
    exact happlies question payload root request rfl rfl h hcall
  · intro hop question' payload' root' request' _ hroot hdecode hcall
    cases hroot
    rw [h] at hdecode
    cases hdecode
    exact hop hcall

/-- The method is called and its answer goes out. -/
theorem follows_answered_iff (hturn : lastTurn before = (some root, ops))
    (h : decodeRequest root = .ok request) (op : HandlerOp) (answer : handlerCalls.Reply op)
    (question : UInt32) (payload : Payload) :
    Follows Applies (before ++
        [called op answer, wrote (.ret question (.results payload)) (.ok ())]) ↔
      Follows Applies before ∧
        (request.IsCall → ∃ op', request.addressed = some op' ∧ op' ∈ ops.concat op) := by
  have hturn' : lastTurn (before ++ [called op answer]) = (some root, ops.concat op) := by
    rw [lastTurn_effect, hturn]
  have hsplit := List.append_cons before (called op answer)
    [wrote (.ret question (.results payload)) (.ok ())]
  refine (iff_of_eq (congrArg _ hsplit)).trans (follows_concat.trans ?_)
  exact and_congr (follows_concat.trans (and_iff_left (applies_effect op answer)))
    (applies_results_iff hturn' h question payload)

end Applies

/-! ## One request -/

theorem Request.invoked_events (handler : CloudflaredHandler σ) (request : Request) (s : σ) :
    invoked (request.events handler s) = request.invocation.toList := by
  cases request <;> rfl

theorem Request.addressed_eq_invocation {request : Request} (h : ¬ request.IsUnregister) :
    request.addressed = request.invocation := by
  cases request with
  | unregisterUdpSession question params => exact absurd ⟨question, params, rfl⟩ h
  | _ => rfl

/-- Answers stay true as long as no `unregisterUdpSession` is answered. -/
theorem follows_events_iff (handler : CloudflaredHandler σ)
    {log : List (Event (wire handlerCalls))} {root : Root} {request : Request}
    (h : decodeRequest root = .ok request) (s : σ) :
    Follows Applies (log ++ gotten (.ok root) :: request.events handler s) ↔
      Follows Applies log ∧ ¬ request.IsUnregister := by
  have hgotten : Follows Applies (log ++ [gotten (.ok root)]) ↔ Follows Applies log :=
    follows_concat.trans (and_iff_left (applies_gotten _))
  rw [List.append_cons, ← hgotten]
  have hturn := lastTurn_gotten log root
  generalize log ++ [gotten (.ok root)] = before at hturn
  cases request with
  | bootstrap question =>
      refine follows_concat.trans (and_congr_right' (iff_of_true ?_ ?_))
      · exact (applies_results_iff hturn h question _).mpr False.elim
      · rintro ⟨_, _, ⟨⟩⟩
  | updateConfiguration question version configuration =>
      refine (follows_answered_iff hturn h _ _ question _).trans
        (and_congr_right' (iff_of_true ?_ ?_))
      · exact fun _ => ⟨_, rfl, List.mem_singleton_self _⟩
      · rintro ⟨_, _, ⟨⟩⟩
  | registerUdpSession question sessionIdentifier destinationIp destinationPort =>
      refine (follows_answered_iff hturn h _ _ question _).trans
        (and_congr_right' (iff_of_true ?_ ?_))
      · exact fun _ => ⟨_, rfl, List.mem_singleton_self _⟩
      · rintro ⟨_, _, ⟨⟩⟩
  | unregisterUdpSession question params =>
      refine follows_concat.trans (and_congr_right' (iff_of_false ?_ ?_))
      · -- nothing was called since the message came in
        intro happlies
        obtain ⟨op, _, hop⟩ := (applies_results_iff hturn h question _).mp happlies trivial
        exact List.not_mem_nil hop
      · exact not_not_intro ⟨question, params, rfl⟩
  | unknown question =>
      refine follows_concat.trans (and_congr_right' (iff_of_true (applies_exception question _) ?_))
      rintro ⟨_, _, ⟨⟩⟩
  | other =>
      refine (iff_of_eq (congrArg _ (List.append_nil before))).trans (and_iff_left ?_).symm
      rintro ⟨_, _, ⟨⟩⟩

/-! ## All requests -/

theorem follows_serveLog_iff (handler : CloudflaredHandler σ) (ending : RpcError)
    (incoming : List Root) (log : List (Event (wire handlerCalls))) (s : σ) :
    Follows Applies (log ++ serveLog handler ending incoming s) ↔
      Follows Applies log ∧ ∀ request ∈ (decodeAll incoming).1, ¬ request.IsUnregister := by
  induction incoming generalizing log s with
  | nil =>
      rw [serveLog, decodeAll, follows_concat, and_iff_left (applies_gotten _)]
      exact (and_iff_left (List.forall_mem_nil _)).symm
  | cons root rest ih =>
      rw [serveLog, decodeAll]
      cases h : decodeRequest root with
      | error e =>
          dsimp only
          rw [follows_concat, and_iff_left (applies_gotten _)]
          exact (and_iff_left (List.forall_mem_nil _)).symm
      | ok request =>
          dsimp only
          rw [← List.append_assoc, ih, follows_events_iff handler h, and_assoc,
            List.forall_mem_cons]

theorem invoked_serveLog (handler : CloudflaredHandler σ) (ending : RpcError)
    (incoming : List Root) (s : σ) :
    invoked (serveLog handler ending incoming s) =
      (decodeAll incoming).1.filterMap Request.invocation := by
  induction incoming generalizing s with
  | nil => rfl
  | cons root rest ih =>
      rw [serveLog, decodeAll]
      cases decodeRequest root with
      | error e => rfl
      | ok request =>
          show invoked (request.events handler s ++ serveLog handler ending rest _) = _
          rw [invoked, List.filterMap_append, ← invoked, ← invoked, request.invoked_events, ih,
            List.filterMap_cons]
          cases request.invocation <;> rfl

/-- A run of the loop keeps calls and replies in step if and only if none of the requests it
serves is an `unregisterUdpSession`. -/
theorem serveCloudflared_inStep_iff (handler : CloudflaredHandler σ) (incoming : List Root)
    (ending : RpcError) (s : σ) (turns : Nat) :
    InStep (decodeAll incoming).1 ((serveCloudflared (incoming.length + 1 + turns)).interpret
        (respond handler) ⟨incoming, ending, [], s⟩).2.log ↔
      ∀ request ∈ (decodeAll incoming).1, ¬ request.IsUnregister := by
  obtain ⟨edge, hrun, hlog, _⟩ := serveCloudflared_run handler incoming ending [] s turns
  have hfollows := follows_serveLog_iff handler ending incoming [] s
  rw [and_iff_right (follows_nil _)] at hfollows
  rw [hrun, InStep, hlog, hfollows]
  refine and_iff_right_of_imp fun hnone => ?_
  rw [List.nil_append, invoked_serveLog]
  exact List.filterMap_congr fun request hmem => (Request.addressed_eq_invocation (hnone _ hmem)).symm

/-- A struct of two byte lists and no data, as each of the types reads it. -/
def twoBlobs (first second : List UInt8) : ContentReader where
  updateConfigurationParams := .ok ⟨0, .ok first⟩
  registerUdpSessionParams := .ok ⟨.ok first, .ok second, 0⟩
  unregisterUdpSessionParams := .ok ⟨.ok first, .ok (.ok "closed")⟩
  updateConfigurationResults := .ok (.error ⟨"not a struct"⟩)
  registerUdpSessionResults := .ok (.error ⟨"not a struct"⟩)
  registerConnectionResults := .ok (.error ⟨"not a struct"⟩)

/-- `unregisterUdpSession` of a session, because it was closed. -/
def unregisterCall : Root :=
  .ok (.ok (.call (.ok ⟨7, sessionManagerInterfaceId, 1,
    .ok ⟨twoBlobs (List.replicate 16 1) "closed\x00".toUTF8.toList, .ok []⟩⟩)))

/-- The edge is told that the session is gone, and the handler never hears of it. -/
theorem unregister_not_delivered :
    let handler : CloudflaredHandler Unit :=
      { updateConfiguration := fun version _ s => (⟨version, ""⟩, s) }
    let log := ((serveCloudflared 2).interpret (respond handler)
      ⟨[unregisterCall], .eof, [], ()⟩).2.log
    written log = [buildUnregisterUdpSessionReturn 7] ∧ invoked log = [] ∧
      ¬ InStep (decodeAll [unregisterCall]).1 log := by
  refine ⟨rfl, rfl, fun h => ?_⟩
  have hinvoked : ([] : List HandlerOp) = [_] := h.1
  exact nomatch hinvoked

end Libcfd.Rpc
