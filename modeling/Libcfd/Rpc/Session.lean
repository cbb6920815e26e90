import Libcfd.Foundation.Trace
import Libcfd.Rpc.Client

/-!
# Operations on one client, one after the other

Whatever the peer sends and whichever reads and writes fail, the messages of a session are in order:
`Orderly` is the invariant of the client and of what has happened so far, `orderly_perform` is the
step and `orderly_operations` the run.
-/

namespace Libcfd.Rpc

open Program

variable {E : Signature} {α : Type}

/-! ## Sessions -/

inductive Operation (α : Type) where
  | bootstrap
  | call (importIdentifier : UInt32) (interfaceIdentifier : UInt64) (methodIdentifier : UInt16)
      (fillParameters : Except RpcError Payload) (decode : PayloadReader → Except RpcError α)

/-- What an operation returns. -/
inductive Answer (α : Type) where
  | capability (importIdentifier : UInt32)
  | value (value : α)
  deriving DecidableEq

def Operation.perform : Operation α → ClientM E (Answer α)
  | .bootstrap => do return .capability (← RpcClient.bootstrap)
  | .call importIdentifier interfaceIdentifier methodIdentifier fillParameters decode => do
      return .value (← RpcClient.call importIdentifier interfaceIdentifier methodIdentifier
        fillParameters decode)

/-- One operation of a session: the client before it, what it returned, and the client after it. -/
structure Turn (α : Type) where
  before : RpcClient
  result : Except RpcError (Answer α)
  after : RpcClient

def Turn.tookQuestion (turn : Turn α) : Bool :=
  turn.before.nextQuestion != turn.after.nextQuestion

/-- A failed operation does not keep the caller from the next one. -/
def operations : List (Operation α) → RpcClient → Program (wire E) (List (Turn α) × RpcClient)
  | [], client => .done ([], client)
  | op :: ops, client =>
      (op.perform client).bind fun (result, client') =>
        (operations ops client').bind fun (turns, last) =>
          .done (⟨client, result, client'⟩ :: turns, last)

/-- The client may be closed at the end; that consumes it. -/
def session (ops : List (Operation α)) (closing : Bool) : Program (wire E) (List (Turn α)) :=
  (operations ops .new).bind fun (turns, client) =>
    if closing then (RpcClient.close client).bind fun _ => .done turns else .done turns

/-! ## What is on the wire -/

/-- The question a message asks. -/
def Message.question? : Message → Option UInt32
  | .bootstrap questionId => some questionId
  | .call questionId .. => some questionId
  | _ => none

def asked : Event (wire E) → Option UInt32
  | ⟨.write message, _⟩ => message.question?
  | _ => none

def finished : Event (wire E) → Option UInt32
  | ⟨.write (.finish questionId _), _⟩ => some questionId
  | _ => none

def IsRelease : Event (wire E) → Prop
  | ⟨.write (.release ..), _⟩ => True
  | _ => False

/-- The question was sent, and then a `Return` that answers it was read. -/
def Answered (trace : List (Event (wire E))) (question : UInt32) : Prop :=
  ∃ message root, message.question? = some question ∧ Answers root question ∧
    List.Sublist [wrote message (.ok ()), gotten (.ok root)] trace

/-- A bootstrap exchange returned a capability. -/
def Bootstrapped (trace : List (Event (wire E))) : Prop :=
  ∃ question root, decodeBootstrap root question = .ok .capability ∧
    List.Sublist [wrote (.bootstrap question) (.ok ()), gotten (.ok root)] trace

/-- What has to have happened before a message is sent. -/
def Licensed (before : List (Event (wire E))) : Event (wire E) → Prop
  | ⟨.write (.call ..), _⟩ => Bootstrapped before
  | ⟨.write (.finish questionId _), _⟩ => Answered before questionId
  | ⟨.write (.release ..), _⟩ => Bootstrapped before
  | _ => True

theorem Answered.append {trace : List (Event (wire E))} {question : UInt32}
    (h : Answered trace question) (more : List (Event (wire E))) :
    Answered (trace ++ more) question := by
  obtain ⟨message, root, hquestion, hroot, hsub⟩ := h
  exact ⟨message, root, hquestion, hroot, hsub.trans (List.sublist_append_left ..)⟩

theorem Bootstrapped.append {trace : List (Event (wire E))} (h : Bootstrapped trace)
    (more : List (Event (wire E))) : Bootstrapped (trace ++ more) := by
  obtain ⟨question, root, hroot, hsub⟩ := h
  exact ⟨question, root, hroot, hsub.trans (List.sublist_append_left ..)⟩

/-! ## One operation -/

/-- What one question puts on the wire. -/
inductive Asks (question : UInt32) (message : Message) : List (Event (wire E)) → Prop
  | sent (result : Except RpcError Unit) : Asks question message [wrote message result]
  | answered (result : Except RpcError Root) :
      Asks question message [wrote message (.ok ()), gotten result]
  | settled {root : Root} (h : Answers root question) (release : Bool)
      (result : Except RpcError Unit) :
      Asks question message
        [wrote message (.ok ()), gotten (.ok root), wrote (.finish question release) result]

theorem Exchanged.asks {β γ : Type} {question : UInt32} {message : Message}
    {decode : Root → Except RpcError γ} {release : γ → Bool} {conclude : γ → Except RpcError β}
    {client client' : RpcClient} {settle : γ → RpcClient} {trace : List (Event (wire E))}
    {result : Except RpcError β}
    (h : Exchanged question message decode release conclude client settle trace result client')
    (hdecode : ∀ {root outcome}, decode root = .ok outcome → Answers root question) :
    Asks question message trace := by
  cases h with
  | unsent e => exact .sent (.error e)
  | unanswered e => exact .answered (.error e)
  | undecoded _ => exact .answered (.ok _)
  | unfinished h e => exact .settled (hdecode h) _ (.error e)
  | finished h => exact .settled (hdecode h) _ (.ok ())

/-- Everything an operation can do to the client and to the wire. -/
inductive Performed (client : RpcClient) : List (Event (wire E)) → RpcClient → Prop
  | refused : Performed client [] client
  | unfilled : Performed client [] client.countQuestion
  | bootstrap {trace : List (Event (wire E))} {client' : RpcClient}
      (h : Asks client.nextQuestion (.bootstrap client.nextQuestion) trace)
      (hnext : client'.nextQuestion = client.nextQuestion + 1)
      (hcapability : client'.hasBootstrap = true → Bootstrapped trace) :
      Performed client trace client'
  | call {trace : List (Event (wire E))} {importIdentifier : UInt32} {interfaceIdentifier : UInt64}
      {methodIdentifier : UInt16} {params : Payload} (hbootstrap : client.hasBootstrap = true)
      (h : Asks client.nextQuestion
        (.call client.nextQuestion importIdentifier interfaceIdentifier methodIdentifier params)
        trace) :
      Performed client trace client.countQuestion

theorem performed_bootstrap {client client' : RpcClient} {trace : List (Event (wire E))}
    {result : Except RpcError UInt32}
    (h : Exec (RpcClient.bootstrap client) trace (result, client')) :
    Performed client trace client' := by
  cases hbootstrap : client.hasBootstrap with
  | true =>
      rw [bootstrap_twice hbootstrap] at h
      obtain ⟨rfl, ⟨⟩⟩ := exec_done_iff.mp h
      exact .refused
  | false =>
      rw [bootstrap_eq hbootstrap] at h
      have hexchanged := exchanged_of_exec h
      refine .bootstrap (hexchanged.asks decodeBootstrap_answers) ?_ ?_
      · cases hexchanged <;> rfl
      · intro hcapability
        have hnot : client.countQuestion.hasBootstrap ≠ true := by
          rw [RpcClient.countQuestion, hbootstrap]
          exact Bool.false_ne_true
        cases hexchanged with
        | unsent e => exact absurd hcapability hnot
        | unanswered e => exact absurd hcapability hnot
        | undecoded _ => exact absurd hcapability hnot
        | unfinished hroot e =>
            rw [eq_of_beq hcapability] at hroot
            exact ⟨_, _, hroot, .cons_cons _ (.cons_cons _ (List.nil_sublist _))⟩
        | finished hroot =>
            rw [eq_of_beq hcapability] at hroot
            exact ⟨_, _, hroot, .cons_cons _ (.cons_cons _ (List.nil_sublist _))⟩

theorem performed_call {importIdentifier : UInt32} {interfaceIdentifier : UInt64}
    {methodIdentifier : UInt16} {fillParameters : Except RpcError Payload}
    {decode : PayloadReader → Except RpcError α} {client client' : RpcClient}
    {trace : List (Event (wire E))} {result : Except RpcError α}
    (h : Exec (RpcClient.call importIdentifier interfaceIdentifier methodIdentifier fillParameters
      decode client) trace (result, client')) :
    Performed client trace client' := by
  cases hbootstrap : client.hasBootstrap with
  | false =>
      rw [call_early _ _ _ _ hbootstrap] at h
      obtain ⟨rfl, ⟨⟩⟩ := exec_done_iff.mp h
      exact .refused
  | true =>
  cases fillParameters with
  | error e =>
      rw [call_unfilled _ _ _ _ hbootstrap] at h
      obtain ⟨rfl, ⟨⟩⟩ := exec_done_iff.mp h
      exact .unfilled
  | ok params =>
      rw [call_eq _ _ _ _ hbootstrap] at h
      have hexchanged := exchanged_of_exec h
      have hasks := hexchanged.asks decodeCall_answers
      have hclient : client' = client.countQuestion := by cases hexchanged <;> rfl
      rw [hclient]
      exact .call hbootstrap hasks

theorem performed_of_exec (op : Operation α) {client client' : RpcClient}
    {trace : List (Event (wire E))} {result : Except RpcError (Answer α)}
    (h : Exec (op.perform client) trace (result, client')) : Performed client trace client' := by
  cases op with
  | bootstrap =>
      obtain ⟨inner, hinner, _⟩ := exec_map h
      exact performed_bootstrap hinner
  | call importIdentifier interfaceIdentifier methodIdentifier fillParameters decode =>
      obtain ⟨inner, hinner, _⟩ := exec_map h
      exact performed_call hinner

/-! ## The invariant -/

/-- The client's counter is ahead of every question sent and of every question finished, what was
sent was licensed by what came before it, and a client with a capability got it from the peer. -/
structure Orderly (client : RpcClient) (trace : List (Event (wire E))) : Prop where
  asked_increasing : (trace.filterMap asked).Pairwise (· < ·)
  asked_lt : ∀ question ∈ trace.filterMap asked, question < client.nextQuestion
  finished_increasing : (trace.filterMap finished).Pairwise (· < ·)
  finished_lt : ∀ question ∈ trace.filterMap finished, question < client.nextQuestion
  licensed : Follows Licensed trace
  no_release : ∀ event ∈ trace, ¬ IsRelease event
  bootstrapped : client.hasBootstrap = true → Bootstrapped trace

theorem orderly_new : Orderly (E := E) .new [] where
  asked_increasing := .nil
  asked_lt _ h := absurd h List.not_mem_nil
  finished_increasing := .nil
  finished_lt _ h := absurd h List.not_mem_nil
  licensed := follows_nil _
  no_release _ h := absurd h List.not_mem_nil
  bootstrapped h := absurd h Bool.false_ne_true

/-- A question is not a finish. -/
theorem finished_wrote {message : Message} {question : UInt32}
    (h : message.question? = some question) (result : Except RpcError Unit) :
    finished (E := E) (wrote message result) = none := by
  cases message with
  | finish _ _ => cases h
  | _ => rfl

section Asks

variable {question : UInt32} {message : Message} {trace more : List (Event (wire E))}

theorem Asks.asked_eq (h : Asks question message more) (hmessage : message.question? = some question) :
    more.filterMap asked = [question] := by
  have hwrote : ∀ result, asked (E := E) (wrote message result) = some question := fun _ => hmessage
  cases h with
  | sent result => rw [List.filterMap_cons_some (hwrote result), List.filterMap_nil]
  | answered result => rw [List.filterMap_cons_some (hwrote _)]; rfl
  | settled _ release result => rw [List.filterMap_cons_some (hwrote _)]; rfl

/-- The only finish is the one that settles the question. -/
theorem Asks.finished_eq (h : Asks question message more)
    (hmessage : message.question? = some question) :
    more.filterMap finished = [] ∨ more.filterMap finished = [question] := by
  have hwrote := finished_wrote (E := E) hmessage
  cases h with
  | sent result => exact Or.inl (List.filterMap_cons_none (hwrote _))
  | answered result => exact Or.inl (List.filterMap_cons_none (hwrote _))
  | settled _ release result => exact Or.inr (List.filterMap_cons_none (hwrote _))

theorem Asks.no_release (h : Asks question message more)
    (hmessage : message.question? = some question) : ∀ event ∈ more, ¬ IsRelease event := by
  have hwrote : ∀ result, ¬ IsRelease (E := E) (wrote message result) := by
    intro result
    cases message with
    | release _ _ => cases hmessage
    | _ => exact id
  have hgotten : ∀ result, ¬ IsRelease (E := E) (gotten result) := fun _ => id
  cases h with
  | sent result => exact List.forall_mem_singleton.mpr (hwrote result)
  | answered result =>
      exact List.forall_mem_cons.mpr
        ⟨hwrote _, List.forall_mem_singleton.mpr (hgotten result)⟩
  | settled _ release result =>
      have hfinish : ¬ IsRelease (E := E) (wrote (.finish question release) result) := id
      exact List.forall_mem_cons.mpr ⟨hwrote _, List.forall_mem_cons.mpr
        ⟨hgotten _, List.forall_mem_singleton.mpr hfinish⟩⟩

/-- The finish of a settled question is licensed by the question and its answer. -/
theorem Asks.licensed (h : Asks question message more)
    (hmessage : message.question? = some question) (htrace : Follows Licensed trace)
    (hlicensed : ∀ result, Licensed trace (wrote message result)) :
    Follows Licensed (trace ++ more) := by
  have hwrote : ∀ result, Follows Licensed (trace ++ [wrote message result]) :=
    fun result => follows_concat.mpr ⟨htrace, hlicensed result⟩
  have hgotten : ∀ result,
      Follows Licensed (trace ++ [wrote message (.ok ()), gotten result]) := by
    intro result
    rw [List.append_cons]
    exact follows_concat.mpr ⟨hwrote (.ok ()), trivial⟩
  cases h with
  | sent result => exact hwrote result
  | answered result => exact hgotten result
  | @settled root hroot release result =>
      have hanswered : Answered (trace ++ [wrote message (.ok ()), gotten (.ok root)]) question :=
        ⟨message, root, hmessage, hroot, List.sublist_append_right ..⟩
      have hsplit : trace ++ [wrote message (.ok ()), gotten (.ok root),
          wrote (.finish question release) result] =
          (trace ++ [wrote message (.ok ()), gotten (.ok root)]) ++
            [wrote (.finish question release) result] := by
        rw [List.append_assoc]
        rfl
      rw [hsplit]
      exact follows_concat.mpr ⟨hgotten (.ok root), hanswered⟩

end Asks

/-- The counter moves past the question just taken, as long as it does not wrap. -/
theorem lt_countQuestion {client : RpcClient} (h : client.nextQuestion.toNat + 1 < 2 ^ 32) :
    client.nextQuestion < client.nextQuestion + 1 := by
  rw [UInt32.lt_iff_toNat_lt, UInt32.toNat_add]
  have hone : (1 : UInt32).toNat = 1 := rfl
  omega

section Step

variable {client client' : RpcClient} {trace more : List (Event (wire E))}

/-- A question asked in turn keeps the order. -/
theorem Orderly.asks {message : Message} (h : Orderly client trace)
    (hasks : Asks client.nextQuestion message more)
    (hmessage : message.question? = some client.nextQuestion)
    (hlicensed : ∀ result, Licensed trace (wrote message result))
    (hnext : client'.nextQuestion = client.nextQuestion + 1)
    (hcapability : client'.hasBootstrap = true → Bootstrapped (trace ++ more))
    (hbound : client.nextQuestion.toNat + 1 < 2 ^ 32) : Orderly client' (trace ++ more) := by
  have hlt := lt_countQuestion hbound
  have hasked := hasks.asked_eq hmessage
  have hmem : ∀ question ∈ more.filterMap finished, question = client.nextQuestion := by
    intro question hquestion
    rcases hasks.finished_eq hmessage with hnone | hone
    · rw [hnone] at hquestion
      cases hquestion
    · rw [hone] at hquestion
      exact List.mem_singleton.mp hquestion
  constructor
  case asked_increasing =>
    rw [List.filterMap_append, hasked]
    refine List.pairwise_append.mpr ⟨h.asked_increasing, List.pairwise_singleton .., ?_⟩
    intro question hquestion last hlast
    rw [List.mem_singleton.mp hlast]
    exact h.asked_lt question hquestion
  case asked_lt =>
    intro question hquestion
    rw [List.filterMap_append, hasked] at hquestion
    rw [hnext]
    rcases List.mem_append.mp hquestion with hold | hnew
    · exact UInt32.lt_trans (h.asked_lt question hold) hlt
    · rwa [List.mem_singleton.mp hnew]
  case finished_increasing =>
    rw [List.filterMap_append]
    refine List.pairwise_append.mpr ⟨h.finished_increasing, ?_, ?_⟩
    · rcases hasks.finished_eq hmessage with hnone | hone
      · rw [hnone]
        exact .nil
      · rw [hone]
        exact List.pairwise_singleton ..
    · intro question hquestion last hlast
      rw [hmem last hlast]
      exact h.finished_lt question hquestion
  case finished_lt =>
    intro question hquestion
    rw [List.filterMap_append] at hquestion
    rw [hnext]
    rcases List.mem_append.mp hquestion with hold | hnew
    · exact UInt32.lt_trans (h.finished_lt question hold) hlt
    · rwa [hmem question hnew]
  case licensed => exact hasks.licensed hmessage h.licensed hlicensed
  case no_release =>
    intro event hevent
    rcases List.mem_append.mp hevent with hold | hnew
    · exact h.no_release event hold
    · exact hasks.no_release hmessage event hnew
  case bootstrapped => exact hcapability

/-- **Step.** An operation keeps the order, unless the counter wraps in it. -/
theorem orderly_perform (h : Orderly client trace) (hperformed : Performed client more client')
    (hbound : client'.nextQuestion ≠ client.nextQuestion →
      client.nextQuestion.toNat + 1 < 2 ^ 32) : Orderly client' (trace ++ more) := by
  have htaken : client'.nextQuestion = client.nextQuestion + 1 →
      client.nextQuestion.toNat + 1 < 2 ^ 32 := by
    intro hnext
    refine hbound fun hsame => ?_
    have hzero : client.nextQuestion + 1 = client.nextQuestion := hnext.symm.trans hsame
    exact absurd hzero (by simp)
  cases hperformed with
  | refused =>
      rw [List.append_nil]
      exact h
  | unfilled =>
      have hlt := lt_countQuestion (htaken rfl)
      rw [List.append_nil]
      exact { h with
        asked_lt := fun question hquestion => UInt32.lt_trans (h.asked_lt question hquestion) hlt
        finished_lt := fun question hquestion =>
          UInt32.lt_trans (h.finished_lt question hquestion) hlt }
  | bootstrap hasks hnext hcapability =>
      refine h.asks hasks rfl (fun _ => trivial) hnext (fun hhas => ?_) (htaken hnext)
      obtain ⟨question, root, hroot, hsub⟩ := hcapability hhas
      exact ⟨question, root, hroot, hsub.trans (List.sublist_append_right ..)⟩
  | call hbootstrap hasks =>
      have hlicensed := h.bootstrapped hbootstrap
      exact h.asks hasks rfl (fun _ => hlicensed) rfl (fun _ => hlicensed.append more) (htaken rfl)

end Step

theorem exec_operations_cons {op : Operation α} {ops : List (Operation α)}
    {client last : RpcClient} {trace : List (Event (wire E))} {turns : List (Turn α)}
    (h : Exec (operations (op :: ops) client) trace (turns, last)) :
    ∃ first result client' second rest, trace = first ++ second ∧
      turns = ⟨client, result, client'⟩ :: rest ∧
      Exec (op.perform client) first (result, client') ∧
      Exec (operations ops client') second (rest, last) := by
  obtain ⟨first, ⟨result, client'⟩, second, rfl, hfirst, h⟩ := exec_bind_iff.mp h
  obtain ⟨second, ⟨rest, last'⟩, third, rfl, hrest, h⟩ := exec_bind_iff.mp h
  obtain ⟨rfl, ⟨⟩⟩ := exec_done_iff.mp h
  rw [List.append_nil]
  exact ⟨first, result, client', second, rest, rfl, rfl, hfirst, hrest⟩

theorem Performed.next {client client' : RpcClient} {trace : List (Event (wire E))}
    (h : Performed client trace client') :
    client'.nextQuestion = client.nextQuestion ∨
      client'.nextQuestion = client.nextQuestion + 1 := by
  cases h with
  | refused => exact Or.inl rfl
  | unfilled => exact Or.inr rfl
  | bootstrap _ hnext _ => exact Or.inr hnext
  | call _ _ => exact Or.inr rfl

/-- **Run.** As long as there are fewer than `2 ^ 32` questions, every session is in order. -/
theorem orderly_operations {ops : List (Operation α)} {client last : RpcClient}
    {trace more : List (Event (wire E))} {turns : List (Turn α)} (h : Orderly client trace)
    (hexec : Exec (operations ops client) more (turns, last))
    (hbound : client.nextQuestion.toNat + turns.countP Turn.tookQuestion < 2 ^ 32) :
    Orderly last (trace ++ more) := by
  induction ops generalizing client trace more turns with
  | nil =>
      obtain ⟨rfl, ⟨⟩⟩ := exec_done_iff.mp hexec
      rw [List.append_nil]
      exact h
  | cons op ops ih =>
      obtain ⟨first, result, client', second, rest, rfl, rfl, hfirst, hrest⟩ :=
        exec_operations_cons hexec
      have hperformed := performed_of_exec op hfirst
      rw [← List.append_assoc]
      by_cases hsame : client'.nextQuestion = client.nextQuestion
      · have hfree : ¬ (Turn.mk client result client').tookQuestion = true := by
          simp [Turn.tookQuestion, hsame]
        rw [List.countP_cons_of_neg hfree] at hbound
        refine ih (orderly_perform h hperformed fun hne => absurd hsame hne) hrest ?_
        rwa [hsame]
      · have htook : (Turn.mk client result client').tookQuestion = true := by
          simpa [Turn.tookQuestion] using Ne.symm hsame
        rw [List.countP_cons_of_pos htook] at hbound
        have hnext := hperformed.next.resolve_left hsame
        have htoNat : client'.nextQuestion.toNat = client.nextQuestion.toNat + 1 := by
          have hone : (1 : UInt32).toNat = 1 := rfl
          rw [hnext, UInt32.toNat_add]
          omega
        refine ih (orderly_perform h hperformed fun _ => by omega) hrest ?_
        omega

/-! ## Values and the returns they come from -/

/-- At this position the question was sent, the `Return` read next answers it, and the value was
decoded from its payload. -/
def TakesReturn (events : List (Event (wire E))) (position : Nat) (question : UInt32)
    (importIdentifier : UInt32) (interfaceIdentifier : UInt64) (methodIdentifier : UInt16)
    (decode : PayloadReader → Except RpcError α) (value : α) : Prop :=
  ∃ (params : Payload) (ret : ReturnReader) (payload : PayloadReader),
    events[position]? = some (wrote (.call question importIdentifier interfaceIdentifier
      methodIdentifier params) (.ok ())) ∧
    events[position + 1]? = some (gotten (.ok (.ok (.ok (.ret (.ok ret)))))) ∧
    ret.answerId = question ∧ ret.which = .ok (.results (.ok payload)) ∧
    decode payload = .ok value

theorem TakesReturn.shift {events : List (Event (wire E))} {position : Nat} {question : UInt32}
    {importIdentifier : UInt32} {interfaceIdentifier : UInt64} {methodIdentifier : UInt16}
    {decode : PayloadReader → Except RpcError α} {value : α}
    (h : TakesReturn events position question importIdentifier interfaceIdentifier methodIdentifier
      decode value) (before after : List (Event (wire E))) :
    TakesReturn (before ++ events ++ after) (before.length + position) question importIdentifier
      interfaceIdentifier methodIdentifier decode value := by
  have hshift : ∀ {i event}, events[i]? = some event →
      (before ++ events ++ after)[before.length + i]? = some event := by
    intro i event hevent
    obtain ⟨hlt, _⟩ := List.getElem?_eq_some_iff.mp hevent
    rw [List.append_assoc, List.getElem?_append_right (Nat.le_add_right ..),
      Nat.add_sub_cancel_left, List.getElem?_append_left hlt]
    exact hevent
  obtain ⟨params, ret, payload, hcall, hret, h⟩ := h
  exact ⟨params, ret, payload, hshift hcall, hshift hret, h⟩

/-- A call that returns a value was sent, answered and finished. -/
theorem takesReturn_of_call {importIdentifier : UInt32} {interfaceIdentifier : UInt64}
    {methodIdentifier : UInt16} {fillParameters : Except RpcError Payload}
    {decode : PayloadReader → Except RpcError α} {client client' : RpcClient}
    {trace : List (Event (wire E))} {value : α}
    (h : Exec (RpcClient.call importIdentifier interfaceIdentifier methodIdentifier fillParameters
      decode client) trace (.ok value, client')) :
    trace.length = 3 ∧ TakesReturn trace 0 client.nextQuestion importIdentifier interfaceIdentifier
      methodIdentifier decode value := by
  cases hbootstrap : client.hasBootstrap with
  | false =>
      rw [call_early _ _ _ _ hbootstrap] at h
      cases (exec_done_iff.mp h).2
  | true =>
  cases fillParameters with
  | error e =>
      rw [call_unfilled _ _ _ _ hbootstrap] at h
      cases (exec_done_iff.mp h).2
  | ok params =>
      rw [call_eq _ _ _ _ hbootstrap] at h
      have hexchanged := exchanged_of_exec h
      generalize hresult : (Except.ok value : Except RpcError α) = result at hexchanged
      cases hexchanged with
      | @finished root outcome hroot =>
          cases outcome with
          | value found =>
              cases hresult
              obtain ⟨ret, payload, rfl, hid, hwhich, hdecode⟩ := decodeCall_value hroot
              exact ⟨rfl, params, ret, payload, rfl, rfl, hid, hwhich, hdecode⟩
          | _ => cases hresult
      | _ => cases hresult

theorem takesReturn_of_exec {importIdentifier : UInt32} {interfaceIdentifier : UInt64}
    {methodIdentifier : UInt16} {fillParameters : Except RpcError Payload}
    {decode : PayloadReader → Except RpcError α} {client client' : RpcClient}
    {trace : List (Event (wire E))} {value : α}
    (h : Exec ((Operation.call importIdentifier interfaceIdentifier methodIdentifier fillParameters
      decode).perform client) trace (.ok (.value value), client')) :
    trace.length = 3 ∧ TakesReturn trace 0 client.nextQuestion importIdentifier interfaceIdentifier
      methodIdentifier decode value := by
  obtain ⟨inner, hcall, hinner⟩ := exec_map h
  cases inner with
  | error e => cases hinner
  | ok found =>
      cases hinner
      exact takesReturn_of_call hcall

/-- The operation at this index of the session returned a value. -/
def IsValue (turns : List (Turn α)) (index : Nat) : Prop :=
  ∃ turn value, turns[index]? = some turn ∧ turn.result = .ok (.value value)

/-- A bootstrap returns no value. -/
theorem isCall_of_value {op : Operation α} {client client' : RpcClient}
    {trace : List (Event (wire E))} {value : α}
    (h : Exec (op.perform client) trace (.ok (.value value), client')) : op ≠ .bootstrap := by
  rintro rfl
  obtain ⟨inner, _, hinner⟩ := exec_map h
  cases inner with
  | error e => cases hinner
  | ok id => cases hinner

/-- Every value has its own place in the trace. -/
theorem exists_positions {ops : List (Operation α)} {client last : RpcClient}
    {trace : List (Event (wire E))} {turns : List (Turn α)}
    (h : Exec (operations ops client) trace (turns, last)) :
    ∃ position : Nat → Nat,
      (∀ i j, i < j → IsValue turns i → IsValue turns j → position i < position j) ∧
      ∀ (i : Nat) importIdentifier interfaceIdentifier methodIdentifier fillParameters decode turn
        value, ops[i]? = some (.call importIdentifier interfaceIdentifier methodIdentifier
          fillParameters decode) → turns[i]? = some turn → turn.result = .ok (.value value) →
        TakesReturn trace (position i) turn.before.nextQuestion importIdentifier interfaceIdentifier
          methodIdentifier decode value := by
  induction ops generalizing client trace turns with
  | nil =>
      refine ⟨id, fun i j hij _ _ => hij, ?_⟩
      intro i _ _ _ _ _ _ _ hop
      cases hop
  | cons op ops ih =>
      obtain ⟨first, result, client', second, rest, rfl, rfl, hfirst, hrest⟩ :=
        exec_operations_cons h
      obtain ⟨position, hincreasing, htakes⟩ := ih hrest
      refine ⟨fun i => i.casesOn 0 fun i => first.length + position i, ?_, ?_⟩
      · intro i j hij hi hj
        cases j with
        | zero => cases hij
        | succ j =>
            cases i with
            | zero =>
                -- the first operation returned a value, so it put something on the wire
                obtain ⟨turn, value, hturn, hvalue⟩ := hi
                cases Option.some.inj hturn
                dsimp only at hvalue
                subst hvalue
                cases op with
                | bootstrap => exact absurd rfl (isCall_of_value hfirst)
                | call _ _ _ _ _ =>
                    have hlength := (takesReturn_of_exec hfirst).1
                    show 0 < first.length + position j
                    omega
            | succ i =>
                have hlt := hincreasing i j (Nat.lt_of_succ_lt_succ hij) hi hj
                exact Nat.add_lt_add_left hlt _
      · intro i importIdentifier interfaceIdentifier methodIdentifier fillParameters decode turn
          value hop hturn hvalue
        cases i with
        | zero =>
            cases Option.some.inj hop
            cases Option.some.inj hturn
            dsimp only at hvalue
            subst hvalue
            exact (takesReturn_of_exec hfirst).2.shift [] second
        | succ i =>
            have hlater := (htakes i _ _ _ _ _ _ _ hop hturn hvalue).shift first []
            rwa [List.append_nil] at hlater

/-! ## The main result -/

/-- What holds of the messages of a session and of what its operations returned. -/
structure OrderlySession (ops : List (Operation α)) (events : List (Event (wire E)))
    (turns : List (Turn α)) : Prop where
  asked_increasing : (events.filterMap asked).Pairwise (· < ·)
  call_licensed : ∀ before question importIdentifier interfaceIdentifier methodIdentifier params
    result after, events = before ++ wrote (.call question importIdentifier interfaceIdentifier
      methodIdentifier params) result :: after → Bootstrapped before
  finish_once : (events.filterMap finished).Nodup
  finish_licensed : ∀ before question release result after,
    events = before ++ wrote (.finish question release) result :: after → Answered before question
  -- so there is at most one, and it is the last message
  release_last : ∀ before id count result after,
    events = before ++ wrote (.release id count) result :: after →
      after = [] ∧ Bootstrapped before
  -- no `Return` is the result of two calls: their positions differ
  values : ∃ position : Nat → Nat,
    (∀ i j, i < j → IsValue turns i → IsValue turns j → position i < position j) ∧
    ∀ (i : Nat) importIdentifier interfaceIdentifier methodIdentifier fillParameters decode turn
      value, ops[i]? = some (.call importIdentifier interfaceIdentifier methodIdentifier
        fillParameters decode) → turns[i]? = some turn → turn.result = .ok (.value value) →
      TakesReturn events (position i) turn.before.nextQuestion importIdentifier interfaceIdentifier
        methodIdentifier decode value

/-- A session is its operations, and a release if it is closed with a capability. -/
theorem exec_session {ops : List (Operation α)} {closing : Bool} {trace : List (Event (wire E))}
    {turns : List (Turn α)} (h : Exec (session ops closing) trace turns) :
    ∃ first client, Exec (operations ops .new) first (turns, client) ∧
      (trace = first ∨ client.hasBootstrap = true ∧
        ∃ result, trace = first ++ [wrote (.release 0 1) result]) := by
  obtain ⟨first, ⟨turns', client⟩, second, rfl, hfirst, hsecond⟩ := exec_bind_iff.mp h
  cases closing with
  | false =>
      obtain ⟨rfl, rfl⟩ := exec_done_iff.mp hsecond
      exact ⟨first, client, hfirst, Or.inl (List.append_nil _)⟩
  | true =>
      obtain ⟨release, _, rest, rfl, hrelease, hrest⟩ := exec_bind_iff.mp hsecond
      obtain ⟨rfl, rfl⟩ := exec_done_iff.mp hrest
      refine ⟨first, client, hfirst, ?_⟩
      rw [List.append_nil]
      rcases exec_close hrelease with ⟨_, rfl⟩ | ⟨hhas, result, rfl⟩
      · exact Or.inl (List.append_nil _)
      · exact Or.inr ⟨hhas, result, rfl⟩

/-- A release is licensed, and then nothing follows it. -/
theorem Orderly.session {client : RpcClient} {first trace : List (Event (wire E))}
    (h : Orderly client first) (htrace : trace = first ∨ client.hasBootstrap = true ∧
      ∃ result, trace = first ++ [wrote (.release 0 1) result]) :
    trace.filterMap asked = first.filterMap asked ∧
      trace.filterMap finished = first.filterMap finished ∧ Follows Licensed trace ∧
      ∀ before event after, trace = before ++ event :: after → IsRelease event → after = [] := by
  rcases htrace with rfl | ⟨hhas, result, rfl⟩
  · refine ⟨rfl, rfl, h.licensed, fun before event after heq hrelease => ?_⟩
    refine absurd hrelease (h.no_release event ?_)
    rw [heq]
    exact List.mem_append_right _ List.mem_cons_self
  · refine ⟨?_, ?_, follows_concat.mpr ⟨h.licensed, h.bootstrapped hhas⟩, ?_⟩
    · rw [List.filterMap_append]
      exact List.append_nil _
    · rw [List.filterMap_append]
      exact List.append_nil _
    · intro before event after heq hrelease
      rcases List.eq_nil_or_concat after with hnil | ⟨front, last, rfl⟩
      · exact hnil
      · rw [List.concat_eq_append, ← List.cons_append, ← List.append_assoc] at heq
        obtain ⟨hfirst, _⟩ := List.append_inj' heq rfl
        refine absurd hrelease (h.no_release event ?_)
        rw [hfirst]
        exact List.mem_append_right _ List.mem_cons_self

/-- **Sessions.** Whatever the peer sends and whatever fails, the messages of a session are in order
and every value has a `Return` of its own. -/
theorem orderlySession {ops : List (Operation α)} {closing : Bool} {trace : List (Event (wire E))}
    {turns : List (Turn α)} (h : Exec (session ops closing) trace turns)
    (hquestions : turns.countP Turn.tookQuestion < 2 ^ 32) : OrderlySession ops trace turns := by
  obtain ⟨first, client, hfirst, htrace⟩ := exec_session h
  have hbound : RpcClient.new.nextQuestion.toNat + turns.countP Turn.tookQuestion < 2 ^ 32 := by
    rw [show RpcClient.new.nextQuestion.toNat = 0 from rfl, Nat.zero_add]
    exact hquestions
  have horderly := orderly_operations orderly_new hfirst hbound
  rw [List.nil_append] at horderly
  obtain ⟨hasked, hfinished, hlicensed, hlast⟩ := horderly.session htrace
  obtain ⟨position, hincreasing, htakes⟩ := exists_positions hfirst
  obtain ⟨more, rfl⟩ : ∃ more, trace = first ++ more := by
    rcases htrace with rfl | ⟨_, result, rfl⟩
    · exact ⟨[], (List.append_nil _).symm⟩
    · exact ⟨_, rfl⟩
  constructor
  case asked_increasing =>
    rw [hasked]
    exact horderly.asked_increasing
  case call_licensed =>
    intro before question _ _ _ params result after heq
    exact hlicensed before _ after heq
  case finish_once =>
    rw [hfinished]
    exact horderly.finished_increasing.imp UInt32.ne_of_lt
  case finish_licensed =>
    intro before question release result after heq
    exact hlicensed before _ after heq
  case release_last =>
    intro before id count result after heq
    exact ⟨hlast before _ after heq trivial, hlicensed before _ after heq⟩
  case values =>
    refine ⟨position, hincreasing, fun i _ _ _ _ _ turn value hop hturn hvalue => ?_⟩
    have hshift := (htakes i _ _ _ _ _ turn value hop hturn hvalue).shift [] more
    rwa [List.nil_append, List.length_nil, Nat.zero_add] at hshift

/-! ## Runs -/

/-- Bootstrap, one call and close, with a peer that answers. -/
theorem orderlySession_answered :
    OrderlySession (E := noEffects)
      [.bootstrap, .call 0 7 1 (.ok ⟨.null, []⟩) fun _ => .ok true]
      [wrote (.bootstrap 0) (.ok ()), gotten (.ok (returnRoot 0 capabilityReader)),
        wrote (.finish 0 false) (.ok ()), wrote (.call 1 0 7 1 ⟨.null, []⟩) (.ok ()),
        gotten (.ok (returnRoot 1 capabilityReader)), wrote (.finish 1 false) (.ok ()),
        wrote (.release 0 1) (.ok ())]
      [⟨⟨0, false⟩, .ok (.capability 0), ⟨1, true⟩⟩, ⟨⟨1, true⟩, .ok (.value true), ⟨2, true⟩⟩] := by
  have hexec : Exec (session (E := noEffects)
      [.bootstrap, .call 0 7 1 (.ok ⟨.null, []⟩) fun _ => .ok true] true)
      [wrote (.bootstrap 0) (.ok ()), gotten (.ok (returnRoot 0 capabilityReader)),
        wrote (.finish 0 false) (.ok ()), wrote (.call 1 0 7 1 ⟨.null, []⟩) (.ok ()),
        gotten (.ok (returnRoot 1 capabilityReader)), wrote (.finish 1 false) (.ok ()),
        wrote (.release 0 1) (.ok ())]
      [⟨⟨0, false⟩, .ok (.capability 0), ⟨1, true⟩⟩,
        ⟨⟨1, true⟩, .ok (.value true), ⟨2, true⟩⟩] :=
    .request _ (.request _ (.request _ (.request _ (.request _ (.request _ (.request _
      (.done _)))))))
  exact orderlySession hexec (by decide)

/-- The finish of a bootstrap may fail after the capability has arrived: the bootstrap fails, and
`close` still releases the capability. -/
theorem release_after_failed_bootstrap :
    ∃ (events : List (Event (wire noEffects))) (turns : List (Turn Unit)),
      Exec (session [.bootstrap] true) events turns ∧
      wrote (.release 0 1) (.ok ()) ∈ events ∧
      ∀ turn ∈ turns, ∀ id, turn.result ≠ .ok (.capability id) := by
  let broken : RpcError := .io ⟨"broken pipe"⟩
  refine ⟨[wrote (.bootstrap 0) (.ok ()), gotten (.ok (returnRoot 0 capabilityReader)),
    wrote (.finish 0 false) (.error broken), wrote (.release 0 1) (.ok ())],
    [⟨⟨0, false⟩, .error broken, ⟨1, true⟩⟩], ?_, ?_, ?_⟩
  · exact .request _ (.request _ (.request _ (.request _ (.done _))))
  · simp
  · intro turn hturn id
    rw [List.mem_singleton.mp hturn]
    exact nofun

end Libcfd.Rpc
