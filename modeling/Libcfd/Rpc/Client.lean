import Libcfd.Rpc.Wire

/-!
# `RpcClient`

The client writes messages and reads messages; each operation takes the client along and returns it,
also when it fails. `Exchanged` says everything that one question can lead to, and both operations
that ask a question are instances of it.
-/

namespace Libcfd.Rpc

open Program

variable {E : Signature} {α γ : Type}

structure RpcClient where
  nextQuestion : UInt32
  hasBootstrap : Bool
  deriving DecidableEq, Repr

/-- `RpcClient::new`. -/
def RpcClient.new : RpcClient := ⟨0, false⟩

/-- A method on `&mut self`. -/
def ClientM (E : Signature) (α : Type) : Type :=
  RpcClient → Program (wire E) (Except RpcError α × RpcClient)

namespace ClientM

variable {β : Type}

def andThen (f : α → ClientM E β) :
    Except RpcError α × RpcClient → Program (wire E) (Except RpcError β × RpcClient)
  | (.ok a, client) => f a client
  | (.error e, client) => .done (.error e, client)

instance : Monad (ClientM E) where
  pure a := fun client => .done (.ok a, client)
  bind p f := fun client => (p client).bind (andThen f)

instance : MonadLift (Except RpcError) (ClientM E) where
  monadLift result := fun client => .done (result, client)

instance : MonadExceptOf RpcError (ClientM E) where
  throw e := fun client => .done (.error e, client)
  tryCatch p f := fun client => (p client).bind fun
    | (.ok a, client) => .done (.ok a, client)
    | (.error e, client) => f e client

/-- `self`. -/
def self : ClientM E RpcClient := fun client => .done (.ok client, client)

def modify (f : RpcClient → RpcClient) : ClientM E Unit := fun client => .done (.ok (), f client)

def writeRaw (message : Message) : ClientM E Unit := fun client =>
  .request (S := wire E) (.write message) fun result => .done (result, client)

def readMessage : ClientM E Root := fun client =>
  .request (S := wire E) .read fun result => .done (result, client)

end ClientM

/-! ## What a return decodes to -/

inductive BootstrapOutcome where
  | capability
  | exception (reason : String)
  | noCapability
  | unexpectedKind
  deriving DecidableEq

inductive CallOutcome (α : Type) where
  | value (value : α)
  | exception (reason : String)
  | unexpectedKind

def expectReturn (root : Root) (question : UInt32) : Except RpcError ReturnReader := do
  match ← rootWhich root with
  | .ret ret =>
      let ret ← orCapnp ret
      if ret.answerId ≠ question then
        throw (.protocol ("answer id " ++ toString ret.answerId ++ " does not match question " ++
          toString question))
      return ret
  | .abort exc =>
      let exc ← orCapnp exc
      let reason ← toStr exc.reason
      let type ← orNotInSchema exc.type
      throw (.abort reason type.toUInt16)
  | _ => throw (.protocol "expected return message")

def decodeBootstrap (root : Root) (question : UInt32) : Except RpcError BootstrapOutcome := do
  let answer ← expectReturn root question
  match ← orNotInSchema answer.which with
  | .results payload =>
      let payload ← orCapnp payload
      match ← orCapnp payload.capTable with
      | [] => return .noCapability
      | desc :: _ =>
          match ← orNotInSchema desc with
          | .senderHosted _ | .senderPromise _ => return .capability
          | _ => return .unexpectedKind
  | .exception exc => return .exception (← toStr (← orCapnp exc).reason)
  | _ => return .unexpectedKind

def decodeCall (root : Root) (question : UInt32) (decode : PayloadReader → Except RpcError α) :
    Except RpcError (CallOutcome α) := do
  let answer ← expectReturn root question
  match ← orNotInSchema answer.which with
  | .results payload => return .value (← decode (← orCapnp payload))
  | .exception exc => return .exception (← toStr (← orCapnp exc).reason)
  | _ => return .unexpectedKind

/-! ## Building -/

def buildBootstrap (question : UInt32) : Message := .bootstrap question

/-- The closure that fills in the parameters may fail. -/
def buildCall (question importIdentifier : UInt32) (interfaceIdentifier : UInt64)
    (methodIdentifier : UInt16) (fillParameters : Except RpcError Payload) :
    Except RpcError Message := do
  let params ← fillParameters
  return .call question importIdentifier interfaceIdentifier methodIdentifier params

def buildFinish (question : UInt32) (releaseResultCaps : Bool) : Message :=
  .finish question releaseResultCaps

def buildRelease (identifier referenceCount : UInt32) : Message :=
  .release identifier referenceCount

/-! ## The operations -/

namespace RpcClient

/-- `self.next_question += 1`. -/
def countQuestion (client : RpcClient) : RpcClient :=
  { client with nextQuestion := client.nextQuestion + 1 }

def sendFinish (question : UInt32) (releaseResultCaps : Bool) : ClientM E Unit :=
  ClientM.writeRaw (buildFinish question releaseResultCaps)

def bootstrap : ClientM E UInt32 := do
  if (← ClientM.self).hasBootstrap then
    throw (.protocol "bootstrap called twice")
  let question := (← ClientM.self).nextQuestion
  ClientM.modify countQuestion
  ClientM.writeRaw (buildBootstrap question)
  let root ← ClientM.readMessage
  match ← decodeBootstrap root question with
  | .capability =>
      ClientM.modify fun client => { client with hasBootstrap := true }
      sendFinish question false
      return 0
  | .exception reason =>
      sendFinish question true
      throw (.remoteCall reason)
  | .noCapability =>
      sendFinish question true
      throw (.protocol "bootstrap return carried no capability")
  | .unexpectedKind =>
      sendFinish question true
      throw (.protocol "bootstrap got unexpected return kind")

def call (importIdentifier : UInt32) (interfaceIdentifier : UInt64) (methodIdentifier : UInt16)
    (fillParameters : Except RpcError Payload) (decode : PayloadReader → Except RpcError α) :
    ClientM E α := do
  if ! (← ClientM.self).hasBootstrap then
    throw (.protocol "call before bootstrap")
  let question := (← ClientM.self).nextQuestion
  ClientM.modify countQuestion
  let message ← buildCall question importIdentifier interfaceIdentifier methodIdentifier
    fillParameters
  ClientM.writeRaw message
  let root ← ClientM.readMessage
  match ← decodeCall root question decode with
  | .value value =>
      sendFinish question false
      return value
  | .exception reason =>
      sendFinish question true
      throw (.remoteCall reason)
  | .unexpectedKind =>
      sendFinish question true
      throw (.protocol "call got unexpected return kind")

/-- The client is consumed. -/
def close : ClientM E Unit := do
  if (← ClientM.self).hasBootstrap then
    ClientM.writeRaw (buildRelease 0 1)
    ClientM.modify fun client => { client with hasBootstrap := false }

end RpcClient

theorem exec_map {β : Type} {p : ClientM E α} {f : α → β} {client client' : RpcClient}
    {trace : List (Event (wire E))} {result : Except RpcError β}
    (h : Exec ((do return f (← p) : ClientM E β) client) trace (result, client')) :
    ∃ inner, Exec (p client) trace (inner, client') ∧ result = inner.map f := by
  obtain ⟨first, ⟨inner, middle⟩, second, rfl, hp, hf⟩ := exec_bind_iff.mp h
  match inner with
  | .ok a =>
      obtain ⟨rfl, ⟨⟩⟩ := exec_done_iff.mp hf
      exact ⟨.ok a, by rwa [List.append_nil], rfl⟩
  | .error e =>
      obtain ⟨rfl, ⟨⟩⟩ := exec_done_iff.mp hf
      exact ⟨.error e, by rwa [List.append_nil], rfl⟩

/-! ## What one question comes to -/

/-- The message is a `Return` that answers this question. -/
def Answers (root : Root) (question : UInt32) : Prop :=
  ∃ ret : ReturnReader, root = .ok (.ok (.ret (.ok ret))) ∧ ret.answerId = question

/-- Everything that comes of a question: how it was sent, what was read, and whether it was
settled. The client afterwards depends on the outcome. -/
inductive Exchanged (question : UInt32) (message : Message) (decode : Root → Except RpcError γ)
    (release : γ → Bool) (conclude : γ → Except RpcError α) (client : RpcClient)
    (settle : γ → RpcClient) : List (Event (wire E)) → Except RpcError α → RpcClient → Prop
  | unsent (e : RpcError) : Exchanged question message decode release conclude client settle
      [wrote message (.error e)] (.error e) client
  | unanswered (e : RpcError) : Exchanged question message decode release conclude client settle
      [wrote message (.ok ()), gotten (.error e)] (.error e) client
  | undecoded {root : Root} {e : RpcError} (h : decode root = .error e) :
      Exchanged question message decode release conclude client settle
        [wrote message (.ok ()), gotten (.ok root)] (.error e) client
  | unfinished {root : Root} {outcome : γ} (h : decode root = .ok outcome) (e : RpcError) :
      Exchanged question message decode release conclude client settle
        [wrote message (.ok ()), gotten (.ok root),
          wrote (.finish question (release outcome)) (.error e)] (.error e) (settle outcome)
  | finished {root : Root} {outcome : γ} (h : decode root = .ok outcome) :
      Exchanged question message decode release conclude client settle
        [wrote message (.ok ()), gotten (.ok root),
          wrote (.finish question (release outcome)) (.ok ())] (conclude outcome) (settle outcome)

/-- Ask, wait for the answer, decode it, and settle the question. -/
def exchange (question : UInt32) (message : Message) (decode : Root → Except RpcError γ)
    (release : γ → Bool) (conclude : γ → Except RpcError α) (client : RpcClient)
    (settle : γ → RpcClient) : Program (wire E) (Except RpcError α × RpcClient) :=
  .request (S := wire E) (.write message) fun
    | .error e => .done (.error e, client)
    | .ok () => .request (S := wire E) .read fun
      | .error e => .done (.error e, client)
      | .ok root =>
          match decode root with
          | .error e => .done (.error e, client)
          | .ok outcome =>
              .request (S := wire E) (.write (.finish question (release outcome))) fun
                | .error e => .done (.error e, settle outcome)
                | .ok () => .done (conclude outcome, settle outcome)

theorem exchanged_of_exec {question : UInt32} {message : Message}
    {decode : Root → Except RpcError γ} {release : γ → Bool} {conclude : γ → Except RpcError α}
    {client client' : RpcClient} {settle : γ → RpcClient} {trace : List (Event (wire E))}
    {result : Except RpcError α}
    (h : Exec (exchange question message decode release conclude client settle) trace
      (result, client')) :
    Exchanged question message decode release conclude client settle trace result client' := by
  obtain ⟨sent, _, rfl, hsent⟩ := exec_request_iff.mp h
  match sent with
  | .error e =>
      obtain ⟨rfl, ⟨⟩⟩ := exec_done_iff.mp hsent
      exact .unsent e
  | .ok () =>
  obtain ⟨answer, _, rfl, hanswer⟩ := exec_request_iff.mp hsent
  match answer with
  | .error e =>
      obtain ⟨rfl, ⟨⟩⟩ := exec_done_iff.mp hanswer
      exact .unanswered e
  | .ok root =>
  dsimp only at hanswer
  cases hdecode : decode root with
  | error e =>
      rw [hdecode] at hanswer
      obtain ⟨rfl, ⟨⟩⟩ := exec_done_iff.mp hanswer
      exact .undecoded hdecode
  | ok outcome =>
      rw [hdecode] at hanswer
      obtain ⟨finish, _, rfl, hfinish⟩ := exec_request_iff.mp hanswer
      match finish with
      | .error e =>
          obtain ⟨rfl, ⟨⟩⟩ := exec_done_iff.mp hfinish
          exact .unfinished hdecode e
      | .ok () =>
          obtain ⟨rfl, ⟨⟩⟩ := exec_done_iff.mp hfinish
          exact .finished hdecode

/-! ### `bootstrap` -/

namespace BootstrapOutcome

/-- Whether `finish` releases what the return carried. -/
def releases : BootstrapOutcome → Bool
  | .capability => false
  | _ => true

def conclude : BootstrapOutcome → Except RpcError UInt32
  | .capability => .ok 0
  | .exception reason => .error (.remoteCall reason)
  | .noCapability => .error (.protocol "bootstrap return carried no capability")
  | .unexpectedKind => .error (.protocol "bootstrap got unexpected return kind")

def settle (client : RpcClient) (outcome : BootstrapOutcome) : RpcClient :=
  { client with hasBootstrap := outcome == .capability }

end BootstrapOutcome

theorem bootstrap_eq {client : RpcClient} (h : client.hasBootstrap = false) :
    RpcClient.bootstrap (E := E) client =
      exchange client.nextQuestion (.bootstrap client.nextQuestion)
        (decodeBootstrap · client.nextQuestion) BootstrapOutcome.releases
        BootstrapOutcome.conclude client.countQuestion
        (BootstrapOutcome.settle client.countQuestion) := by
  obtain ⟨question, has⟩ := client
  cases h
  refine congrArg (Program.request (S := wire E) (.write _)) (funext fun sent => ?_)
  match sent with
  | .error e => rfl
  | .ok () =>
  refine congrArg (Program.request (S := wire E) .read) (funext fun answer => ?_)
  match answer with
  | .error e => rfl
  | .ok root =>
  show ClientM.andThen _ (decodeBootstrap root question, _) = _
  dsimp only
  cases decodeBootstrap root question with
  | error e => rfl
  | ok outcome =>
      cases outcome
      all_goals
        refine congrArg (Program.request (S := wire E) (.write _)) (funext fun finish => ?_)
        match finish with
        | .error e => rfl
        | .ok () => rfl

theorem bootstrap_twice {client : RpcClient} (h : client.hasBootstrap = true) :
    RpcClient.bootstrap (E := E) client =
      .done (.error (.protocol "bootstrap called twice"), client) := by
  obtain ⟨question, has⟩ := client
  cases h
  rfl

/-! ### `call` -/

namespace CallOutcome

def releases : CallOutcome α → Bool
  | .value _ => false
  | _ => true

def conclude : CallOutcome α → Except RpcError α
  | .value result => .ok result
  | .exception reason => .error (.remoteCall reason)
  | .unexpectedKind => .error (.protocol "call got unexpected return kind")

end CallOutcome

section Call

variable {client : RpcClient} (importIdentifier : UInt32) (interfaceIdentifier : UInt64)
  (methodIdentifier : UInt16) (decode : PayloadReader → Except RpcError α)

theorem call_eq (h : client.hasBootstrap = true) (params : Payload) :
    RpcClient.call (E := E) importIdentifier interfaceIdentifier methodIdentifier (.ok params)
        decode client =
      exchange client.nextQuestion
        (.call client.nextQuestion importIdentifier interfaceIdentifier methodIdentifier params)
        (decodeCall · client.nextQuestion decode) CallOutcome.releases CallOutcome.conclude
        client.countQuestion fun _ => client.countQuestion := by
  obtain ⟨question, has⟩ := client
  cases h
  refine congrArg (Program.request (S := wire E) (.write _)) (funext fun sent => ?_)
  match sent with
  | .error e => rfl
  | .ok () =>
  refine congrArg (Program.request (S := wire E) .read) (funext fun answer => ?_)
  match answer with
  | .error e => rfl
  | .ok root =>
  show ClientM.andThen _ (decodeCall root question decode, _) = _
  dsimp only
  cases decodeCall root question decode with
  | error e => rfl
  | ok outcome =>
      cases outcome
      all_goals
        refine congrArg (Program.request (S := wire E) (.write _)) (funext fun finish => ?_)
        match finish with
        | .error e => rfl
        | .ok () => rfl

/-- The question is taken although nothing is sent. -/
theorem call_unfilled (h : client.hasBootstrap = true) (e : RpcError) :
    RpcClient.call (E := E) importIdentifier interfaceIdentifier methodIdentifier (.error e)
        decode client = .done (.error e, client.countQuestion) := by
  obtain ⟨question, has⟩ := client
  cases h
  rfl

theorem call_early (h : client.hasBootstrap = false) (fillParameters : Except RpcError Payload) :
    RpcClient.call (E := E) importIdentifier interfaceIdentifier methodIdentifier fillParameters
        decode client = .done (.error (.protocol "call before bootstrap"), client) := by
  obtain ⟨question, has⟩ := client
  cases h
  rfl

end Call

/-! ### `close` -/

theorem exec_close {client : RpcClient} {trace : List (Event (wire E))}
    {out : Except RpcError Unit × RpcClient} (h : Exec (RpcClient.close client) trace out) :
    client.hasBootstrap = false ∧ trace = [] ∨
      client.hasBootstrap = true ∧ ∃ result, trace = [wrote (.release 0 1) result] := by
  obtain ⟨question, has⟩ := client
  cases has with
  | false => exact Or.inl ⟨rfl, (exec_done_iff.mp h).1⟩
  | true =>
      obtain ⟨result, rest, rfl, hrest⟩ := exec_request_iff.mp h
      refine Or.inr ⟨rfl, result, ?_⟩
      match result with
      | .error e =>
          obtain rfl := (exec_done_iff.mp hrest).1
          rfl
      | .ok () =>
          obtain rfl := (exec_done_iff.mp hrest).1
          rfl

/-! ### What the operations ask of the stream -/

section Requests

variable {P : (wire E).Op → Prop}

/-- Once the question is sent an exchange reads, and settles the question. -/
theorem exchange_eq_request (question : UInt32) (message : Message)
    (decode : Root → Except RpcError γ) (release : γ → Bool) (conclude : γ → Except RpcError α)
    (client : RpcClient) (settle : γ → RpcClient) :
    ∃ next, exchange (E := E) question message decode release conclude client settle =
        .request (S := wire E) (.write message) next ∧
      ∀ P : (wire E).Op → Prop, P .read → (∀ release, P (.write (.finish question release))) →
        ∀ sent, (next sent).Requests P := by
  refine ⟨_, rfl, fun P hread hfinish sent => ?_⟩
  match sent with
  | .error e => exact trivial
  | .ok () =>
  refine ⟨hread, fun answer => ?_⟩
  match answer with
  | .error e => exact trivial
  | .ok root =>
  dsimp only
  cases decode root with
  | error e => exact trivial
  | ok outcome =>
      refine ⟨hfinish _, fun finish => ?_⟩
      match finish with
      | .error e => exact trivial
      | .ok () => exact trivial

theorem requests_exchange {question : UInt32} {message : Message}
    {decode : Root → Except RpcError γ} {release : γ → Bool} {conclude : γ → Except RpcError α}
    {client : RpcClient} {settle : γ → RpcClient} (hread : P .read) (hmessage : P (.write message))
    (hfinish : ∀ release, P (.write (.finish question release))) :
    (exchange question message decode release conclude client settle).Requests P := by
  obtain ⟨next, heq, hnext⟩ := exchange_eq_request (E := E) question message decode release conclude
    client settle
  rw [heq]
  exact ⟨hmessage, hnext P hread hfinish⟩

/-- An exchange sends its message once. -/
theorem once_exchange {question : UInt32} {message : Message}
    {decode : Root → Except RpcError γ} {release : γ → Bool} {conclude : γ → Except RpcError α}
    {client : RpcClient} {settle : γ → RpcClient} (hread : ¬ P .read)
    (hfinish : ∀ release, ¬ P (.write (.finish question release))) :
    (exchange question message decode release conclude client settle).Once P := by
  obtain ⟨next, heq, hnext⟩ := exchange_eq_request (E := E) question message decode release conclude
    client settle
  have hrest := hnext (fun op => ¬ P op) hread hfinish
  rw [heq]
  by_cases hmessage : P (.write message)
  · exact .inl ⟨hmessage, hrest⟩
  · exact .inr ⟨hmessage, fun sent => (hrest sent).once⟩

theorem requests_bootstrap (hread : P .read) (hboot : ∀ question, P (.write (.bootstrap question)))
    (hfinish : ∀ question release, P (.write (.finish question release))) (client : RpcClient) :
    (RpcClient.bootstrap (E := E) client).Requests P := by
  cases h : client.hasBootstrap with
  | true =>
      rw [bootstrap_twice h]
      exact trivial
  | false =>
      rw [bootstrap_eq h]
      exact requests_exchange hread (hboot _) (hfinish _)

theorem requests_call {importIdentifier : UInt32} {interfaceIdentifier : UInt64}
    {methodIdentifier : UInt16} {params : Payload} {decode : PayloadReader → Except RpcError α}
    (hread : P .read)
    (hcall : ∀ question, P (.write
      (.call question importIdentifier interfaceIdentifier methodIdentifier params)))
    (hfinish : ∀ question release, P (.write (.finish question release))) (client : RpcClient) :
    (RpcClient.call (E := E) importIdentifier interfaceIdentifier methodIdentifier (.ok params)
      decode client).Requests P := by
  cases h : client.hasBootstrap with
  | false =>
      rw [call_early _ _ _ _ h]
      exact trivial
  | true =>
      rw [call_eq _ _ _ _ h]
      exact requests_exchange hread (hcall _) (hfinish _)

theorem once_call {importIdentifier : UInt32} {interfaceIdentifier : UInt64}
    {methodIdentifier : UInt16} {params : Payload} {decode : PayloadReader → Except RpcError α}
    (hread : ¬ P .read) (hfinish : ∀ question release, ¬ P (.write (.finish question release)))
    (client : RpcClient) :
    (RpcClient.call (E := E) importIdentifier interfaceIdentifier methodIdentifier (.ok params)
      decode client).Once P := by
  cases h : client.hasBootstrap with
  | false =>
      rw [call_early _ _ _ _ h]
      exact trivial
  | true =>
      rw [call_eq _ _ _ _ h]
      exact once_exchange hread (hfinish _)

theorem requests_close (hrelease : P (.write (.release 0 1))) (client : RpcClient) :
    (RpcClient.close (E := E) client).Requests P := by
  obtain ⟨question, has⟩ := client
  cases has with
  | false => exact trivial
  | true =>
      refine ⟨hrelease, fun sent => ?_⟩
      match sent with
      | .error e => exact trivial
      | .ok () => exact trivial

end Requests

/-! ### What is decoded answers the question -/

theorem expectReturn_eq_ok {root : Root} {question : UInt32} {ret : ReturnReader} :
    expectReturn root question = .ok ret ↔
      root = .ok (.ok (.ret (.ok ret))) ∧ ret.answerId = question := by
  constructor
  · intro h
    obtain ⟨which, hwhich, h⟩ := bind_eq_ok.mp h
    have hroot := rootWhich_eq_ok.mp hwhich
    cases which with
    | ret found =>
        obtain ⟨answer, hanswer, h⟩ := bind_eq_ok.mp h
        by_cases hid : answer.answerId = question
        · rw [if_neg (not_not_intro hid)] at h
          cases Except.ok.inj h
          exact ⟨by rw [hroot, orCapnp_eq_ok.mp hanswer], hid⟩
        · rw [if_pos hid] at h
          cases h
    | abort found =>
        -- an abort is an error, whatever can be read of it
        obtain ⟨_, _, h⟩ := bind_eq_ok.mp h
        obtain ⟨_, _, h⟩ := bind_eq_ok.mp h
        obtain ⟨_, _, h⟩ := bind_eq_ok.mp h
        cases h
    | _ => cases h
  · rintro ⟨rfl, rfl⟩
    simp [expectReturn, rootWhich, orNotInSchema, orCapnp]

/-- What is asked of a return can be read: `results` of the payload, and the text of an
exception. -/
def ReturnReader.Legible (results : PayloadReader → Prop) (ret : ReturnReader) : Prop :=
  match ret.which with
  | .error _ => False
  | .ok (.results payload) => ∃ found, payload = .ok found ∧ results found
  | .ok (.exception exc) => ∃ found text, exc = .ok found ∧ found.reason = .ok (.ok text)
  | .ok _ => True

/-- The capability table can be read as far as the first descriptor. -/
def PayloadReader.HasLegibleCapTable (payload : PayloadReader) : Prop :=
  ∃ descs, payload.capTable = .ok descs ∧ ∀ desc ∈ descs.head?, ∃ which, desc = .ok which

theorem decodeBootstrap_answers {root : Root} {question : UInt32} {outcome : BootstrapOutcome}
    (h : decodeBootstrap root question = .ok outcome) : Answers root question := by
  obtain ⟨ret, hret, _⟩ := bind_eq_ok.mp h
  exact ⟨ret, expectReturn_eq_ok.mp hret⟩

theorem decodeCall_answers {root : Root} {question : UInt32}
    {decode : PayloadReader → Except RpcError α} {outcome : CallOutcome α}
    (h : decodeCall root question decode = .ok outcome) : Answers root question := by
  obtain ⟨ret, hret, _⟩ := bind_eq_ok.mp h
  exact ⟨ret, expectReturn_eq_ok.mp hret⟩

theorem decodeBootstrap_ok_iff {root : Root} {question : UInt32} {ret : ReturnReader}
    (h : expectReturn root question = .ok ret) :
    (∃ outcome, decodeBootstrap root question = .ok outcome) ↔
      ret.Legible PayloadReader.HasLegibleCapTable := by
  rw [decodeBootstrap, h, ok_bind, ReturnReader.Legible]
  cases ret.which with
  | error e => simp [orNotInSchema]
  | ok which =>
  rw [orNotInSchema, ok_bind]
  cases which with
  | results payload =>
      simp only [bind_eq_ok, orCapnp_eq_ok]
      constructor
      · rintro ⟨outcome, found, rfl, descs, hdescs, hfirst⟩
        refine ⟨found, rfl, descs, hdescs, fun desc hdesc => ?_⟩
        obtain ⟨rest, rfl⟩ := List.head?_eq_some_iff.mp hdesc
        obtain ⟨which, hwhich, _⟩ := bind_eq_ok.mp hfirst
        exact ⟨which, orNotInSchema_eq_ok.mp hwhich⟩
      · rintro ⟨found, rfl, descs, hdescs, hfirst⟩
        cases descs with
        | nil => exact ⟨.noCapability, found, rfl, [], hdescs, rfl⟩
        | cons desc rest =>
            obtain ⟨which, rfl⟩ := hfirst desc rfl
            cases which with
            | senderHosted _ => exact ⟨.capability, found, rfl, _, hdescs, rfl⟩
            | senderPromise _ => exact ⟨.capability, found, rfl, _, hdescs, rfl⟩
            | _ => exact ⟨.unexpectedKind, found, rfl, _, hdescs, rfl⟩
  | exception exc => simp [bind_eq_ok, toStr_eq_ok]
  | _ => exact iff_of_true ⟨_, rfl⟩ trivial

theorem decodeCall_ok_iff {root : Root} {question : UInt32} {ret : ReturnReader}
    {decode : PayloadReader → Except RpcError α} (h : expectReturn root question = .ok ret) :
    (∃ outcome, decodeCall root question decode = .ok outcome) ↔
      ret.Legible fun payload => ∃ value, decode payload = .ok value := by
  rw [decodeCall, h, ok_bind, ReturnReader.Legible]
  cases ret.which with
  | error e => simp [orNotInSchema]
  | ok which =>
  rw [orNotInSchema, ok_bind]
  cases which with
  | results payload => simp [bind_eq_ok]
  | exception exc => simp [bind_eq_ok, toStr_eq_ok]
  | _ => exact iff_of_true ⟨_, rfl⟩ trivial

/-- A value comes from the payload of a return that answers the question. -/
theorem decodeCall_value {root : Root} {question : UInt32}
    {decode : PayloadReader → Except RpcError α} {value : α}
    (h : decodeCall root question decode = .ok (.value value)) :
    ∃ (ret : ReturnReader) (payload : PayloadReader), root = .ok (.ok (.ret (.ok ret))) ∧
      ret.answerId = question ∧ ret.which = .ok (.results (.ok payload)) ∧
      decode payload = .ok value := by
  obtain ⟨ret, hret, h⟩ := bind_eq_ok.mp h
  obtain ⟨hroot, hid⟩ := expectReturn_eq_ok.mp hret
  obtain ⟨which, hwhich, h⟩ := bind_eq_ok.mp h
  have hwhich' := orNotInSchema_eq_ok.mp hwhich
  cases which with
  | results payload =>
      obtain ⟨found, hfound, hvalue⟩ := bind_eq_ok.mp h
      obtain ⟨value', hdecode, heq⟩ := bind_eq_ok.mp hvalue
      cases Except.ok.inj heq
      rw [orCapnp_eq_ok.mp hfound] at hwhich'
      exact ⟨ret, found, hroot, hid, hwhich', hdecode⟩
  | exception exc =>
      obtain ⟨_, _, h⟩ := bind_eq_ok.mp h
      obtain ⟨_, _, h⟩ := bind_eq_ok.mp h
      cases h
  | _ => cases h

end Libcfd.Rpc
