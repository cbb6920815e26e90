import Libcfd.Edge.Serve.Layout

/-!
# The ways a stream can go

Serving a stream is what comes before the first byte that is written (`wayOf`), and the rest, which
depends on nothing else (`conclude`). A half of the stream is settled by what the rest asks for, and
which way asks for what is said once (`requests_of_conclude`).
-/

namespace Libcfd.Edge.Serve

open Libcfd.Rpc Libcfd.Origin Libcfd.Stream

/-! ## The ways of a stream -/

/-- What a stream turns out to be for, and what its handler answers. -/
inductive Way (H : Http) (S : Type) where
  -- no signature, version or `ConnectRequest` to go by, or a destination that is not a URI
  | refused (e : Error)
  | rpc
  -- there is no handler, or it failed
  | failed (message : String)
  | responds (response : Response H)
  | connects (response : ConnectResponse) (stream : S)

section Task

variable {H : Http} {S : Type} {T : SegmentTable} (C : QuicCapnp T)

def Way.answered : Except String (Response H) → Way H S
  | .error message => .failed message
  | .ok response => .responds response

def Way.ofConnection : Except String (ConnectResponse × S) → Way H S
  | .error message => .failed message
  | .ok (response, stream) => .connects response stream

def wayOfHttp (origin : Origin H S) (connect : ConnectRequest) : Serving H S (Way H S) :=
  match buildRequest H connect with
  | .error e => .done (.refused e)
  | .ok request =>
      let request := { request with body := .stream }
      asking (.http request) fun _ => (origin.http request).bind fun answer =>
        .done (.answered answer)

def wayOfWebsocket (origin : Origin H S) (connect : ConnectRequest) : Serving H S (Way H S) :=
  if origin.websocket then
    match buildRequest H connect with
    | .error e => .done (.refused e)
    | .ok request =>
        asking (.websocket request) fun answer =>
          .done (.ofConnection (answer.map fun connection =>
            (success connection.response, connection.origin)))
  else .done (.failed "no websocket origin handler")

def wayOfTcp (origin : Origin H S) (connect : ConnectRequest) : Serving H S (Way H S) :=
  if origin.tcp then
    asking (.tcp (.tcp H connect.destination)) fun answer =>
      .done (.ofConnection (answer.map fun stream => (⟨"", []⟩, stream)))
  else .done (.failed "no tcp origin handler")

/-- `serve_stream` up to the first byte it writes. -/
def wayOf (origin : Origin H S) (id : Nat) : Serving H S (Way H S) :=
  (openStream C id).bind fun
    | .error e => .done (.refused e)
    | .ok .rpc => .done .rpc
    | .ok (.data connect) =>
        match connect.connectionType with
        | .http => wayOfHttp origin connect
        | .websocket => wayOfWebsocket origin connect
        | .tcp => wayOfTcp origin connect

/-- The rest of `serve_stream`. -/
def Way.conclude : Way H S → Serving H S (Except Error Unit)
  | .refused e => .done (.error e)
  | .rpc => asking .serveRpc .done
  | .failed message => writeStreamError C message
  | .responds response => respondHttp C (.ok response)
  | .connects response stream => respondStream C (.ok (response, stream))

end Task

open Program

section Way

variable {H : Http} {S : Type} {T : SegmentTable} {C : QuicCapnp T} {origin : Origin H S}

theorem asking_congr {α : Type} {op : (serving H S).Op}
    {next next' : (serving H S).Reply op → Serving H S α} (h : ∀ reply, next reply = next' reply) :
    asking op next = asking op next' :=
  congrArg (asking op) (funext h)

theorem handleData_eq (connect : ConnectRequest) :
    handleData C origin connect =
      (match connect.connectionType with
        | .http => wayOfHttp origin connect
        | .websocket => wayOfWebsocket origin connect
        | .tcp => wayOfTcp origin connect).bind (Way.conclude C) := by
  unfold handleData
  cases connect.connectionType with
  | http =>
      dsimp only
      unfold handleQuicHttp wayOfHttp
      cases buildRequest H connect with
      | error e => rfl
      | ok call =>
          refine asking_congr fun _ => ?_
          rw [bind_assoc]
          congr 1
          funext answer
          cases answer <;> rfl
  | websocket =>
      dsimp only
      unfold handleQuicWebsocket wayOfWebsocket
      split
      · cases buildRequest H connect with
        | error e => rfl
        | ok call =>
            refine asking_congr fun answer => ?_
            cases answer <;> rfl
      · rfl
  | tcp =>
      dsimp only
      unfold handleQuicTcp wayOfTcp
      split
      · refine asking_congr fun answer => ?_
        cases answer <;> rfl
      · rfl

theorem serveStream_eq (origin : Origin H S) (id : Nat) :
    serveStream C origin id = (wayOf C origin id).bind (Way.conclude C) := by
  unfold serveStream wayOf
  rw [bind_assoc]
  congr 1
  funext opened
  match opened with
  | .error e => rfl
  | .ok .rpc => rfl
  | .ok (.data connect) => exact handleData_eq connect

/-! ## What the ways ask for -/

/-- All that was asked for, without the replies. -/
def requested (trace : List (Program.Event (signature UInt8 IoError (serving H S)))) :
    List (ServeOp H S) :=
  (asked trace).map (·.1)

theorem requested_append (xs ys : List (Program.Event (signature UInt8 IoError (serving H S)))) :
    requested (xs ++ ys) = requested xs ++ requested ys :=
  (congrArg _ asked_append).trans List.map_append

theorem requested_of_asked {trace : List (Program.Event (signature UInt8 IoError (serving H S)))}
    (h : asked trace = []) : requested trace = [] := by
  rw [requested, h]
  rfl

/-! ### Before the first byte is written -/

/-- Reads, and invocations. -/
def IsOpening : Op UInt8 (serving H S) → Prop
  | .pollRead _ => True
  | .pollWrite _ => False
  | .effect op => ServeOp.IsInvocation op

theorem IsOpening.of_isRead {op : Op UInt8 (serving H S)} (h : op.IsRead) : IsOpening op := by
  cases op with
  | pollRead room => trivial
  | _ => exact h.elim

theorem makes_bind {α β : Type} {p : Io (serving H S) α} {f : α → Io (serving H S) β}
    (hp : Makes Op.IsRead p.run) (hf : ∀ a, Makes Op.IsRead (f a).run) :
    Makes Op.IsRead (p >>= f).run := by
  rw [Async.run_bind]
  refine hp.bind fun result => ?_
  cases result with
  | ok a => exact hf a
  | error e => trivial

theorem makes_lift {α : Type} (result : Except RpcError α) :
    Makes Op.IsRead (liftM result : Io (serving H S) α).run :=
  trivial

theorem makes_readLengths (count : Nat) (state : T.Builder × Nat) :
    Makes Op.IsRead (readLengths (E := serving H S) T count state).run := by
  rw [readLengths]
  generalize restOfHeader count = size
  split
  · refine makes_bind (makes_lift size) fun size => ?_
    exact makes_bind (makes_readExactFrom [] size) fun sizes => makes_lift _
  · trivial

theorem makes_readMessage : Makes Op.IsRead (readMessage (E := serving H S) T).run := by
  rw [readMessage]
  refine makes_bind (makes_readExactFrom [] 8) fun header => ?_
  generalize readHeader header = first
  refine makes_bind (makes_lift first) fun first => ?_
  refine makes_bind (makes_lift _) fun state => ?_
  refine makes_bind (makes_readLengths first.1 state) fun last => ?_
  exact makes_bind (makes_readExactFrom [] _) fun bytes => trivial

theorem makes_openStream (id : Nat) : Makes Op.IsRead (openStream (H := H) (S := S) C id) := by
  refine makes_question (makes_readExactFrom [] 6) fun signature => ?_
  split
  · trivial
  · split
    · trivial
    · refine makes_question (makes_readExactFrom [] 2) fun version => ?_
      split
      · trivial
      · refine makes_question ?_ fun connect => trivial
        exact makes_bind makes_readMessage fun _ => makes_lift _

theorem makes_wayOf (id : Nat) : Makes IsOpening (wayOf C origin id) := by
  refine ((makes_openStream id).mono fun _ => IsOpening.of_isRead).bind fun opened => ?_
  match opened with
  | .error e => trivial
  | .ok .rpc => trivial
  | .ok (.data connect) =>
      dsimp only
      cases connect.connectionType with
      | http =>
          dsimp only
          unfold wayOfHttp
          cases buildRequest H connect with
          | error e => trivial
          | ok call =>
              refine ⟨trivial, fun _ => ?_⟩
              exact ((origin.http_reads _).mono fun _ => IsOpening.of_isRead).bind fun _ => trivial
      | websocket =>
          dsimp only
          unfold wayOfWebsocket
          split
          · cases buildRequest H connect with
            | error e => trivial
            | ok call => exact ⟨trivial, fun _ => trivial⟩
          · trivial
      | tcp =>
          dsimp only
          unfold wayOfTcp
          split
          · exact ⟨trivial, fun _ => trivial⟩
          · trivial

/-- Nothing is settled before the first byte is written. -/
theorem isInvocation_of_wayOf {id : Nat} {way : Way H S}
    {trace : List (Program.Event (signature UInt8 IoError (serving H S)))}
    (h : Exec (wayOf C origin id) trace way) : ∀ op ∈ requested trace, ServeOp.IsInvocation op := by
  intro op hop
  obtain ⟨event, hevent, rfl⟩ := List.mem_map.mp hop
  obtain ⟨⟨op, reply⟩, hmem, heq⟩ := List.mem_filterMap.mp hevent
  cases op with
  | effect op =>
      cases heq
      exact exec_makes (makes_wayOf id) h _ hmem
  | _ => cases heq

/-! ### From the first byte on -/

theorem writes_writeAll {E : Signature} (buffer : List UInt8) :
    Writes (writeAll (E := E) buffer).run := by
  induction hsize : buffer.length using Nat.strongRecOn generalizing buffer with
  | ind size ih =>
      by_cases hne : buffer = []
      · rw [hne, run_writeAll_nil]
        trivial
      obtain ⟨next, heq, herror, hzero, hsome⟩ := run_writeAll (E := E) hne
      rw [heq]
      intro reply
      match reply with
      | .error e => exact .inr ⟨_, herror e⟩
      | .ok ⟨0, h⟩ => exact .inr ⟨_, hzero h⟩
      | .ok ⟨n + 1, h⟩ =>
          have hlength : 0 < buffer.length := List.length_pos_iff.mpr hne
          have hdrop : (buffer.drop (n + 1)).length < size := by
            rw [List.length_drop]
            omega
          refine .inl ⟨⟨n + 1, h, rfl, nofun⟩, ?_⟩
          rw [hsome (n + 1) h (Nat.succ_pos n)]
          exact ih _ hdrop _ rfl

theorem writes_question {α β : Type} {convert : RpcError → Error} {p : Io (serving H S) α}
    {f : α → Serving H S (Except Error β)} (hp : Writes p.run) (hf : ∀ a, Writes (f a)) :
    Writes (question convert p f) :=
  hp.bind hf fun e => ⟨convert e, rfl⟩

theorem writes_writeResponsePreamble (response : ConnectResponse) :
    Writes (writeResponsePreamble (H := H) (S := S) C response) := by
  refine writes_question (writes_writeAll _) fun _ => ?_
  refine writes_question (writes_writeAll _) fun _ => ?_
  exact writes_question (writes_writeAll _) fun _ => trivial

theorem writes_copy {E : Signature} (body : Body) : Writes (copy (E := E) body).run := by
  have hpieces : ∀ pieces, Writes (copyPieces (E := E) pieces).run := by
    intro pieces
    induction pieces with
    | nil => trivial
    | cons piece pieces ih => exact (writes_writeAll piece).bind (fun _ => ih) fun e => ⟨e, rfl⟩
  refine (hpieces body.pieces).bind (fun _ => ?_) fun e => ⟨e, rfl⟩
  obtain ⟨_, ending, _⟩ := body
  cases ending <;> trivial

section Exec

variable {trace : List (Program.Event (signature UInt8 IoError (serving H S)))}
  {result : Except Error Unit}

theorem exec_writeResponsePreamble {response : ConnectResponse}
    (h : Exec (writeResponsePreamble C response) trace result) :
    requested trace = [] ∧ (result = .ok () ↔ Accepts trace) := by
  obtain ⟨hasked, haccepts⟩ := exec_writes (writes_writeResponsePreamble response) h
  refine ⟨requested_of_asked hasked, haccepts (), fun htaken => ?_⟩
  exact (exec_of_sends_done (coherent_writeResponsePreamble response)
    (sends_writeResponsePreamble response) h htaken).1

theorem exec_copy {body : Body} {ended : Except RpcError Unit}
    (h : Exec (copy body).run trace ended) :
    requested trace = [] ∧ (ended = .ok () ↔ Accepts trace ∧ body.ending = .ok ()) := by
  obtain ⟨hasked, haccepts⟩ := exec_writes (writes_copy body) h
  have hcopied : Accepts trace → ended = copied body := fun htaken =>
    (exec_of_sends_done (coherent_copy body) (sends_copy body) h htaken).1
  refine ⟨requested_of_asked hasked, fun hok => ?_, fun ⟨htaken, hending⟩ => ?_⟩
  · have heq := hcopied (haccepts () hok)
    rw [hok, copied] at heq
    refine ⟨haccepts () hok, ?_⟩
    cases hending : body.ending with
    | ok => rfl
    | error e =>
        rw [hending] at heq
        cases heq
  · rw [hcopied htaken, copied, hending]

/-- What is left of the request is drained: the whole response went out. -/
def Way.IsDrained (trace : List (Program.Event (signature UInt8 IoError (serving H S)))) :
    Way H S → Prop
  | .responds response => Accepts trace ∧ response.body.ending = .ok ()
  | _ => False

/-- The task itself finishes the write side, or resets it. -/
def Way.IsClosed (trace : List (Program.Event (signature UInt8 IoError (serving H S)))) :
    Way H S → Prop
  -- `write_stream_error` resets behind what it wrote
  | .failed _ => Accepts trace
  | .responds _ => True
  -- `pump` may finish it, and a preamble that fails is left at that
  | .connects _ _ => False
  | .refused _ | .rpc => False

/-- What a way asks for is what the two say. -/
structure Way.Requests (way : Way H S)
    (trace : List (Program.Event (signature UInt8 IoError (serving H S)))) : Prop where
  drain : .drainUnread ∈ requested trace ↔ way.IsDrained trace
  close : .finish ∈ requested trace ∨ .cancelWrite ∈ requested trace ↔ way.IsClosed trace

theorem requested_concat {trace : List (Program.Event (signature UInt8 IoError (serving H S)))}
    (h : requested trace = []) (op : ServeOp H S) (reply : (serving H S).Reply op) :
    requested (trace ++ [⟨.effect op, reply⟩]) = [op] := by
  rw [requested_append, h]
  rfl

theorem exec_writeStreamError_requests {message : String}
    (h : Exec (writeStreamError C message) trace result) :
    (Way.failed message : Way H S).Requests trace := by
  obtain ⟨first, written, second, rfl, hwrite, hrest⟩ := exec_bind_iff.mp h
  obtain ⟨hfirst, hwritten⟩ := exec_writeResponsePreamble hwrite
  cases written with
  | error e =>
      obtain ⟨rfl, rfl⟩ := exec_done_iff.mp hrest
      rw [List.append_nil]
      refine ⟨by simp [hfirst, Way.IsDrained], ?_⟩
      have hrefused : ¬ Accepts first := fun htaken => nomatch hwritten.mpr htaken
      simp [hfirst, Way.IsClosed, hrefused]
  | ok =>
      obtain ⟨⟨⟩, _, rfl, hdone⟩ := exec_request_iff.mp hrest
      obtain ⟨rfl, rfl⟩ := exec_done_iff.mp hdone
      have htaken : Accepts (first ++ [⟨.effect .cancelWrite, ()⟩]) :=
        accepts_append_iff.mpr ⟨hwritten.mp rfl, trivial⟩
      have hrequested := requested_concat hfirst .cancelWrite ()
      exact ⟨by simp [hrequested, Way.IsDrained], by simp [hrequested, Way.IsClosed, htaken]⟩

theorem exec_respondHttp_requests {response : Response H}
    (h : Exec (respondHttp C (.ok response)) trace result) :
    (Way.responds response : Way H S).Requests trace := by
  obtain ⟨first, written, second, rfl, hwrite, hrest⟩ := exec_bind_iff.mp h
  obtain ⟨hfirst, hwritten⟩ := exec_writeResponsePreamble hwrite
  cases written with
  | error e =>
      obtain ⟨⟨⟩, _, rfl, hdone⟩ := exec_request_iff.mp hrest
      obtain ⟨rfl, rfl⟩ := exec_done_iff.mp hdone
      have hrefused : ¬ Accepts (first ++ [⟨.effect .cancelWrite, ()⟩]) := fun htaken =>
        nomatch hwritten.mpr (accepts_append_iff.mp htaken).1
      have hrequested := requested_concat hfirst .cancelWrite ()
      refine ⟨?_, ?_⟩
      · simp [hrequested, Way.IsDrained, hrefused]
      · simp [hrequested, Way.IsClosed]
  | ok =>
      obtain ⟨copying, ended, last, rfl, hcopy, hlast⟩ := exec_bind_iff.mp hrest
      obtain ⟨hcopying, hended⟩ := exec_copy hcopy
      have hbody : requested (first ++ copying) = [] := by
        rw [requested_append, hfirst, hcopying]
        rfl
      cases ended with
      | error e =>
          obtain ⟨⟨⟩, _, rfl, hdone⟩ := exec_request_iff.mp hlast
          obtain ⟨rfl, rfl⟩ := exec_done_iff.mp hdone
          rw [← List.append_assoc]
          have hfailed : ¬ (Accepts (first ++ copying ++ [⟨.effect .cancelWrite, ()⟩]) ∧
              response.body.ending = .ok ()) := by
            rintro ⟨htaken, hending⟩
            have hall := accepts_append_iff.mp (accepts_append_iff.mp htaken).1
            exact nomatch hended.mpr ⟨hall.2, hending⟩
          have hrequested := requested_concat hbody .cancelWrite ()
          refine ⟨iff_of_false ?_ hfailed, iff_of_true (.inr ?_) trivial⟩
          · rw [hrequested]
            simp
          · rw [hrequested]
            simp
      | ok =>
          obtain ⟨⟨⟩, _, rfl, hfinish⟩ := exec_request_iff.mp hlast
          obtain ⟨⟨⟩, _, rfl, hdone⟩ := exec_request_iff.mp hfinish
          obtain ⟨rfl, rfl⟩ := exec_done_iff.mp hdone
          rw [← List.append_assoc]
          obtain ⟨htaken, hending⟩ := hended.mp rfl
          have hall : Accepts (first ++ copying ++
              [⟨.effect .drainUnread, ()⟩, ⟨.effect .finish, ()⟩]) :=
            accepts_append_iff.mpr ⟨accepts_append_iff.mpr ⟨hwritten.mp rfl, htaken⟩, trivial⟩
          have hrequested : requested (first ++ copying ++
              [⟨.effect .drainUnread, ()⟩, ⟨.effect .finish, ()⟩]) = [.drainUnread, .finish] := by
            rw [requested_append, hbody]
            rfl
          refine ⟨iff_of_true ?_ ⟨hall, hending⟩, iff_of_true (.inl ?_) trivial⟩
          · rw [hrequested]
            simp
          · rw [hrequested]
            simp

theorem exec_respondStream_requests {response : ConnectResponse} {stream : S}
    (h : Exec (respondStream C (.ok (response, stream))) trace result) :
    (Way.connects response stream : Way H S).Requests trace := by
  obtain ⟨first, written, second, rfl, hwrite, hrest⟩ := exec_bind_iff.mp h
  obtain ⟨hfirst, -⟩ := exec_writeResponsePreamble hwrite
  cases written with
  | error e =>
      obtain ⟨rfl, rfl⟩ := exec_done_iff.mp hrest
      rw [List.append_nil]
      exact ⟨by simp [hfirst, Way.IsDrained], by simp [hfirst, Way.IsClosed]⟩
  | ok =>
      obtain ⟨outcome, _, rfl, hdone⟩ := exec_request_iff.mp hrest
      obtain ⟨rfl, rfl⟩ := exec_done_iff.mp hdone
      have hrequested := requested_concat hfirst (.pump stream) result
      exact ⟨by simp [hrequested, Way.IsDrained], by simp [hrequested, Way.IsClosed]⟩

/-- The rest of `serve_stream` asks for no more and no less. -/
theorem requests_of_conclude {way : Way H S} (h : Exec (way.conclude C) trace result) :
    way.Requests trace := by
  cases way with
  | refused e =>
      obtain ⟨rfl, rfl⟩ := exec_done_iff.mp h
      have hnone := @requested_of_asked H S [] rfl
      exact ⟨by simp [hnone, Way.IsDrained], by simp [hnone, Way.IsClosed]⟩
  | rpc =>
      obtain ⟨outcome, _, rfl, hdone⟩ := exec_request_iff.mp h
      obtain ⟨rfl, rfl⟩ := exec_done_iff.mp hdone
      have hrequested : requested [⟨.effect (.serveRpc : ServeOp H S), result⟩] = [.serveRpc] := rfl
      exact ⟨by simp [hrequested, Way.IsDrained], by simp [hrequested, Way.IsClosed]⟩
  | failed message => exact exec_writeStreamError_requests h
  | responds response => exact exec_respondHttp_requests h
  | connects response stream => exact exec_respondStream_requests h

end Exec

/-! ## Traces -/

section Goes

variable {id : Nat} {result : Except Error Unit}

/-- `trace` serves the stream in this way, and `second` is what follows once the way is clear. -/
def Goes (C : QuicCapnp T) (origin : Origin H S) (id : Nat)
    (trace second : List (Program.Event (signature UInt8 IoError (serving H S)))) (way : Way H S)
    (result : Except Error Unit) : Prop :=
  ∃ first, trace = first ++ second ∧ Exec (wayOf C origin id) first way ∧
    Exec (way.conclude C) second result

theorem exists_goes
    {trace : List (Program.Event (signature UInt8 IoError (serving H S)))}
    (h : Exec (serveStream C origin id) trace result) :
    ∃ second way, Goes C origin id trace second way result := by
  rw [serveStream_eq, exec_bind_iff] at h
  obtain ⟨first, way, second, htrace, hway, hconclude⟩ := h
  exact ⟨second, way, first, htrace, hway, hconclude⟩

/-- What settles a stream is asked for once its way is clear. -/
theorem requests_of_goes
    {trace second : List (Program.Event (signature UInt8 IoError (serving H S)))} {way : Way H S}
    (h : Goes C origin id trace second way result) :
    (.drainUnread ∈ requested trace ↔ way.IsDrained second) ∧
      (.finish ∈ requested trace ∨ .cancelWrite ∈ requested trace ↔ way.IsClosed second) := by
  obtain ⟨first, rfl, hway, hconclude⟩ := h
  have hfirst := isInvocation_of_wayOf hway
  have hrequests := requests_of_conclude hconclude
  rw [requested_append, List.mem_append, List.mem_append, List.mem_append,
    or_iff_right (hfirst .drainUnread), or_iff_right (hfirst .finish),
    or_iff_right (hfirst .cancelWrite)]
  exact ⟨hrequests.drain, hrequests.close⟩

/-- The handler of an HTTP request that opens as it should decides on the way. -/
theorem exec_wayOf_http (hC : C.Lawful) {connect : ConnectRequest} {frame : Frame}
    (hframe : C.serializeRequest connect = frame.bytes) (htype : connect.connectionType = .http)
    (hparse : ∃ uri, H.uriTryFrom connect.destination = .ok uri) {way : Way H S}
    {first : List (Program.Event (signature UInt8 IoError (serving H S)))} {body rest : List UInt8}
    (hway : Exec (wayOf C origin id) first way) (hdelivers : Delivers (opening frame ++ body) first rest) :
    ∃ call polls answer, Exec (origin.http call) polls answer ∧ way = .answered answer := by
  obtain ⟨framing, opened, handling, rfl, hopen, hhandle⟩ := exec_bind_iff.mp hway
  obtain ⟨middle, hfirst, -⟩ := delivers_append_iff.mp hdelivers
  obtain ⟨rfl, -⟩ := exec_of_receives_done (coherent_openStream id)
    (receives_openStream hC hframe id) hopen hfirst
  obtain ⟨uri, huri⟩ := hparse
  obtain ⟨call, hcall⟩ := buildRequest_eq_ok huri
  simp only [htype, wayOfHttp, hcall] at hhandle
  obtain ⟨⟨⟩, _, rfl, hanswer⟩ := exec_request_iff.mp hhandle
  obtain ⟨polls, answer, after, rfl, hread, hafter⟩ := exec_bind_iff.mp hanswer
  obtain ⟨rfl, rfl⟩ := exec_done_iff.mp hafter
  exact ⟨_, polls, answer, hread, rfl⟩

/-- Nothing is written before the way is clear. -/
theorem sent_of_wayOf {way : Way H S}
    {trace : List (Program.Event (signature UInt8 IoError (serving H S)))}
    (h : Exec (wayOf C origin id) trace way) : sent trace = [] := by
  have hall := exec_makes (makes_wayOf id) h
  apply List.flatMap_eq_nil_iff.mpr
  intro ⟨op, reply⟩ hevent
  cases op with
  | pollWrite symbols => exact (hall _ hevent).elim
  | _ => rfl

end Goes

end Way

end Libcfd.Edge.Serve
