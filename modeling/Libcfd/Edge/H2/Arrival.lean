import Libcfd.Edge.H2.Reserved
import Libcfd.Edge.H2.Streams

/-!
# What arrives of a response

On a connection that takes what it is given the edge gets the handler's response, whatever pieces its
body comes in and however the flow control cuts them: the status, but for 101, the headers that are
not reserved, the body, and the end of the stream if the body has one. A handler that fails is a
response too, with its message for a body.
-/

namespace Libcfd.Edge.H2

open Libcfd.Program Libcfd.Stream Libcfd.Origin Libcfd.Rpc

/-! ## The edge's side -/

/-- What the edge makes of the frames of a stream. -/
structure Arrived (H : Http) where
  status : UInt16
  headers : H.HeaderMap
  body : List UInt8
  ended : Bool

def H2Frame.bytes {H : Http} : H2Frame H → List UInt8
  | .headers .. => []
  | .data bytes _ => bytes

def H2Frame.ends {H : Http} : H2Frame H → Bool
  | .headers _ _ endOfStream => endOfStream
  | .data _ endOfStream => endOfStream

def arrived {H : Http} : List (H2Frame H) → Option (Arrived H)
  | .headers status headers endOfStream :: rest =>
      some ⟨status, headers, rest.flatMap H2Frame.bytes, endOfStream || rest.any H2Frame.ends⟩
  | _ => none

/-- A connection that takes what it is given, and assigns no capacity of nothing. -/
structure RespondSide.IsOpen {H : Http} {S : Type} (F : RespondSide H S) : Prop where
  sendResponse : ∀ status headers endOfStream s,
    (F.sendResponse status headers endOfStream s).1 = .ok ()
  sendData : ∀ data endOfStream s, (F.sendData data endOfStream s).1 = .ok ()
  capacity : ∀ s, (F.capacity s).1 ≠ 0 → 0 < (F.capacity (F.capacity s).2).1
  pollCapacity : ∀ s, (F.pollCapacity s).1 = .pending ∨
    ∃ n, (F.pollCapacity s).1 = .assigned n ∧ 0 < (F.capacity (F.pollCapacity s).2).1

section Open

variable {H : Http} {S S' : Type} {F : RespondSide H S} {w w' : Outgoing H S}

/-- A write that is ready has taken something, if there was something. -/
theorem taken_of_pollWrite (hF : F.IsOpen) (hopen : w.closed = false) {buffer : List UInt8}
    {result : Except WriteError Nat}
    (h : w.pollWrite F.recording buffer = (some result, w')) :
    ∃ n, result = .ok n ∧ (n = 0 → buffer = []) := by
  unfold SendStreamWriter.pollWrite at h
  rw [if_neg (by rw [hopen]; exact Bool.false_ne_true)] at h
  by_cases hempty : buffer = []
  · rw [if_pos hempty] at h
    cases h
    exact ⟨0, rfl, fun _ => hempty⟩
  rw [if_neg hempty] at h
  -- there is capacity where the buffer is cut, or the poll is pending
  have hwait : (w.waitCapacity F.recording buffer.length).1 = none ∨
      (w.waitCapacity F.recording buffer.length).1 = some (.ok ()) ∧
        0 < (F.capacity (w.waitCapacity F.recording buffer.length).2.send.1).1 := by
    unfold SendStreamWriter.waitCapacity RespondSide.recording
    dsimp only
    split
    · rcases hpoll : F.pollCapacity
        (F.reserveCapacity buffer.length (F.capacity w.send.1).2) with ⟨polled, send⟩
      have hcapacity := hF.pollCapacity (F.reserveCapacity buffer.length (F.capacity w.send.1).2)
      rw [hpoll] at hcapacity
      rcases hcapacity with hpending | ⟨n, hassigned, hpos⟩
      · obtain rfl : polled = .pending := hpending
        exact .inl rfl
      · obtain rfl : polled = .assigned n := hassigned
        exact .inr ⟨rfl, hpos⟩
    · next hne => exact .inr ⟨rfl, hF.capacity _ hne⟩
  rcases hwaited : w.waitCapacity F.recording buffer.length with ⟨_ | e | _, cut⟩
  · rw [hwaited] at h
    cases h
  · rw [hwaited] at hwait
    rcases hwait with hnone | ⟨hsome, _⟩
    · cases hnone
    · cases hsome
  · rw [hwaited] at hwait h
    obtain ⟨_, hpos⟩ := hwait.resolve_left (fun hnone => by cases hnone)
    have hpart : cut.sendPart F.recording buffer = (some result, w') := h
    rcases SendStreamWriter.sendPart_cases F.recording buffer cut with
      ⟨_, hwritten, _⟩ | ⟨⟨e, hrefused⟩, _, _⟩
    · rw [hpart] at hwritten
      refine ⟨_, Option.some.inj hwritten, fun hzero => ?_⟩
      have hsome : 0 < (F.recording.capacity cut.send).1 := hpos
      apply List.length_eq_zero_iff.mp
      omega
    · exact absurd (hrefused.symm.trans (hF.sendData _ _ _)) (fun h => by cases h)

theorem taken_of_writesTo (hF : F.IsOpen) {buffer : List UInt8} {result : Except WriteError Nat}
    (h : WritesTo F buffer w result w') (hopen : w.closed = false) :
    ∃ n, result = .ok n ∧ (n = 0 → buffer = []) := by
  induction h with
  | ready h => exact taken_of_pollWrite hF hopen h
  | @pending w w' w'' result h _ ih =>
      have hqueued := pollWrite_queued (F := F) buffer w
      rw [h] at hqueued
      exact ih (hqueued.1.trans hopen)

/-- A stream that is open is ended. -/
theorem pollClose_queued (hF : F.IsOpen) (hopen : w.closed = false) :
    (w.pollClose F.recording).queued = w.queued ++ [.data [] true] := by
  have hsent : ∀ w : Outgoing H S, (w.sendData F.recording [] true).1 = .ok () := by
    intro w
    unfold SendStreamWriter.sendData RespondSide.recording
    rcases hdata : F.sendData [] true w.send.1 with ⟨result, send⟩
    have htaken := hF.sendData [] true w.send.1
    rw [hdata] at htaken
    obtain rfl : result = .ok () := htaken
    simp only [hdata]
  obtain ⟨-, hqueued⟩ := sendData_queued (F := F) [] true { w with closed := true }
  rw [hsent] at hqueued
  unfold SendStreamWriter.pollClose
  rw [if_neg (by rw [hopen]; exact Bool.false_ne_true)]
  exact hqueued

/-- While a body is written, what is queued is what is taken of it, and nothing is refused. -/
theorem leads_writing (hF : F.IsOpen) {trace : List (StreamEvent H S')}
    (hqueues : Leads (Queues F) w trace w') (hopen : w.closed = false) (hasked : asked trace = []) :
    Accepts trace ∧ w'.closed = false ∧ ∃ pieces : List (List UInt8),
      w'.queued = w.queued ++ pieces.map (fun piece => .data piece false) ∧
        pieces.flatten = sent trace := by
  induction hqueues with
  | nil w => exact ⟨trivial, hopen, [], (List.append_nil _).symm, rfl⟩
  | @cons w w₁ w₂ event trace hstep _ ih =>
      obtain ⟨op, reply⟩ := event
      cases op with
      | pollRead room =>
          obtain rfl : w₁ = w := hstep
          exact ih hopen hasked
      | effect op => cases hasked
      | pollWrite buffer =>
          obtain ⟨result, hwrites, hreply⟩ := hstep
          obtain ⟨n, rfl, hzero⟩ := taken_of_writesTo hF hwrites hopen
          obtain ⟨hclosed, hqueued⟩ := hwrites.queued
          obtain ⟨haccepts, hstill, pieces, hpieces, hflatten⟩ := ih (hclosed.trans hopen) hasked
          cases reply with
          | error e =>
              obtain ⟨kind, hkind⟩ := hreply
              cases hkind
          | ok m =>
              obtain rfl : n = m.val := Except.ok.inj hreply
              refine ⟨⟨⟨m.val, m.property, rfl, hzero⟩, haccepts⟩, hstill, ?_⟩
              rcases hqueued with ⟨hbuffer, _, hsame⟩ | ⟨_, _, hmore⟩
              · refine ⟨pieces, ?_, ?_⟩
                · rw [hpieces, hsame]
                · rw [hflatten]
                  have hnothing : buffer.take m.val = [] := by simp [hbuffer]
                  show sent trace = buffer.take m.val ++ sent trace
                  rw [hnothing, List.nil_append]
              · refine ⟨buffer.take m.val :: pieces, ?_, ?_⟩
                · rw [hpieces, hmore, List.append_assoc]
                  rfl
                · rw [List.flatten_cons, hflatten]
                  rfl

theorem flatMap_bytes_data (pieces : List (List UInt8)) :
    (pieces.map fun piece => (.data piece false : H2Frame H)).flatMap H2Frame.bytes =
      pieces.flatten := by
  rw [List.flatMap_map]
  exact List.flatMap_id

theorem any_ends_data (pieces : List (List UInt8)) :
    (pieces.map fun piece => (.data piece false : H2Frame H)).any H2Frame.ends = false := by
  rw [List.any_map, List.any_eq_false]
  intro piece _ h
  cases h

/-- What the edge makes of a response that has not been ended. -/
theorem arrived_begun (status : UInt16) (headers : H.HeaderMap) (pieces : List (List UInt8)) :
    arrived (begun status headers pieces) = some ⟨status, headers, pieces.flatten, false⟩ := by
  rw [begun, arrived, flatMap_bytes_data, any_ends_data]
  rfl

theorem arrived_ended (status : UInt16) (headers : H.HeaderMap) (pieces : List (List UInt8)) :
    arrived (begun status headers pieces ++ [.data [] true]) =
      some ⟨status, headers, pieces.flatten, true⟩ := by
  rw [begun, List.cons_append, arrived, List.flatMap_append, flatMap_bytes_data]
  simp [H2Frame.bytes, H2Frame.ends]

end Open

/-! ## Responses -/

section Response

variable {H : Http} {S S' : Type} {X : H2Shared H} {F : RespondSide H S} {w w' : Outgoing H S}
  {trace : List (StreamEvent H S')} {result : Except Error Unit}

/-- How a response ends whose body is written as it is. -/
def concluded (body : Body) : Except Error Unit := (Serve.copied body).mapError .ofIo

/-- Nothing has been queued yet. -/
def IsSilent (w : Outgoing H S) : Prop := w.closed = false ∧ w.queued = []

/-- Sending the headers of a response that goes on. -/
theorem exec_writeH2Headers (hF : F.IsOpen) {response : Response H} {headers : H.HeaderMap}
    (hheaders : encodeResponseHeaders H X.codec response = some headers)
    (hexec : Exec (writeH2Headers X response) trace result)
    (hqueues : Leads (Queues F) w trace w') (hw : IsSilent w) :
    result = .ok () ∧ w'.closed = false ∧
      w'.queued = begun (remapStatus response.status) headers [] := by
  unfold writeH2Headers at hexec
  rw [hheaders] at hexec
  obtain ⟨reply, rest, rfl, hrest⟩ := exec_request_iff.mp hexec
  cases hqueues with
  | @cons _ w₁ _ _ _ hstep hleads =>
      obtain ⟨hreply, rfl⟩ := hstep
      obtain rfl : Except.ok () = reply := (hF.sendResponse _ _ _ _).symm.trans hreply
      obtain ⟨rfl, rfl⟩ := exec_done_iff.mp hrest
      cases hleads
      refine ⟨rfl, hw.1, ?_⟩
      show w.queued ++ [.headers (remapStatus response.status) headers false] = _
      rw [hw.2]
      rfl

/-- A body is queued as it is, and ended if it ends well. -/
theorem exec_writeBody (hF : F.IsOpen) {body : Body} {status : UInt16} {headers : H.HeaderMap}
    (hexec : Exec (writeBody body) trace result) (hqueues : Leads (Queues F) w trace w')
    (hclosed : w.closed = false) (hqueued : w.queued = begun status headers []) :
    arrived w'.queued = some ⟨status, headers, body.pieces.flatten, body.ending.isOk⟩ ∧
      result = concluded body := by
  obtain ⟨copying, ended, last, rfl, hcopy, hlast⟩ := exec_bind_iff.mp hexec
  obtain ⟨w₁, hcopying, hleads⟩ := leads_append_iff.mp hqueues
  obtain ⟨hasked, -⟩ := exec_writes (Serve.writes_copy body) hcopy
  obtain ⟨haccepts, hstill, pieces, hpieces, hflatten⟩ := leads_writing hF hcopying hclosed hasked
  obtain ⟨rfl, hsent, -⟩ := exec_of_sends_done (Serve.coherent_copy body) (Serve.sends_copy body)
    hcopy haccepts
  have hbegun : w₁.queued = begun status headers pieces := by
    rw [hpieces, hqueued]
    rfl
  rw [hsent] at hflatten
  unfold concluded
  unfold Serve.copied at hlast ⊢
  cases hending : body.ending with
  | error e =>
      rw [hending] at hlast
      obtain ⟨rfl, rfl⟩ := exec_done_iff.mp hlast
      cases hleads
      rw [hbegun, arrived_begun, hflatten]
      exact ⟨rfl, rfl⟩
  | ok =>
      rw [hending] at hlast
      obtain ⟨reply, rest, rfl, hrest⟩ := exec_request_iff.mp hlast
      obtain ⟨rfl, rfl⟩ := exec_done_iff.mp hrest
      cases hleads with
      | @cons _ w₂ _ _ _ hstep hdone =>
          cases hdone
          obtain rfl : w' = w₁.pollClose F.recording := hstep
          have hended : (w₁.pollClose F.recording).queued =
              begun status headers pieces ++ [.data [] true] := by
            rw [pollClose_queued hF hstill, hbegun]
          rw [hended, arrived_ended, hflatten]
          exact ⟨rfl, rfl⟩

theorem exec_writeH2Response (hH : H.Lawful) (hX : X.Lawful) (hF : F.IsOpen)
    {response : HintedResponse H} (hexec : Exec (writeH2Response X response) trace result)
    (hqueues : Leads (Queues F) w trace w') (hw : IsSilent w) :
    (∃ headers, encodeResponseHeaders H X.codec response.toResponse = some headers ∧
      arrived w'.queued = some ⟨remapStatus response.status, headers,
        response.body.pieces.flatten, response.body.ending.isOk⟩) ∧
      result = concluded response.body.toBody := by
  obtain ⟨headers, hheaders, -⟩ := encodeResponseHeaders_eq hH hX.codec response.toResponse
  unfold writeH2Response at hexec
  split at hexec
  · next hhint =>
      obtain ⟨hpieces, hending⟩ := response.body.eq_empty hhint
      rw [hheaders] at hexec
      obtain ⟨reply, rest, rfl, hrest⟩ := exec_request_iff.mp hexec
      cases hqueues with
      | @cons _ w₁ _ _ _ hstep hleads =>
          obtain ⟨hreply, rfl⟩ := hstep
          obtain rfl : Except.ok () = reply := (hF.sendResponse _ _ _ _).symm.trans hreply
          obtain ⟨rfl, rfl⟩ := exec_done_iff.mp hrest
          cases hleads
          refine ⟨⟨headers, hheaders, ?_⟩, by rw [concluded, Serve.copied, hending]; rfl⟩
          show arrived (w.queued ++ [.headers (remapStatus response.status) headers true]) = _
          rw [hw.2, hpieces, hending]
          rfl
  · obtain ⟨first, sent, second, rfl, hfirst, hsecond⟩ := exec_bind_iff.mp hexec
    obtain ⟨w₁, hleads₁, hleads₂⟩ := leads_append_iff.mp hqueues
    obtain ⟨rfl, hclosed, hqueued⟩ := exec_writeH2Headers hF hheaders hfirst hleads₁ hw
    obtain ⟨harrived, hends⟩ := exec_writeBody hF hsecond hleads₂ hclosed hqueued
    exact ⟨⟨headers, hheaders, harrived⟩, hends⟩

/-- What the edge gets is the response: its status but for 101, the headers that are not reserved,
its content length, and its body, with the end of the stream if the body ends well. -/
structure Arrived.Replies (a : Arrived H) (X : H2Shared H) (response : HintedResponse H) :
    Prop where
  status : a.status = remapStatus response.status
  headers : arrivedHeaders H X.codec a.headers =
    (userHeaders response.toResponse).map (headerText H)
  contentLength : bytesOf a.headers "content-length" =
    (bytesOf response.headers "content-length").map sentBytes
  body : a.body = response.body.pieces.flatten
  ended : a.ended = response.body.ending.isOk

theorem exec_replies (hH : H.Lawful) (hN : H.PlainNames) (hX : X.Lawful) (hF : F.IsOpen)
    {response : HintedResponse H} (hexec : Exec (writeH2Response X response) trace result)
    (hqueues : Leads (Queues F) w trace w') (hw : IsSilent w) :
    (∃ a, arrived w'.queued = some a ∧ a.Replies X response) ∧
      result = concluded response.body.toBody := by
  obtain ⟨⟨headers, hheaders, harrived⟩, hends⟩ :=
    exec_writeH2Response hH hX hF hexec hqueues hw
  refine ⟨⟨_, harrived, rfl, ?_, ?_, rfl, rfl⟩, hends⟩
  · obtain ⟨headers', hheaders', hbound⟩ :=
      encodeResponseHeaders_eq hH hX.codec response.toResponse
    rw [hheaders] at hheaders'
    cases hheaders'
    exact hbound
  · have hbytes := bytesOf_encodeResponseHeaders hH hN hX.codec hheaders
      (show "content-length" ≠ tracingInternalHeader by decide)
    rw [if_neg (by decide), if_neg (fun h => absurd h.2 (by decide)),
      ← flatMap_passed_unreserved, flatMap_passed_contentLength] at hbytes
    exact hbytes

end Response

/-! ## Failures -/

section Failure

variable {H : Http} {S S' : Type} {X : H2Shared H} {F : RespondSide H S} {w w' : Outgoing H S}
  {trace : List (StreamEvent H S')} {result : Except Error Unit}

/-- The headers of an error response can be made, and give its type and its length. -/
theorem errorHeaders_eq (hH : H.Lawful) (message : String) :
    ∃ headers, errorHeaders H message = some headers ∧
      bytesOf headers "content-length" = [utf8 (toString (utf8 message).length)] ∧
      (H.getAll headers "content-type").map (valueText H) = ["text/plain"] := by
  obtain ⟨contentType, htype, hplain⟩ := hH.fromStr_eq "text/plain"
    (List.all_iff_forall_prop.mp (by decide))
  obtain ⟨contentLength, hlength, hbytes⟩ := hH.fromStr_eq (toString (utf8 message).length)
    fun b hb => (isVisible_toString _ b hb).admitted
  have hname : H.nameAsStr (H.nameFromStatic "content-length") = "content-length" :=
    nameAsStr_static hH (List.all_iff_forall_prop.mp (by decide)) (by decide)
  have hname' : H.nameAsStr (H.nameFromStatic "content-type") = "content-type" :=
    nameAsStr_static hH (List.all_iff_forall_prop.mp (by decide)) (by decide)
  refine ⟨_, by rw [errorHeaders, htype, hlength]; rfl, ?_, ?_⟩
  · rw [bytesOf_insert hH, if_pos hname, hbytes]
  · have hvisible : ∀ b ∈ H.valueAsBytes contentType, IsVisible b := by
      rw [hplain]
      exact List.all_iff_forall_prop.mp (by decide)
    have htext : valueText H contentType = "text/plain" :=
      utf8_injective (((utf8_valueText_iff hH contentType).mpr hvisible).trans hplain)
    rw [hH.getAll_insert, hname, if_neg (by decide), hH.getAll_insert, hname', if_pos rfl,
      List.map_singleton, htext]

/-- The message is the body of a response with the status 502, of plain text and with its own length
for its content length. -/
structure Arrived.Fails (a : Arrived H) (X : H2Shared H) (message : String) : Prop where
  status : a.status = 502
  contentType : valuesOf (arrivedHeaders H X.codec a.headers) "content-type" = ["text/plain"]
  contentLength : bytesOf a.headers "content-length" = [utf8 (toString a.body.length)]
  body : a.body = utf8 message
  ended : a.ended = true

theorem exec_writeH2Error (hH : H.Lawful) (hN : H.PlainNames) (hX : X.Lawful) (hF : F.IsOpen)
    {message : String} (hexec : Exec (writeH2Error X message) trace result)
    (hqueues : Leads (Queues F) w trace w') (hw : IsSilent w) :
    (∃ a, arrived w'.queued = some a ∧ a.Fails X message) ∧ result = .ok () := by
  obtain ⟨headers, hheaders, hbytes, htype⟩ := errorHeaders_eq hH message
  unfold writeH2Error at hexec
  rw [hheaders] at hexec
  obtain ⟨⟨a, harrived, hreplies⟩, hends⟩ := exec_replies hH hN hX hF hexec hqueues hw
  have hbody : a.body = utf8 message := hreplies.body.trans (flatten_cursorPieces _)
  refine ⟨⟨a, harrived, ?_, ?_, ?_, hbody, hreplies.ended⟩, hends⟩
  · exact hreplies.status
  · rw [hreplies.headers, valuesOf_userHeaders _ (by decide)]
    exact htype
  · rw [hreplies.contentLength, hbody]
    show (bytesOf headers "content-length").map sentBytes = _
    rw [hbytes, List.map_singleton, sentBytes, if_pos (isVisible_toString _)]

/-- There is no handler, or it fails with this message. -/
inductive Failing (X : H2Shared H) (parts : Parts H) :
    List (StreamEvent H S') → String → Prop
  | http {call : Request H} {message : String}
      {rest : List (StreamEvent H S')}
      (htype : classify H parts.headers = .http) :
      Failing X parts (⟨.effect (.http call), .error message⟩ :: rest) message
  | websocket {call : Request H} {message : String}
      {rest : List (StreamEvent H S')}
      (htype : classify H parts.headers = .websocket) (hsome : X.websocket = true) :
      Failing X parts (⟨.effect (.websocket call), .error message⟩ :: rest) message
  | tcp {call : Request H} {message : String}
      {rest : List (StreamEvent H S')}
      (htype : classify H parts.headers = .tcp) (hsome : X.tcp = true) :
      Failing X parts (⟨.effect (.tcp call), .error message⟩ :: rest) message
  | noWebsocket {trace : List (StreamEvent H S')}
      (htype : classify H parts.headers = .websocket) (hnone : X.websocket = false) :
      Failing X parts trace "no websocket origin handler"
  | noTcp {trace : List (StreamEvent H S')}
      (htype : classify H parts.headers = .tcp) (hnone : X.tcp = false) :
      Failing X parts trace "no tcp origin handler"

theorem exec_writeError {message : String}
    (h : Exec ((Program.request (S := h2Serving H S') (.writeError message) .done).handle
      (performTcp X)) trace result) : Exec (writeH2Error X message) trace result := by
  obtain ⟨first, ended, second, rfl, hfirst, hsecond⟩ := exec_bind_iff.mp h
  obtain ⟨rfl, rfl⟩ := exec_done_iff.mp hsecond
  rw [List.append_nil]
  exact hfirst

/-- The handler's part of a trace queues nothing. -/
theorem leads_invocation {o : StreamOp H S'} {reply : (streaming H S').Reply o}
    (ho : o.IsInvocation)
    (hqueues : Leads (Queues F) w (⟨.effect o, reply⟩ :: trace) w') :
    Leads (Queues F) w trace w' := by
  cases hqueues with
  | @cons _ w₁ _ _ _ hstep hleads =>
      cases o with
      | http call =>
          obtain rfl : w₁ = w := hstep
          exact hleads
      | websocket call =>
          obtain rfl : w₁ = w := hstep
          exact hleads
      | tcp call =>
          obtain rfl : w₁ = w := hstep
          exact hleads
      | updateConfiguration version configuration =>
          obtain rfl : w₁ = w := hstep
          exact hleads
      | readToEnd => exact ho.elim
      | sendResponse status headers endOfStream => exact ho.elim
      | pump origin => exact ho.elim
      | close => exact ho.elim

/-- **A failure arrives whole**: whichever kind of request it is, the edge gets the message of the
handler as a response of its own, to the end, and the task ends well. -/
theorem handleStream_failure (hH : H.Lawful) (hN : H.PlainNames) (hX : X.Lawful) (hF : F.IsOpen)
    {parts : Parts H} {message : String} {send : S}
    (hexec : Exec (handleStream X parts) trace result)
    (hqueues : Leads (Queues F) (.start send) trace w) (hfailing : Failing X parts trace message) :
    (∃ a, arrived w.queued = some a ∧ a.Fails X message) ∧ result = .ok () := by
  have hstart : IsSilent (Outgoing.start (H := H) send) := ⟨rfl, rfl⟩
  unfold handleStream at hexec
  cases hfailing with
  | http htype =>
      simp only [htype] at hexec
      obtain ⟨reply, rest, heq, hrest⟩ := exec_request_iff.mp hexec
      cases heq
      have hleads := leads_invocation (o := StreamOp.http _) trivial hqueues
      exact exec_writeH2Error hH hN hX hF hrest hleads hstart
  | websocket htype hsome =>
      simp only [htype] at hexec
      unfold handleH2Websocket at hexec
      rw [if_pos hsome] at hexec
      obtain ⟨reply, rest, heq, hrest⟩ := exec_request_iff.mp hexec
      cases heq
      have hleads := leads_invocation (o := StreamOp.websocket _) trivial hqueues
      exact exec_writeH2Error hH hN hX hF hrest hleads hstart
  | tcp htype hsome =>
      simp only [htype] at hexec
      unfold handleH2Tcp at hexec
      rw [if_pos hsome] at hexec
      obtain ⟨reply, rest, heq, hrest⟩ := exec_request_iff.mp hexec
      cases heq
      have hleads := leads_invocation (o := StreamOp.tcp _) trivial hqueues
      exact exec_writeH2Error hH hN hX hF (exec_writeError hrest) hleads hstart
  | noWebsocket htype hnone =>
      simp only [htype] at hexec
      unfold handleH2Websocket at hexec
      rw [hnone] at hexec
      exact exec_writeH2Error hH hN hX hF hexec hqueues hstart
  | noTcp htype hnone =>
      simp only [htype] at hexec
      unfold handleH2Tcp at hexec
      rw [hnone] at hexec
      exact exec_writeH2Error hH hN hX hF (exec_writeError hexec) hqueues hstart

end Failure

/-! ## Successes -/

section Success

variable {H : Http} {S S' : Type} {X : H2Shared H} {F : RespondSide H S} {w : Outgoing H S}
  {trace : List (StreamEvent H S')} {result : Except Error Unit}

/-- **A response arrives as it is**: the handler of an HTTP request is given the request without the
internal header, once, and the edge gets what it answers, up to where its body fails if it does. -/
theorem handleStream_success (hH : H.Lawful) (hN : H.PlainNames) (hX : X.Lawful) (hF : F.IsOpen)
    {parts : Parts H} {send : S} (htype : classify H parts.headers = .http)
    (hexec : Exec (handleStream X parts) trace result)
    (hqueues : Leads (Queues F) (.start send) trace w) :
    ∃ call answer rest, trace = ⟨.effect (.http call), answer⟩ :: rest ∧
      (∀ name, H.getAll call.headers name =
        if internalUpgradeHeader = name then [] else H.getAll parts.headers name) ∧
      (∀ op reply, ⟨.effect op, reply⟩ ∈ rest → ¬ op.IsInvocation) ∧
      ∀ response, answer = .ok response →
        (∃ a, arrived w.queued = some a ∧ a.Replies X response) ∧
          result = concluded response.body.toBody := by
  have hruns := exec_iff_runs.mp hexec
  unfold handleStream at hexec
  simp only [htype] at hexec
  obtain ⟨answer, rest, rfl, hrest⟩ := exec_request_iff.mp hexec
  refine ⟨_, answer, rest, rfl, fun name => hX.getAll_remove _ _ name, ?_, ?_⟩
  · intro op reply hmem hinvocation
    obtain ⟨first, last, rfl⟩ := List.append_of_mem hmem
    have hread := readToEnd_of_invocation hruns (_ :: first) op reply last rfl hinvocation _
      List.mem_cons_self
    cases hread
  · rintro response rfl
    have hleads := leads_invocation (o := StreamOp.http _) trivial hqueues
    exact exec_replies hH hN hX hF hrest hleads ⟨rfl, rfl⟩

/-- **Both transports say the same of a response**: the status over QUIC is the one over HTTP/2 but
for 101, and the headers that are not reserved, the body, whether it is ended, and how the task ends
are the same. -/
theorem transports_agree (hH : H.Lawful) (hN : H.PlainNames) (hX : X.Lawful) (hF : F.IsOpen)
    {T : SegmentTable} {C : QuicCapnp T} {S'' : Type} {response : HintedResponse H} {send : S}
    (hexec : Exec (writeH2Response X response) trace result)
    (hqueues : Leads (Queues F) (.start send) trace w)
    {trace' : List (Program.Event (signature UInt8 IoError (Serve.serving H S'')))}
    {result' : Except Error Unit}
    (hexec' : Exec (Serve.respondHttp C (.ok response.toResponse)) trace' result')
    (haccepts : Accepts trace') :
    ∃ a metadata, arrived w.queued = some a ∧
      sent trace' = Serve.preamble C ⟨"", metadata⟩ ++ a.body ∧
      (∃ status : UInt16, (httpStatusKey, toString status.toNat) ∈ metadata ∧
        a.status = remapStatus status) ∧
      arrivedHeaders H X.codec a.headers =
        (metadataHeaders metadata).filter (fun header => isUserHeader header.1) ∧
      (a.ended = true ↔ .finish ∈ Serve.requested trace') ∧ result = result' := by
  obtain ⟨⟨a, harrived, hreplies⟩, rfl⟩ := exec_replies hH hN hX hF hexec hqueues ⟨rfl, rfl⟩
  obtain ⟨hsent, hends⟩ := Serve.exec_respondHttp hexec' haccepts
  refine ⟨a, encodeResponseMetadata H response.toResponse, harrived, ?_, ?_, ?_, ?_⟩
  · rw [hreplies.body]
    exact hsent
  · exact ⟨response.status, List.mem_cons_self, hreplies.status⟩
  · have hmetadata : metadataHeaders (encodeResponseMetadata H response.toResponse) =
        (H.iter response.headers).map (headerText H) := metadataHeaders_encode H _
    rw [hreplies.headers, hmetadata, List.filter_map]
    rfl
  · rw [hreplies.ended]
    show (_ ↔ _ ∈ (asked trace').map (·.1)) ∧ concluded response.body.toBody = result'
    unfold concluded Serve.copied
    have hbody : response.toResponse.body.ending = response.body.ending := rfl
    rw [hbody] at hends
    cases hending : response.body.ending with
    | ok =>
        rw [hending] at hends
        obtain ⟨hasked, hresult⟩ := hends
        rw [hasked, hresult]
        exact ⟨iff_of_true rfl (.tail _ (.head _)), rfl⟩
    | error e =>
        rw [hending] at hends
        obtain ⟨hasked, hresult⟩ := hends
        rw [hasked, hresult]
        refine ⟨iff_of_false Bool.false_ne_true ?_, rfl⟩
        intro hfinish
        cases List.mem_singleton.mp hfinish

end Success

/-! ## On an open connection -/

theorem isOpen_openSide (H : Http) : (openSide H).IsOpen where
  sendResponse _ _ _ _ := rfl
  sendData _ _ _ := rfl
  capacity _ _ := Nat.succ_pos _
  pollCapacity _ := .inr ⟨65535, rfl, Nat.succ_pos _⟩

/-- A write is ready at once. -/
theorem pollWrite_openSide {H : Http} (buffer : List UInt8) (w : Outgoing H Unit) :
    ∃ result w', w.pollWrite (openSide H).recording buffer = (some result, w') := by
  unfold SendStreamWriter.pollWrite
  by_cases hclosed : w.closed = true
  · rw [if_pos hclosed]
    exact ⟨_, _, rfl⟩
  by_cases hempty : buffer = []
  · rw [if_neg hclosed, if_pos hempty]
    exact ⟨_, _, rfl⟩
  rw [if_neg hclosed, if_neg hempty]
  exact ⟨_, _, rfl⟩

/-- What is ready can be replied. -/
theorem exists_isReplyOf {H : Http} {buffer : List UInt8} {w w' : Outgoing H Unit}
    {result : Except WriteError Nat}
    (h : w.pollWrite (openSide H).recording buffer = (some result, w')) :
    ∃ reply : Except IoError { n : Nat // n ≤ buffer.length }, IsReplyOf result reply := by
  have hqueued := pollWrite_queued (F := openSide H) buffer w
  rw [h] at hqueued
  cases result with
  | error e => exact ⟨.error ⟨e.message⟩, e.kind, rfl⟩
  | ok n =>
      have hle : n ≤ buffer.length := by
        rcases hqueued.2 with ⟨_, rfl, _⟩ | ⟨_, hle, _⟩
        · exact Nat.zero_le _
        · exact hle
      exact ⟨.ok ⟨n, hle⟩, rfl⟩

/-- On an open connection every task can go on to its end. -/
theorem exists_leads {H : Http} {α : Type} (p : Streaming H Unit α) (w : Outgoing H Unit) :
    ∃ trace a w', Exec p trace a ∧ Leads (Queues (openSide H)) w trace w' := by
  induction p generalizing w with
  | done a => exact ⟨[], a, w, .done a, .nil w⟩
  | request op next ih =>
      have hgo : ∀ reply w', Queues (openSide H) w ⟨op, reply⟩ w' →
          ∃ trace a w'', Exec (.request op next) trace a ∧
            Leads (Queues (openSide H)) w trace w'' := by
        intro reply w' hstep
        obtain ⟨trace, a, w'', hexec, hleads⟩ := ih reply w'
        exact ⟨_, a, w'', .request reply hexec, .cons hstep hleads⟩
      cases op with
      | pollRead room => exact hgo (.error ⟨"broken pipe"⟩) w rfl
      | pollWrite buffer =>
          obtain ⟨result, w', hready⟩ := pollWrite_openSide buffer w
          obtain ⟨reply, hreply⟩ := exists_isReplyOf hready
          exact hgo reply w' ⟨result, .ready hready, hreply⟩
      | effect op =>
          cases op with
          | sendResponse status headers endOfStream => exact hgo (.ok ()) _ ⟨rfl, rfl⟩
          | pump origin => exact hgo (.ok ()) w ⟨[], rfl⟩
          | close => exact hgo () _ rfl
          | readToEnd => exact hgo (.ok []) w rfl
          | http call => exact hgo (.error "origin down") w rfl
          | websocket call => exact hgo (.error "origin down") w rfl
          | tcp call => exact hgo (.error "origin down") w rfl
          | updateConfiguration version configuration => exact hgo ⟨version, ""⟩ w rfl

/-- `Http.plain`, with no websocket and no TCP handler. -/
def guardedShared : H2Shared Http.plain where
  websocket := false
  tcp := false
  codec := .standardNoPad
  json := sampleJson
  uri := ⟨fun _ => none, fun _ => none⟩
  remove headers name := headers.filter fun header => header.1.val ≠ name
  websocketAccept := id

theorem plainValuesOf_remove (headers : List (PlainName × PlainValue)) (n name : String) :
    plainValuesOf (headers.filter fun header => header.1.val ≠ n) name =
      if n = name then [] else plainValuesOf headers name := by
  rw [plainValuesOf, plainValuesOf, List.filterMap_filter]
  split
  · next heq =>
      apply List.filterMap_eq_nil_iff.mpr
      intro header _
      by_cases hname : header.1.val = n <;> simp [hname, ← heq]
  · next hne =>
      apply List.filterMap_congr
      intro header _
      by_cases hname : header.1.val = n <;> simp [hname, hne]

theorem lawful_guardedShared : guardedShared.Lawful where
  codec := TextCodec.lawful_standardNoPad
  json := lawful_sampleJson
  getAll_remove := plainValuesOf_remove

def guardedParts : Parts Http.plain := ⟨⟨[], "http://a/"⟩, [71, 69, 84]⟩

/-- The handler answers. -/
def answered (answer : Except String (HintedResponse Http.plain)) :
    StreamEvent Http.plain Unit :=
  ⟨.effect (.http (requestOf guardedShared guardedParts .stream)), answer⟩

theorem queues_answered (answer : Except String (HintedResponse Http.plain))
    (w : Outgoing Http.plain Unit) : Queues (openSide Http.plain) w (answered answer) w := rfl

theorem handleStream_failure_origin :
    ∃ (trace : List (StreamEvent Http.plain Unit))
      (result : Except Error Unit) (w : Outgoing Http.plain Unit),
      Exec (handleStream guardedShared guardedParts) trace result ∧
        Leads (Queues (openSide Http.plain)) (.start ()) trace w ∧
        (∃ a, arrived w.queued = some a ∧ a.Fails guardedShared "origin down") ∧
        result = .ok () := by
  obtain ⟨trace, result, w, hexec, hleads⟩ :=
    exists_leads (writeH2Error guardedShared "origin down") (.start ())
  have hasked : Exec (handleStream guardedShared guardedParts)
      (answered (.error "origin down") :: trace) result := .request _ hexec
  have hqueues := Leads.cons (queues_answered (.error "origin down") (.start ())) hleads
  exact ⟨_, result, w, hasked, hqueues, handleStream_failure Http.lawful_plain
    Http.plainNames_plain lawful_guardedShared (isOpen_openSide _) hasked hqueues (.http rfl)⟩

/-- A response of 20000 bytes. -/
def longResponse : HintedResponse Http.plain :=
  ⟨200, [], .fromBytes (List.replicate 20000 0)⟩

theorem handleStream_success_long :
    ∃ (trace : List (StreamEvent Http.plain Unit))
      (result : Except Error Unit) (w : Outgoing Http.plain Unit) (a : Arrived Http.plain),
      Exec (handleStream guardedShared guardedParts) trace result ∧
        Leads (Queues (openSide Http.plain)) (.start ()) trace w ∧
        arrived w.queued = some a ∧ a.Replies guardedShared longResponse := by
  obtain ⟨trace, result, w, hexec, hleads⟩ :=
    exists_leads (writeH2Response guardedShared longResponse) (.start ())
  have hasked : Exec (handleStream guardedShared guardedParts)
      (answered (.ok longResponse) :: trace) result := .request _ hexec
  have hqueues := Leads.cons (queues_answered (.ok longResponse) (.start ())) hleads
  obtain ⟨call, answer, rest, heq, _, _, hreplies⟩ := handleStream_success Http.lawful_plain
    Http.plainNames_plain lawful_guardedShared (isOpen_openSide _) rfl hasked hqueues
  have hanswer : answer = .ok longResponse := by
    cases heq
    rfl
  obtain ⟨⟨a, harrived, ha⟩, _⟩ := hreplies longResponse hanswer
  exact ⟨_, result, w, a, hasked, hqueues, harrived, ha⟩

/-- The rest of the world, over QUIC. -/
def quiet : (op : Serve.ServeOp Http.plain Unit) → (Serve.serving Http.plain Unit).Reply op
  | .http _ => ()
  | .websocket _ => .error "no websocket"
  | .tcp _ => .ok ()
  | .pump _ => .ok ()
  | .serveRpc => .ok ()
  | .cancelWrite | .finish | .drainUnread => ()

theorem transports_agree_long :
    ∃ (w : Outgoing Http.plain Unit) (a : Arrived Http.plain)
      (trace : List (Program.Event (signature UInt8 IoError (Serve.serving Http.plain Unit)))),
      arrived w.queued = some a ∧ Accepts trace ∧
        ∃ metadata, sent trace = Serve.preamble Serve.plainCapnp ⟨"", metadata⟩ ++ a.body := by
  obtain ⟨trace, result, w, hexec, hleads⟩ :=
    exists_leads (writeH2Response guardedShared longResponse) (.start ())
  obtain ⟨trace', hexec', _, haccepts⟩ := exists_exec_of_runOn
    quiet (Serve.respondHttp (S := Unit) Serve.plainCapnp (.ok longResponse.toResponse))
    { input := [], output := [], splits := fun _ => 1, polls := 0 }
  obtain ⟨a, metadata, harrived, hsent, _⟩ := transports_agree Http.lawful_plain
    Http.plainNames_plain lawful_guardedShared (isOpen_openSide _) hexec hleads hexec' haccepts
  exact ⟨w, a, trace', harrived, haccepts, metadata, hsent⟩

end Libcfd.Edge.H2
