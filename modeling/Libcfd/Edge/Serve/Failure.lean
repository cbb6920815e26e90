import Libcfd.Edge.Serve.Way
import Libcfd.Foundation.Lossy

/-!
# Does an error message arrive?

`HttpResponder::fail` promises that its message is written back to the edge. `write_stream_error`
writes it, and resets the stream behind it: what the reset finds unsent, and what is lost after it,
does not go out any more. `delivered_iff` says which schedules bring the message to the edge all the
same.
-/

namespace Libcfd.Edge.Serve

open Program Libcfd.Machine Libcfd.Rpc Libcfd.Origin Libcfd.Stream
open Libcfd.Lossy (Sender Network)

/-- What happens on the send side of a stream, to the task and to the packets. -/
inductive Schedule (H : Http) (S : Type) where
  | perform (event : Program.Event (signature UInt8 IoError (serving H S)))
  | network (event : Network)

namespace Schedule

variable {H : Http} {S : Type}

/-- What it comes to for quinn or quiche. -/
def lower : Schedule H S → List (Lossy.Label UInt8)
  | .perform ⟨.pollWrite bytes, .ok n⟩ => [.write (bytes.take n.val)]
  | .perform ⟨.effect .finish, _⟩ => [.finish]
  | .perform ⟨.effect .cancelWrite, _⟩ => [.reset]
  | .perform _ => []
  | .network event => [.network event]

def performed (ls : List (Schedule H S)) :
    List (Program.Event (signature UInt8 IoError (serving H S))) :=
  ls.filterMap fun
    | .perform event => some event
    | .network _ => none

theorem performed_append (xs ys : List (Schedule H S)) :
    performed (xs ++ ys) = performed xs ++ performed ys := List.filterMap_append ..

theorem performed_map (trace : List (Program.Event (signature UInt8 IoError (serving H S)))) :
    performed (trace.map perform) = trace := by
  rw [performed, List.filterMap_map]
  exact List.filterMap_some ..

/-- All that the task has written, and nothing else, is written on the send side. -/
theorem writes_lower (ls : List (Schedule H S)) :
    Sender.writes (ls.flatMap lower) = sent (performed ls) := by
  induction ls with
  | nil => rfl
  | cons l ls ih =>
      have hsplit : Sender.writes ((l :: ls).flatMap lower) =
          Sender.writes (lower l) ++ sent (performed ls) := by
        rw [List.flatMap_cons, Sender.writes, List.flatMap_append, ← ih]
        rfl
      rw [hsplit]
      cases l with
      | network event => rfl
      | perform event =>
          obtain ⟨op, reply⟩ := event
          cases op with
          | pollRead room => cases reply <;> rfl
          | pollWrite bytes =>
              cases reply with
              | error e => rfl
              | ok n =>
                  show [_].flatMap _ ++ _ = bytes.take n.val ++ sent (performed ls)
                  simp
          | effect op => cases op <;> rfl

end Schedule

open Schedule

section Delivered

variable {H : Http} {S : Type} {T : SegmentTable} {C : QuicCapnp T} {origin : Origin H S} {id : Nat}

/-- An error response is written in full, or some of it is left. -/
theorem exec_writeStreamError_sent {message : String}
    {trace : List (Program.Event (signature UInt8 IoError (serving H S)))}
    {result : Except Error Unit} (h : Exec (writeStreamError C message) trace result) :
    (Accepts trace → sent trace = preamble C (streamError message)) ∧
      (¬ Accepts trace → (sent trace).length < (preamble C (streamError message)).length) := by
  refine ⟨fun htaken => (exec_writeStreamError h htaken).1, fun hrefused => ?_⟩
  obtain ⟨first, written, second, rfl, hwrite, hrest⟩ := exec_bind_iff.mp h
  cases written with
  | ok =>
      obtain ⟨⟨⟩, _, rfl, hdone⟩ := exec_request_iff.mp hrest
      obtain ⟨rfl, rfl⟩ := exec_done_iff.mp hdone
      have htaken := (exec_writeResponsePreamble hwrite).2.mp rfl
      refine absurd ?_ hrefused
      exact accepts_append_iff.mpr ⟨htaken, trivial⟩
  | error e =>
      obtain ⟨rfl, rfl⟩ := exec_done_iff.mp hrest
      rw [List.append_nil]
      exact length_sent_lt (writes_writeResponsePreamble _) (coherent_writeResponsePreamble _)
        (sends_writeResponsePreamble _) hwrite

/-- **Which error messages arrive**: those that were written in full and at no cost. The reset must
find all of the message under way, and none of it may be lost after that. -/
theorem delivered_iff {message : String} {ls : List (Schedule H S)}
    {second : List (Program.Event (signature UInt8 IoError (serving H S)))}
    {result : Except Error Unit} {t : Sender UInt8}
    (hgoes : Goes C origin id (performed ls) second (.failed message) result)
    (hrun : run Sender.step .new (ls.flatMap lower) = some t) :
    (t.delivered = preamble C (streamError message) →
      Accepts second ∧ Always Sender.step Sender.CostsNothing .new (ls.flatMap lower)) ∧
    (t.Quiet → Accepts second →
      Always Sender.step Sender.CostsNothing .new (ls.flatMap lower) →
        t.delivered = preamble C (streamError message)) := by
  obtain ⟨first, htrace, hway, hconclude⟩ := hgoes
  obtain ⟨htaken, hrefused⟩ := exec_writeStreamError_sent hconclude
  have hwritten : t.written = sent second := by
    rw [Sender.written_run hrun, writes_lower, htrace, sent_append, sent_of_wayOf hway,
      List.nil_append]
  obtain ⟨hall, hquiet⟩ := Sender.complete_iff hrun
  constructor
  · intro hdelivered
    have haccepts : Accepts second := by
      by_contra hnot
      have hlt := hrefused hnot
      rw [← hdelivered, ← hwritten] at hlt
      exact absurd t.delivered_prefix.length_le (Nat.not_le_of_lt hlt)
    refine ⟨haccepts, hall ((t.delivered_eq_iff).mp ?_)⟩
    rw [hdelivered, hwritten, htaken haccepts]
  · intro hq haccepts halways
    rw [(t.delivered_eq_iff).mpr (hquiet hq halways), hwritten, htaken haccepts]

/-! ### An origin that is down -/

theorem run_writes {trace : List (Program.Event (signature UInt8 IoError (serving H S)))}
    (htrace : ∀ op ∈ requested trace, op ≠ .finish ∧ op ≠ .cancelWrite) {s : Sender UInt8}
    (hfinished : s.finished = false) (hreset : s.reset = false) :
    run Sender.step s ((trace.map Schedule.perform).flatMap lower) =
      some { s with written := s.written ++ sent trace } := by
  induction trace generalizing s with
  | nil =>
      show some s = some { s with written := s.written ++ [] }
      rw [List.append_nil]
  | cons event trace ih =>
      have hmore : ∀ op ∈ requested trace, op ≠ .finish ∧ op ≠ .cancelWrite := fun op hop =>
        htrace op ((requested_append [event] trace).symm ▸ List.mem_append_right _ hop)
      obtain ⟨op, reply⟩ := event
      have hstay := ih hmore hfinished hreset
      cases op with
      | pollRead room => cases reply <;> exact hstay
      | pollWrite bytes =>
          cases reply with
          | error e => exact hstay
          | ok n =>
              have hnext := ih hmore (s := { s with written := s.written ++ bytes.take n.val })
                hfinished hreset
              rw [List.append_assoc] at hnext
              exact run_cons_eq_some.mpr ⟨_, if_pos ⟨hfinished, hreset⟩, hnext⟩
      | effect op =>
          cases op with
          | finish => exact absurd rfl (htrace .finish List.mem_cons_self).1
          | cancelWrite => exact absurd rfl (htrace .cancelWrite List.mem_cons_self).2
          | _ => exact hstay

end Delivered

/-- An origin that fails every request before it has read any of it. -/
def downOrigin : Origin Http.ofLists Unit where
  http _ := .done (.error "origin down")
  http_reads _ := trivial
  websocket := false
  tcp := false

/-- The error response of `downOrigin`, as capnp lays it out. -/
def downResponseFrame : Frame :=
  Frame.single
    ([0, 0, 0, 0, 0, 0, 2, 0] ++ [5, 0, 0, 0, 98, 0, 0, 0] ++
      [9, 0, 0, 0, 23, 0, 0, 0] ++ [111, 114, 105, 103, 105, 110, 32, 100] ++
      [111, 119, 110, 0, 0, 0, 0, 0] ++ [4, 0, 0, 0, 0, 0, 2, 0] ++
      [5, 0, 0, 0, 90, 0, 0, 0] ++ [9, 0, 0, 0, 34, 0, 0, 0] ++
      [72, 116, 116, 112, 83, 116, 97, 116] ++ [117, 115, 0, 0, 0, 0, 0, 0] ++
      [53, 48, 50, 0, 0, 0, 0, 0]) (by decide) (by decide)

def downCapnp : QuicCapnp SegmentTable.ofLists :=
  .single .ofLists plainRequest plainRequestFrame.bytes
    (encodeConnectResponse (streamError "origin down")) downResponseFrame.bytes

/-- What serving a request comes to whose handler fails: up to the reset, and the reset. -/
theorem exists_down :
    ∃ trace second result, Goes downCapnp downOrigin 4 (trace ++ [⟨.effect .cancelWrite, ()⟩]) second
        (.failed "origin down") result ∧
      Accepts second ∧ sent trace = preamble downCapnp (streamError "origin down") ∧
      ∀ op ∈ requested trace, op ≠ .finish ∧ op ≠ .cancelWrite := by
  obtain ⟨trace, hexec, hdelivers, haccepts⟩ :=
    exists_exec_of_runOn idle (serveStream downCapnp downOrigin 4)
      { input := opening plainRequestFrame ++ [], output := [], splits := fun _ => 1, polls := 0 }
  obtain ⟨second, way, first, rfl, hway, hconclude⟩ := exists_goes hexec
  obtain ⟨middle, hfirst, -⟩ := delivers_append_iff.mp hdelivers
  obtain ⟨call, polls, answer, hhttp, rfl⟩ := exec_wayOf_http (QuicCapnp.lawful_single ..)
    (QuicCapnp.serializeRequest_single ..) rfl ⟨_, rfl⟩ hway hfirst
  obtain ⟨rfl, rfl⟩ := exec_done_iff.mp hhttp
  have hsecond : Accepts second := (accepts_append_iff.mp haccepts).2
  obtain ⟨writing, written, rest, rfl, hwrite, hrest⟩ := exec_bind_iff.mp hconclude
  obtain ⟨hwriting, -⟩ := accepts_append_iff.mp hsecond
  obtain ⟨hrequested, hwritten⟩ := exec_writeResponsePreamble hwrite
  cases hwritten.mpr hwriting
  obtain ⟨⟨⟩, _, rfl, hdone⟩ := exec_request_iff.mp hrest
  obtain ⟨rfl, hresult⟩ := exec_done_iff.mp hdone
  have hsent := (exec_of_sends_done (coherent_writeResponsePreamble _)
    (sends_writeResponsePreamble _) hwrite hwriting).2.1
  refine ⟨first ++ writing, _, _, ⟨first, List.append_assoc .., hway, hconclude⟩, hsecond, ?_, ?_⟩
  · rw [sent_append, sent_of_wayOf hway, hsent]
    rfl
  · intro op hop
    rw [requested_append, hrequested, List.append_nil] at hop
    have hinvocation := isInvocation_of_wayOf hway op hop
    constructor
    · rintro rfl
      exact hinvocation
    · rintro rfl
      exact hinvocation

/-- A schedule that leaves all of its packets until the message is written. -/
theorem exists_schedule {later : List (Schedule Http.ofLists Unit)} {t : Sender UInt8}
    (hperformed : performed later = [⟨.effect .cancelWrite, ()⟩])
    (hlater : run Sender.step
      ⟨preamble downCapnp (streamError "origin down"), 0, [], [], [], false, false⟩
      (later.flatMap lower) = some t) :
    ∃ ls second result,
      Goes downCapnp downOrigin 4 (performed ls) second (.failed "origin down") result ∧
      run Sender.step .new (ls.flatMap lower) = some t ∧ Accepts second := by
  obtain ⟨trace, second, result, hgoes, haccepts, hsent, hrequested⟩ := exists_down
  rw [← hsent] at hlater
  refine ⟨trace.map Schedule.perform ++ later, second, result, ?_, ?_, haccepts⟩
  · rw [performed_append, performed_map, hperformed]
    exact hgoes
  · rw [List.flatMap_append]
    exact run_append_eq_some.mpr ⟨_, run_writes hrequested rfl rfl, hlater⟩

/-- The message is sent before the reset, and arrives after it. -/
theorem delivered_origin_down :
    ∃ ls t second result,
      Goes downCapnp downOrigin 4 (performed ls) second (.failed "origin down") result ∧
      run Sender.step .new (ls.flatMap lower) = some t ∧
      t.delivered = preamble downCapnp (streamError "origin down") := by
  generalize hmessage : preamble downCapnp (streamError "origin down") = message
  have hlength : 0 < message.length := by
    rw [← hmessage]
    exact Nat.succ_pos _
  have hlater : run Sender.step (⟨message, 0, [], [], [], false, false⟩ : Sender UInt8)
      ([Schedule.network (.transmit message.length), .perform ⟨.effect .cancelWrite, ()⟩,
        .network (.deliver 0)].flatMap (lower (H := Http.ofLists) (S := Unit))) =
      some ⟨message, 0 + message.length, [], [], [⟨0, message.length⟩], false, true⟩ :=
    run_cons_eq_some.mpr ⟨_, if_pos ⟨rfl, hlength, Nat.le_of_eq (Nat.zero_add _)⟩, rfl⟩
  rw [← hmessage] at hlater
  obtain ⟨ls, second, result, hgoes, hrun, haccepts⟩ := exists_schedule rfl hlater
  refine ⟨ls, _, second, result, hgoes, hrun, hmessage ▸ ?_⟩
  refine (delivered_iff hgoes hrun).2 ⟨rfl, .inl rfl⟩ haccepts ((Sender.isSafe_iff hrun).mp ?_)
  refine Sender.Complete.isSafe fun i hi => ⟨_, List.mem_singleton_self _, Nat.zero_le i, ?_⟩
  rw [Nat.zero_add]
  exact hi

/-- The reset comes before anything is sent: the message was written, and none of it arrives. -/
theorem not_delivered_origin_down :
    ∃ ls t second result,
      Goes downCapnp downOrigin 4 (performed ls) second (.failed "origin down") result ∧
      run Sender.step .new (ls.flatMap lower) = some t ∧ Accepts second ∧ t.Quiet ∧
      t.delivered ≠ preamble downCapnp (streamError "origin down") := by
  obtain ⟨ls, second, result, hgoes, hrun, haccepts⟩ :=
    @exists_schedule [.perform ⟨.effect .cancelWrite, ()⟩] _ rfl rfl
  refine ⟨ls, _, second, result, hgoes, hrun, haccepts, ⟨rfl, .inl rfl⟩, fun hdelivered => ?_⟩
  obtain ⟨_, hnone, _⟩ := (Sender.delivered_eq_iff _).mp hdelivered 0 (Nat.succ_pos _)
  exact absurd hnone List.not_mem_nil

end Libcfd.Edge.Serve
