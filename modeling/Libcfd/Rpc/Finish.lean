import Libcfd.Rpc.Session

/-!
# Finishing what was answered

`send_finish` is meant for every question that was resolved or failed. An operation gets to it when
the return can be read as far as the operation asks; when it cannot, `?` leaves before the finish
and the question stays open at the peer.
-/

namespace Libcfd.Rpc

open Program

variable {E : Signature} {α γ : Type}

/-- What an operation asks of the results of its return. -/
def Operation.ReadsResults : Operation α → PayloadReader → Prop
  | .bootstrap => PayloadReader.HasLegibleCapTable
  | .call _ _ _ _ decode => fun payload => ∃ value, decode payload = .ok value

/-- How often a question was finished. -/
def finishes (question : UInt32) (events : List (Event (wire E))) : Nat :=
  (events.filterMap finished).count question

/-- The `Return` was read that answers this question. -/
abbrev returned (ret : ReturnReader) : Event (wire E) := gotten (.ok (.ok (.ok (.ret (.ok ret)))))

theorem finishes_nil (question : UInt32) : finishes (E := E) question [] = 0 := rfl

theorem finishes_cons_of_none {question : UInt32} {event : Event (wire E)}
    (h : finished event = none) (events : List (Event (wire E))) :
    finishes question (event :: events) = finishes question events := by
  rw [finishes, List.filterMap_cons_none h, finishes]

theorem finishes_finish (question : UInt32) (release : Bool) (result : Except RpcError Unit) :
    finishes (E := E) question [wrote (.finish question release) result] = 1 :=
  List.count_cons_self

/-- The return read is the one answer of an exchange. -/
theorem root_of_returned {ret : ReturnReader} {root : Root} {message : Message}
    {events : List (Event (wire E))}
    (hevents : ∀ event ∈ events, ∃ message result, event = wrote message result)
    (h : returned ret ∈ wrote message (.ok ()) :: gotten (.ok root) :: events) :
    root = .ok (.ok (.ret (.ok ret))) := by
  rcases List.mem_cons.mp h with heq | h
  · exact absurd heq (gotten_ne_wrote _ _ _)
  rcases List.mem_cons.mp h with heq | h
  · exact (Except.ok.inj (gotten_inj.mp heq)).symm
  · obtain ⟨message, result, heq⟩ := hevents _ h
    exact absurd heq (gotten_ne_wrote _ _ _)

/-- An exchange with an answer finishes its question once if the answer can be decoded, and
otherwise never. -/
theorem finishes_iff_of_exchanged {question : UInt32} {message : Message}
    {decode : Root → Except RpcError γ} {release : γ → Bool} {conclude : γ → Except RpcError α}
    {client client' : RpcClient} {settle : γ → RpcClient} {trace : List (Event (wire E))}
    {result : Except RpcError α} {ret : ReturnReader}
    (h : Exchanged question message decode release conclude client settle trace result client')
    (hmessage : message.question? = some question) (hret : returned ret ∈ trace) :
    finishes question trace = 1 ↔
      ∃ outcome, decode (.ok (.ok (.ret (.ok ret)))) = .ok outcome := by
  have hwrote : ∀ result events, finishes question (wrote message result :: events) =
      finishes (E := E) question events := fun result =>
    finishes_cons_of_none (finished_wrote hmessage result)
  have hgotten : ∀ root events, finishes (E := E) question (gotten (.ok root) :: events) =
      finishes question events := fun _ => finishes_cons_of_none rfl
  cases h with
  | unsent e => exact absurd (List.mem_singleton.mp hret) (gotten_ne_wrote _ _ _)
  | unanswered e =>
      rcases List.mem_pair.mp hret with heq | heq
      · exact absurd heq (gotten_ne_wrote _ _ _)
      · cases gotten_inj.mp heq
  | @undecoded root e hdecode =>
      obtain rfl := root_of_returned (fun _ h => absurd h List.not_mem_nil) hret
      rw [hwrote, hgotten, finishes_nil, hdecode]
      exact iff_of_false Nat.zero_ne_one nofun
  | @unfinished root outcome hdecode e =>
      obtain rfl := root_of_returned (List.forall_mem_singleton.mpr ⟨_, _, rfl⟩) hret
      rw [hwrote, hgotten, finishes_finish]
      exact iff_of_true rfl ⟨outcome, hdecode⟩
  | @finished root outcome hdecode =>
      obtain rfl := root_of_returned (List.forall_mem_singleton.mpr ⟨_, _, rfl⟩) hret
      rw [hwrote, hgotten, finishes_finish]
      exact iff_of_true rfl ⟨outcome, hdecode⟩

/-- **Finishing.** Once the `Return` for its question has been read, an operation sends one finish
for it if what it asks of the return can be read, and otherwise none. -/
theorem finishes_iff_legible {op : Operation α} {client client' : RpcClient}
    {trace : List (Event (wire E))} {result : Except RpcError (Answer α)} {ret : ReturnReader}
    (h : Exec (op.perform client) trace (result, client')) (hret : returned ret ∈ trace)
    (hid : ret.answerId = client.nextQuestion) :
    finishes client.nextQuestion trace = 1 ↔ ret.Legible op.ReadsResults := by
  have hexpect : expectReturn (.ok (.ok (.ret (.ok ret)))) client.nextQuestion = .ok ret :=
    expectReturn_eq_ok.mpr ⟨rfl, hid⟩
  cases op with
  | bootstrap =>
      obtain ⟨inner, hinner, _⟩ := exec_map h
      cases hbootstrap : client.hasBootstrap with
      | true =>
          rw [bootstrap_twice hbootstrap] at hinner
          obtain ⟨rfl, _⟩ := exec_done_iff.mp hinner
          exact absurd hret List.not_mem_nil
      | false =>
          rw [bootstrap_eq hbootstrap] at hinner
          have hexchanged := exchanged_of_exec hinner
          exact (finishes_iff_of_exchanged hexchanged rfl hret).trans
            (decodeBootstrap_ok_iff hexpect)
  | call importIdentifier interfaceIdentifier methodIdentifier fillParameters decode =>
      obtain ⟨inner, hinner, _⟩ := exec_map h
      cases hbootstrap : client.hasBootstrap with
      | false =>
          rw [call_early _ _ _ _ hbootstrap] at hinner
          obtain ⟨rfl, _⟩ := exec_done_iff.mp hinner
          exact absurd hret List.not_mem_nil
      | true =>
      cases fillParameters with
      | error e =>
          rw [call_unfilled _ _ _ _ hbootstrap] at hinner
          obtain ⟨rfl, _⟩ := exec_done_iff.mp hinner
          exact absurd hret List.not_mem_nil
      | ok params =>
          rw [call_eq _ _ _ _ hbootstrap] at hinner
          have hexchanged := exchanged_of_exec hinner
          exact (finishes_iff_of_exchanged hexchanged rfl hret).trans (decodeCall_ok_iff hexpect)

theorem finishes_iff_legible_bootstrap :
    finishes (E := noEffects) 0
        [wrote (.bootstrap 0) (.ok ()), gotten (.ok (returnRoot 0 capabilityReader)),
          wrote (.finish 0 false) (.ok ())] = 1 ↔
      (⟨0, .ok (.results (.ok capabilityReader))⟩ : ReturnReader).Legible
        (Operation.ReadsResults (α := Unit) .bootstrap) := by
  have hexec : Exec ((Operation.bootstrap : Operation Unit).perform (E := noEffects) ⟨0, false⟩)
      [wrote (.bootstrap 0) (.ok ()), gotten (.ok (returnRoot 0 capabilityReader)),
        wrote (.finish 0 false) (.ok ())] (.ok (.capability 0), ⟨1, true⟩) :=
    .request _ (.request _ (.request _ (.done _)))
  exact finishes_iff_legible hexec (List.mem_cons_of_mem _ List.mem_cons_self) rfl

/-- A call answered with an exception whose reason is not UTF-8 returns without a finish. -/
theorem open_question_after_illegible_exception :
    ∃ (events : List (Event (wire noEffects))) (result : Except RpcError (Answer Unit))
      (client' : RpcClient) (ret : ReturnReader),
      Exec ((Operation.call 0 7 1 (.ok ⟨.null, []⟩) fun _ => .ok ()).perform ⟨1, true⟩) events
        (result, client') ∧
      returned ret ∈ events ∧ ret.answerId = 1 ∧ finishes 1 events = 0 := by
  let illegible : Utf8Error := ⟨"invalid utf-8 sequence of 1 bytes from index 0"⟩
  let ret : ReturnReader := ⟨1, .ok (.exception (.ok ⟨.ok (.error illegible), .ok .failed⟩))⟩
  refine ⟨[wrote (.call 1 0 7 1 ⟨.null, []⟩) (.ok ()), returned ret], .error (.ofUtf8 illegible),
    ⟨2, true⟩, ret, ?_, ?_, rfl, rfl⟩
  · exact .request _ (.request _ (.done _))
  · exact List.mem_cons_of_mem _ List.mem_cons_self

end Libcfd.Rpc
