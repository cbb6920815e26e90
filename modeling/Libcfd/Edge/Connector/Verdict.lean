import Libcfd.Edge.Connector.Results
import Libcfd.Edge.Connector.RetryAfter
import Libcfd.Foundation.Monitor

/-!
# Whose word `run` takes

`run` does three things with the error of an attempt: it goes on to the next edge as if nothing had
been, or it counts a failure, or it gives up. Which of them is for the edge to say, in its answer to
the registration call. The errors that say so are built from that answer and nowhere else, and they
reach `run` as they were built; so `run` gives up on the edge's word only. `Ok(())` it returns on
the caller's word only.
-/

namespace Libcfd.Edge

open Libcfd.Machine Program Libcfd.Rpc

/-! ## Verdicts -/

/-- The errors that are built from the answer to a registration call. -/
def Error.isVerdict : Error → Bool
  | .duplicateConnection _ | .registration _ => true
  | _ => false

theorem isVerdict_ofRpc (e : RpcError) : (Error.ofRpc e).isVerdict = false := by
  cases e <;> rfl

theorem isVerdict_of_isPermanent {e : Error} (h : e.isPermanent = true) : e.isVerdict = true := by
  unfold Error.isPermanent at h
  split at h
  · rfl
  · cases h

/-- The edge does not want to be asked again. -/
theorem rejection_of_isPermanent {e : ConnectionError}
    (h : (Control.rejection e).isPermanent = true) :
    e.cause ≠ Control.duplicateConnectionCause ∧ e.shouldRetry = false ∧
      Control.rejection e = .registration (.permanent e.cause) := by
  have hcause : e.cause ≠ Control.duplicateConnectionCause := by
    intro hduplicate
    rw [Control.rejection, if_pos hduplicate] at h
    cases h
  have hretry := (Control.isPermanent_rejection_iff hcause).mp h
  refine ⟨hcause, hretry, ?_⟩
  rw [Control.rejection, if_neg hcause, RegistrationFailure.ofConnectionError, hretry]
  rfl

/-- The rejection the edge has answered a registration call with. -/
def rejected? (root : Root) : Option ConnectionError :=
  match Control.registerReply (.ok root) with
  | .ok (.value (.error e)) => some e
  | _ => none

/-! ## What `register_on_stream` makes of what it hears -/

/-- Whether the last thing written was a registration call, and how the first such call that was
rejected was. -/
structure Hearing where
  asked : Bool := false
  rejection : Option ConnectionError := none

def Hearing.read (s : Hearing) (root : Root) : Hearing :=
  { s with rejection := s.rejection.or (if s.asked then rejected? root else none) }

/-- It hears everything, and allows everything. -/
def hearing (E : Signature) : Monitor (wire E) where
  State := Hearing
  allows _ _ := True
  next s
    | .write message, .ok () => { s with asked := isRegistration message }
    | .read, .ok root => s.read root
    | _, _ => s

namespace Control

variable {E : Signature} {α γ : Type} {s : Hearing}

theorem conforms_onRpc {p : ClientM E α} {client : TunnelClient}
    {Q : Hearing → Except RpcError α × RpcClient → Prop}
    (h : Conforms (hearing E) s (p client.rpc) Q) :
    Conforms (hearing E) s (TunnelClient.onRpc p client) fun s out => Q s (out.1, out.2.rpc) := by
  apply Conforms.bind h
  intro s out hout
  exact hout

theorem conforms_true (p : Program (wire E) α) : Conforms (hearing E) s p fun _ _ => True := by
  induction p generalizing s with
  | done a => exact trivial
  | request op next ih => exact ⟨trivial, fun reply => ih reply⟩

section Exchange

variable {question : UInt32} {message : Message} {release : γ → Bool}
  {conclude : γ → Except RpcError α} {client : RpcClient} {settle : γ → RpcClient}

/-- Any other question says nothing about the registration. -/
theorem conforms_exchange {decode : Root → Except RpcError γ} (hasked : s.asked = false)
    (hmessage : isRegistration message = false) :
    Conforms (hearing E) s (exchange question message decode release conclude client settle)
      fun s' out => s' = s ∧ ∀ value, out.1 = .ok value →
        ∃ outcome, conclude outcome = .ok value ∧ out.2 = settle outcome := by
  obtain ⟨asked, rejection⟩ := s
  cases hasked
  refine ⟨trivial, fun sent => ?_⟩
  match sent with
  | .error e => exact ⟨rfl, fun _ => nofun⟩
  | .ok () =>
  refine ⟨trivial, fun answer => ?_⟩
  have hsent : (hearing E).next ⟨false, rejection⟩ (.write message) (.ok ()) =
      (⟨false, rejection⟩ : Hearing) := by
    show (⟨isRegistration message, rejection⟩ : Hearing) = _
    rw [hmessage]
  rw [hsent]
  match answer with
  | .error e => exact ⟨rfl, fun _ => nofun⟩
  | .ok root =>
  have hread : (hearing E).next ⟨false, rejection⟩ .read (.ok root) =
      (⟨false, rejection⟩ : Hearing) := by
    show (⟨false, rejection.or none⟩ : Hearing) = _
    rw [Option.or_none]
  rw [hread]
  dsimp only
  cases decode root with
  | error e => exact ⟨rfl, fun _ => nofun⟩
  | ok outcome =>
      refine ⟨trivial, fun finish => ?_⟩
      match finish with
      | .error e => exact ⟨rfl, fun _ => nofun⟩
      | .ok () => exact ⟨rfl, fun value hvalue => ⟨outcome, hvalue, rfl⟩⟩

/-- A rejection that is returned has been heard. -/
theorem conforms_registration {settle : CallOutcome ConnectionResponse → RpcClient}
    (hs : s.rejection = none) (hmessage : isRegistration message = true) :
    Conforms (hearing E) s
      (exchange 1 message (decodeCall · 1 decodeConnectionResponse) CallOutcome.releases
        CallOutcome.conclude client settle)
      fun s' out => ∀ response, out.1 = .ok response →
        s'.asked = false ∧ ∀ e, response = .error e → s'.rejection = some e := by
  refine ⟨trivial, fun sent => ?_⟩
  match sent with
  | .error e => exact fun _ => nofun
  | .ok () =>
  refine ⟨trivial, fun answer => ?_⟩
  match answer with
  | .error e => exact fun _ => nofun
  | .ok root =>
  dsimp only
  cases hdecode : decodeCall root 1 decodeConnectionResponse with
  | error e => exact fun _ => nofun
  | ok outcome =>
      refine ⟨trivial, fun finish => ?_⟩
      match finish with
      | .error e => exact fun _ => nofun
      | .ok () =>
      intro response hresponse
      refine ⟨rfl, ?_⟩
      rintro e rfl
      have hvalue : outcome = .value (.error e) := by
        cases outcome with
        | value response => exact congrArg CallOutcome.value (Except.ok.inj hresponse)
        | exception | unexpectedKind => cases hresponse
      have hrejected : rejected? root = some e := by
        have hreply : registerReply (.ok root) = .ok (.value (.error e)) := hvalue ▸ hdecode
        rw [rejected?, hreply]
      show s.rejection.or (if isRegistration message then rejected? root else none) = _
      rw [hs, if_pos hmessage, hrejected]
      rfl

end Exchange

/-- An error that is for the edge to say is what its rejection is turned into. -/
def Attributed (rejection? : Option ConnectionError) (e : Error) : Prop :=
  e.isVerdict = true → ∃ rejected, rejection? = some rejected ∧ e = rejection rejected

theorem attributed_of_local {rejection? : Option ConnectionError} {e : Error}
    (h : e.isVerdict = false) : Attributed rejection? e := by
  intro hverdict
  cases h.symm.trans hverdict

theorem conforms_close_done {client : TunnelClient} {e : ConnectionError} {error : Error}
    (hs : s.rejection = some e) (herror : error = rejection e) :
    Conforms (hearing E) s (client.close.bind fun _ =>
        (.done (.error error) : Program (wire E) (Except Error (ConnectionDetails × TunnelClient))))
      fun s' result => ∀ error, result = .error error → Attributed s'.rejection error := by
  have hresult : ∀ s' : Hearing, s'.rejection = some e → ∀ error',
      (.error error : Except Error (ConnectionDetails × TunnelClient)) = .error error' →
        Attributed s'.rejection error' := by
    rintro s' hs' _ ⟨⟩ _
    exact ⟨e, hs', herror⟩
  obtain ⟨⟨question, has⟩⟩ := client
  cases has with
  | false => exact hresult s hs
  | true =>
      refine ⟨trivial, fun released => ?_⟩
      match released with
      | .error _ => exact hresult _ hs
      | .ok () => exact hresult _ hs

/-- **Every error that says what `run` is to do** is the edge's answer to the registration call. -/
theorem conforms_registerOnStream {parseStr : String → Except String Uuid} {connector : Connector}
    {tunnel : Tunnel} {options : RegistrationOptions} {configurationJson : List UInt8} :
    Conforms (hearing E) {} (registerOnStream parseStr connector tunnel options configurationJson)
      fun s result => ∀ e, result = .error e → Attributed s.rejection e := by
  have hboot : Conforms (hearing E) {} (TunnelClient.bootstrap ⟨.new⟩) fun s out =>
      s = {} ∧ (out.1 = .ok () → out.2 = ⟨⟨1, true⟩⟩) := by
    refine (conforms_onRpc (Q := fun s out => s = {} ∧ (out.1 = .ok () → out.2 = ⟨1, true⟩))
      ?_).mono ?_
    · show Conforms (hearing E) {} ((RpcClient.bootstrap .new).bind _) _
      rw [bootstrap_eq rfl]
      refine (conforms_exchange rfl rfl).bind ?_
      rintro _ ⟨asked, rpc⟩ ⟨rfl, hasked⟩
      cases asked with
      | error e => exact ⟨rfl, nofun⟩
      | ok value =>
          obtain ⟨outcome, hconclude, rfl⟩ := hasked value rfl
          refine ⟨rfl, fun _ => ?_⟩
          cases outcome with
          | capability => rfl
          | exception | noCapability | unexpectedKind => cases hconclude
    · rintro s ⟨result, ⟨rpc⟩⟩ ⟨hs, hclient⟩
      exact ⟨hs, fun hok => congrArg TunnelClient.mk (hclient hok)⟩
  apply hboot.bind
  rintro _ ⟨booted, client⟩ ⟨rfl, hclient⟩
  cases booted with
  | error e =>
      rintro _ ⟨⟩
      exact attributed_of_local (isVerdict_ofRpc e)
  | ok =>
  obtain rfl := hclient rfl
  show Conforms (hearing E) {} (registerBootstrapped parseStr connector tunnel options
    configurationJson ⟨⟨1, true⟩⟩) _
  cases hid : parseTunnelIdentifier parseStr tunnel.tunnelIdentifier with
  | error e =>
      unfold registerBootstrapped
      rw [hid]
      rintro _ ⟨⟩
      unfold parseTunnelIdentifier at hid
      split at hid <;> cases hid
      exact attributed_of_local rfl
  | ok tunnelIdentifier =>
  rw [registerBootstrapped_eq hid]
  refine Conforms.bind (conforms_onRpc (Q := fun s out => ∀ response, out.1 = .ok response →
    s.asked = false ∧ ∀ e, response = .error e → s.rejection = some e) ?_) ?_
  · rw [call_eq _ _ _ _ rfl]
    exact conforms_registration rfl rfl
  · rintro s ⟨registered, client⟩ hheard
    cases registered with
    | error e =>
        rintro _ ⟨⟩
        exact attributed_of_local (isVerdict_ofRpc e)
    | ok response =>
    cases response with
    | error e =>
        have hrejection := (hheard _ rfl).2 e rfl
        unfold afterRegister
        dsimp only
        split
        · next hcause => exact conforms_close_done hrejection (if_pos hcause).symm
        · next hcause => exact conforms_close_done hrejection (if_neg hcause).symm
    | details details =>
        unfold afterRegister
        dsimp only
        split
        · exact nofun
        · refine (conforms_true _).bind ?_
          intro s out _
          exact nofun

end Control

/-! ## What an attempt returns -/

/-- `Ok(())` once the shutdown has fired, and the edge's errors on its word. -/
def Warranted (fired : Bool) (rejection? : Option ConnectionError) : Except Error Unit → Prop
  | .ok () => fired = true
  | .error e => Control.Attributed rejection? e

theorem warranted_fire {fired : Bool} {rejection? : Option ConnectionError}
    {result : Except Error Unit} (h : Warranted fired rejection? result) :
    Warranted true rejection? result := by
  cases result with
  | ok => rfl
  | error e => exact h

theorem warranted_or {fired : Bool} {rejection? heard : Option ConnectionError}
    {result : Except Error Unit} (h : Warranted fired rejection? result) :
    Warranted fired (rejection?.or heard) result := by
  cases result with
  | ok => exact h
  | error e =>
      intro hverdict
      obtain ⟨rejected, rfl, he⟩ := h hverdict
      exact ⟨rejected, rfl, he⟩

namespace Wired

/-- The rejection that is heard in the step. -/
def heard? (w : Wired) : WiredLabel → Option ConnectionError
  | .read (.ok root) => if w.hasAsked then rejected? root else none
  | _ => none

/-- The condition on a step: an error that is for the edge to say is one that `register_on_stream`
has returned. -/
def FailsLocally (w : Wired) : WiredLabel → Prop
  | .attempt label => ∀ e ∈ label.error?, e.isVerdict = true → w.hasFailed e = true
  | _ => True

structure IsWarranted (fired : Bool) (rejection? : Option ConnectionError) (w : Wired) : Prop where
  registration : Conforms (hearing noEffects) ⟨w.hasAsked, rejection?⟩ w.registration
    fun s result => ∀ e, result = .error e → Control.Attributed s.rejection e
  attempt : w.attempt.Holds (Warranted fired rejection?)

variable {fired : Bool} {rejection? : Option ConnectionError} {w w' : Wired}

theorem isWarranted_start {Address : Type} (R : Registrant Address) (transport : Transport)
    (edge : Address) (attempt : Nat) : (start R transport edge attempt).IsWarranted fired none :=
  ⟨Control.conforms_registerOnStream, Attempt.holds_start transport⟩

theorem IsWarranted.fire (h : w.IsWarranted fired rejection?) : w.IsWarranted true rejection? :=
  ⟨h.registration, h.attempt.mono fun _ => warranted_fire⟩

theorem IsWarranted.wake (h : w.IsWarranted true rejection?) :
    w.wake.IsWarranted true rejection? :=
  ⟨h.registration, Attempt.holds_wake rfl h.attempt⟩

/-- **A step of an attempt** keeps it warranted by what has been heard. -/
theorem isWarranted_step {grace : Nat} {l : WiredLabel} (h : w.IsWarranted fired rejection?)
    (hlocal : w.FailsLocally l) (hstep : w.step grace fired l = some w') :
    w'.IsWarranted fired (rejection?.or (w.heard? l)) := by
  have hregistered : ∀ e, w.hasFailed e = true → Control.Attributed rejection? e := by
    intro e hfailed
    have hregistration := h.registration
    unfold hasFailed at hfailed
    split at hfailed
    · next hdone =>
        rw [hdone] at hregistration
        exact hregistration e (congrArg Except.error (of_decide_eq_true hfailed))
    · cases hfailed
  -- nothing is heard but in a read
  have hsilent : w.heard? l = none → w'.IsWarranted fired rejection? →
      w'.IsWarranted fired (rejection?.or (w.heard? l)) := by
    intro hnone hw'
    rw [hnone, Option.or_none]
    exact hw'
  cases steps_of_step hstep with
  | attempt label hattempt =>
      obtain ⟨attempt, ha, rfl⟩ := Option.map_eq_some_iff.mp hattempt
      refine hsilent rfl ⟨h.registration, Attempt.holds_step ?_ ?_ h.attempt id ?_ ha⟩
      · exact fun _ => Control.attributed_of_local rfl
      · exact fun _ => Control.attributed_of_local rfl
      · intro e he hverdict
        exact hregistered e (hlocal e he hverdict) hverdict
  | @wrote message next hnext =>
      have hregistration := h.registration
      rw [hnext] at hregistration
      refine hsilent rfl ⟨?_, h.attempt⟩
      rw [hasAsked_append]
      exact hregistration.2 (.ok ())
  | notWritten e hnext =>
      have hregistration := h.registration
      rw [hnext] at hregistration
      exact hsilent rfl ⟨hregistration.2 (.error e), h.attempt⟩
  | read root hnext =>
      have hregistration := h.registration
      rw [hnext] at hregistration
      exact ⟨hregistration.2 (.ok root), h.attempt.mono fun _ => warranted_or⟩
  | notRead e hnext =>
      have hregistration := h.registration
      rw [hnext] at hregistration
      exact hsilent rfl ⟨hregistration.2 (.error e), h.attempt⟩

end Wired

/-! ## Runs -/

section Runs

variable {Address : Type} {opts : EdgeOptions} {R : Registrant Address}

/-- Every attempt `run` waits for does. -/
def FailsLocally (s : Run (wiredAttempts opts R)) : Label (wiredAttempts opts R) → Prop
  | .attemptStep label => ∀ w : Wired, s.phase.current = some w → w.FailsLocally label
  | _ => True

/-- The last attempt that was begun has heard this rejection. -/
def RejectedIn (past : List (Label (wiredAttempts opts R))) (rejected : ConnectionError) : Prop :=
  ∃ before label after t, past = before ++ .attemptStep label :: after ∧
    run (step opts) (Run.init opts) before = some t ∧
    (∃ w : Wired, t.phase.current = some w ∧ w.heard? label = some rejected) ∧
    ∀ l ∈ after, l.begins = false

/-- What `run` and its attempt have come to is warranted. -/
structure RunWarranted (past : List (Label (wiredAttempts opts R)))
    (s : Run (wiredAttempts opts R)) : Prop where
  reached : run (step opts) (Run.init opts) past = some s
  stored : s.fireTask ≠ .pending → s.event.isFired = true
  woken : s.phase.isWoken = true → s.event.isFired = true
  current : ∀ w : Wired, s.phase.current = some w → ∃ rejection?,
    (∀ rejected, rejection? = some rejected → RejectedIn past rejected) ∧
      w.IsWarranted s.event.isFired rejection?
  returned : ∀ result, s.phase = .returned result →
    ∃ rejection?, (∀ rejected, rejection? = some rejected → RejectedIn past rejected) ∧
      Warranted s.event.isFired rejection? result ∧ ∀ e, result = .error e → e.isPermanent = true

variable {past : List (Label (wiredAttempts opts R))} {s t : Run (wiredAttempts opts R)}
  {l : Label (wiredAttempts opts R)}

theorem RejectedIn.append {rejected : ConnectionError} (h : RejectedIn past rejected)
    (hl : l.begins = false) : RejectedIn (past ++ [l]) rejected := by
  obtain ⟨before, label, after, t, rfl, hbefore, hheard, hafter⟩ := h
  refine ⟨before, label, after ++ [l], t, by simp, hbefore, hheard, ?_⟩
  exact List.forall_mem_append.mpr ⟨hafter, List.forall_mem_singleton.mpr hl⟩

theorem reached_append (h : run (step opts) (Run.init opts) past = some s)
    (hstep : step opts s l = some t) : run (step opts) (Run.init opts) (past ++ [l]) = some t :=
  run_append_eq_some.mpr ⟨s, h, run_cons_eq_some.mpr ⟨t, hstep, rfl⟩⟩

theorem runWarranted_init : RunWarranted [] (Run.init (A := wiredAttempts opts R) opts) where
  reached := rfl
  stored h := absurd rfl h
  woken := nofun
  current _ := nofun
  returned _ := nofun

theorem runWarranted_of_returned {rejection? : Option ConnectionError}
    {result : Except Error Unit} (hreached : run (step opts) (Run.init opts) past = some s)
    (hstored : s.fireTask ≠ .pending → s.event.isFired = true) (hp : s.phase = .returned result)
    (hrejected : ∀ rejected, rejection? = some rejected → RejectedIn past rejected)
    (hwarranted : Warranted s.event.isFired rejection? result)
    (hpermanent : ∀ e, result = .error e → e.isPermanent = true) : RunWarranted past s where
  reached := hreached
  stored := hstored
  woken hw := by
    rw [hp] at hw
    cases hw
  current w hw := by
    rw [hp] at hw
    cases hw
  returned result' hp' := by
    obtain rfl := Phase.returned.inj (hp.symm.trans hp')
    exact ⟨rejection?, hrejected, hwarranted, hpermanent⟩

theorem runWarranted_step (h : RunWarranted past s) (hlocal : FailsLocally s l)
    (hstep : step opts s l = some t) : RunWarranted (past ++ [l]) t := by
  have hreached := reached_append h.reached hstep
  -- neither an attempt nor a result
  have hidle : t.phase.current = none → t.phase.isReturned = false →
      t.phase.isWoken = false → t.fireTask = s.fireTask → t.event = s.event →
        RunWarranted (past ++ [l]) t := by
    intro hcurrent hreturned hwoken hfire hevent
    refine ⟨hreached, ?_, ?_, ?_, ?_⟩
    · rw [hfire, hevent]
      exact h.stored
    · intro hw
      cases hwoken.symm.trans hw
    · intro w hw
      cases hcurrent.symm.trans hw
    · intro result hp
      rw [hp] at hreturned
      cases hreturned
  cases steps_of_step hstep with
  | storeFired hpending =>
      refine ⟨hreached, fun _ => rfl, fun _ => rfl, ?_, ?_⟩
      · intro w hw
        obtain ⟨rejection?, hrejected, hwarranted⟩ := h.current w hw
        exact ⟨rejection?, fun rejected he => (hrejected rejected he).append rfl, hwarranted.fire⟩
      · intro result hp
        obtain ⟨rejection?, hrejected, hwarranted, hpermanent⟩ := h.returned result hp
        exact ⟨rejection?, fun rejected he => (hrejected rejected he).append rfl,
          warranted_fire hwarranted, hpermanent⟩
  | notifyWaiters hstored =>
      have hfired : s.event.isFired = true := h.stored (by rw [hstored]; nofun)
      refine ⟨hreached, fun _ => hfired, fun _ => hfired, ?_, ?_⟩
      · intro w hw
        obtain ⟨before, hbefore, rfl⟩ := Option.map_eq_some_iff.mp ((current_wake _).symm.trans hw)
        obtain ⟨rejection?, hrejected, hwarranted⟩ := h.current before hbefore
        refine ⟨rejection?, fun rejected he => (hrejected rejected he).append rfl, ?_⟩
        show Wired.IsWarranted s.event.isFired rejection? (Wired.wake before)
        rw [hfired] at hwarranted ⊢
        exact hwarranted.wake
      · intro result hp
        obtain ⟨rejection?, hrejected, hreturned⟩ := h.returned result (Phase.returned_wake.mp hp)
        exact ⟨rejection?, fun rejected he => (hrejected rejected he).append rfl, hreturned⟩
  | discovered | discoveryFailed | endRound | beginSleep | slept =>
      exact hidle rfl rfl rfl rfl rfl
  | beginAttempt hp =>
      refine ⟨hreached, h.stored, nofun, ?_, fun _ => nofun⟩
      rintro _ ⟨⟩
      exact ⟨none, fun _ => nofun, Wired.isWarranted_start R _ _ _⟩
  | @attemptStep _ _ _ shutdown future future' label hp hattempt =>
      have hcurrent : s.phase.current = some future := by rw [hp]; rfl
      obtain ⟨rejection?, hrejected, hw⟩ := h.current future hcurrent
      refine ⟨hreached, h.stored, ?_, ?_, fun _ => nofun⟩
      · intro hwoken
        apply h.woken
        rw [hp]
        exact hwoken
      · rintro _ ⟨⟩
        refine ⟨rejection?.or (Wired.heard? future label), fun rejected hor => ?_,
          Wired.isWarranted_step hw (hlocal future hcurrent) hattempt⟩
        rcases Option.or_eq_some_iff.mp hor with hold | ⟨_, hheard⟩
        · exact (hrejected rejected hold).append rfl
        · refine ⟨past, label, [], s, rfl, h.reached, ⟨future, hcurrent, hheard⟩, ?_⟩
          intro l hl
          cases hl
  | @attempted transport rest quicBroken _ future outcome hp hfinished =>
      have hcurrent : s.phase.current = some future := by rw [hp]; rfl
      obtain ⟨rejection?, hrejected, hw⟩ := h.current future hcurrent
      have hresult : Warranted s.event.isFired rejection? outcome.result :=
        Attempt.of_finished hw.attempt (Bool.and_eq_true_iff.mp hfinished).1
      have hkept : ∀ rejected, rejection? = some rejected →
          RejectedIn (past ++ [.attempted outcome]) rejected :=
        fun rejected he => (hrejected rejected he).append rfl
      cases herror : outcome.result with
      | ok =>
          rw [herror] at hresult
          apply runWarranted_of_returned hreached _ (phase_afterAttempt_ok herror) hkept _ nofun
          · rw [fireTask_afterAttempt, event_afterAttempt]
            exact h.stored
          · rw [event_afterAttempt]
            exact hresult
      | error e =>
          rw [herror] at hresult
          rcases phase_afterAttempt opts transport rest quicBroken
            { s with background := s.background ++ [Wired.abandon future] } herror with
            ⟨hpermanent, hphase⟩ | ⟨_, broken, hphase⟩
          · apply runWarranted_of_returned hreached _ hphase hkept
            · rw [event_afterAttempt]
              exact hresult
            · rintro _ ⟨⟩
              exact hpermanent
            · rw [fireTask_afterAttempt, event_afterAttempt]
              exact h.stored
          · apply hidle
            · exact current_afterAttempt.1
            · exact congrArg Phase.isReturned hphase
            · exact congrArg Phase.isWoken hphase
            · exact fireTask_afterAttempt
            · exact event_afterAttempt
  | abandoned hp | stopped hp =>
      have hfired : s.event.isFired = true := h.woken (by rw [hp]; rfl)
      have hok : Warranted s.event.isFired none (.ok ()) := hfired
      apply runWarranted_of_returned hreached (fun _ => hfired) rfl _ hok
      · exact fun _ => nofun
      · exact fun _ => nofun
  | backgroundStep index label hw hattempt =>
      refine ⟨hreached, h.stored, h.woken, ?_, ?_⟩
      · intro w hw
        obtain ⟨rejection?, hrejected, hwarranted⟩ := h.current w hw
        exact ⟨rejection?, fun rejected he => (hrejected rejected he).append rfl, hwarranted⟩
      · intro result hp
        obtain ⟨rejection?, hrejected, hreturned⟩ := h.returned result hp
        exact ⟨rejection?, fun rejected he => (hrejected rejected he).append rfl, hreturned⟩

theorem runWarranted_run {ls : List (Label (wiredAttempts opts R))}
    (hrun : run (step opts) (Run.init opts) ls = some s)
    (hlocal : Always (step opts) FailsLocally (Run.init opts) ls) : RunWarranted ls s :=
  run_induction_of_always RunWarranted (fun _ _ _ _ h hl hstep => runWarranted_step h hl hstep)
    runWarranted_init hrun hlocal

/-- **`run` ends on somebody's word.** In every run in which no error but those of
`register_on_stream` is one of the edge's: `run` returns `Ok(())` only once the shutdown has fired;
it returns an error only if the edge has rejected the registration of the last attempt for good, and
then that rejection; and an attempt that ends with an error of the edge's has been rejected so. -/
theorem run_warranted {ls : List (Label (wiredAttempts opts R))} {s : Run (wiredAttempts opts R)}
    (hrun : run (step opts) (Run.init opts) ls = some s)
    (hlocal : Always (step opts) FailsLocally (Run.init opts) ls) :
    (s.phase = .returned (.ok ()) → s.event.isFired = true) ∧
    (∀ e, s.phase = .returned (.error e) → ∃ rejected, RejectedIn ls rejected ∧
      rejected.cause ≠ Control.duplicateConnectionCause ∧ rejected.shouldRetry = false ∧
      e = .registration (.permanent rejected.cause)) ∧
    ∀ before outcome after e, ls = before ++ .attempted outcome :: after →
      outcome.result = .error e → e.isVerdict = true →
        ∃ rejected, RejectedIn before rejected ∧ e = Control.rejection rejected := by
  have hall := runWarranted_run hrun hlocal
  refine ⟨fun hp => ?_, fun e hp => ?_, ?_⟩
  · obtain ⟨_, _, hfired, _⟩ := hall.returned _ hp
    exact hfired
  · obtain ⟨_, hrejected, hattributed, hpermanent⟩ := hall.returned _ hp
    obtain ⟨rejected, hsome, rfl⟩ := hattributed (isVerdict_of_isPermanent (hpermanent e rfl))
    obtain ⟨hcause, hretry, he⟩ := rejection_of_isPermanent (hpermanent _ rfl)
    exact ⟨rejected, hrejected rejected hsome, hcause, hretry, he⟩
  · rintro before outcome after e rfl he hverdict
    obtain ⟨t, hbefore, hrest⟩ := run_append_eq_some.mp hrun
    obtain ⟨u, hu, _⟩ := run_cons_eq_some.mp hrest
    cases steps_of_step hu with
    | attempted _ hp hfinished =>
        have hwarranted := runWarranted_run hbefore ((always_append hbefore).mp hlocal).1
        obtain ⟨_, hrejected, hw⟩ := hwarranted.current _ (by rw [hp]; rfl)
        have hresult := Attempt.of_finished hw.attempt (Bool.and_eq_true_iff.mp hfinished).1
        rw [he] at hresult
        obtain ⟨rejected, hsome, hrejection⟩ := hresult hverdict
        exact ⟨rejected, hrejected rejected hsome, hrejection⟩

end Runs

/-! ## A tunnel that is gone -/

instance (w : Wired) (l : WiredLabel) : Decidable (w.FailsLocally l) :=
  match l with
  | .attempt label =>
      inferInstanceAs (Decidable (∀ e ∈ label.error?, e.isVerdict = true → w.hasFailed e = true))
  | .wrote _ | .read _ => isTrue trivial

instance {Address : Type} {opts : EdgeOptions} {R : Registrant Address}
    (s : Run (wiredAttempts opts R)) (l : Label (wiredAttempts opts R)) :
    Decidable (FailsLocally s l) :=
  match l with
  | .attemptStep label =>
      inferInstanceAs (Decidable (∀ w ∈ s.phase.current, Wired.FailsLocally w label))
  | .storeFired | .notifyWaiters | .discovered _ | .discoveryFailed _ | .beginAttempt
  | .attempted _ | .endRound _ | .beginSleep | .slept | .shutdown | .backgroundStep .. =>
      isTrue trivial

def goneReader : PayloadReader where
  content :=
    { capabilityReader.content with
      registerConnectionResults :=
        .ok (.ok (.ok (.error (.ok ⟨.ok (.ok "no such tunnel"), 0, false⟩)))) }
  capTable := .ok []

def gone : Error := .registration (.permanent "no such tunnel")

/-- The first edge rejects the tunnel for good. -/
def goneRun : List (Label (wiredAttempts quicOptions someTunnel)) :=
  .discovered [(), ()] :: .beginAttempt ::
    [WiredLabel.attempt (.quic .connected), .wrote (.ok ()),
      .read (.ok (returnRoot 0 capabilityReader)), .wrote (.ok ()), .wrote (.ok ()),
      .read (.ok (returnRoot 1 goneReader)), .wrote (.ok ()), .wrote (.ok ()),
      .attempt (.quic (.registerFailed gone))].map (fun label => .attemptStep label) ++
    [.attempted ⟨.error gone, none, false⟩]

theorem run_warranted_gone :
    ∃ s, run (step quicOptions) (Run.init quicOptions) goneRun = some s ∧
      s.phase = .returned (.error gone) ∧
      ∃ rejected, RejectedIn goneRun rejected ∧ rejected.cause = "no such tunnel" := by
  obtain ⟨s, hrun, hphase⟩ : ∃ s, run (step quicOptions) (Run.init quicOptions) goneRun = some s ∧
      s.phase = .returned (.error gone) := ⟨_, rfl, rfl⟩
  have hlocal : Always (step quicOptions) FailsLocally (Run.init quicOptions) goneRun := by
    decide +kernel
  obtain ⟨rejected, hrejected, _, _, he⟩ := (run_warranted hrun hlocal).2.1 gone hphase
  have hcause := RegistrationFailure.permanent.inj (Error.registration.inj he)
  exact ⟨s, hrun, hphase, rejected, hrejected, hcause.symm⟩

/-! ## A tunnel identifier that is no UUID

`register_on_stream` parses it only after the bootstrap, and then says nothing more to the edge. -/

def Run.Attempts {Address : Type} {A : AttemptModel Address} (P : A.Future → Prop) (s : Run A) :
    Prop :=
  (∀ a, s.phase.current = some a → P a) ∧ ∀ a ∈ s.background, P a

/-- What every attempt is begun with and keeps is had by all attempts of a run. -/
theorem attempts_step {Address : Type} {A : AttemptModel Address} {P : A.Future → Prop}
    {opts : EdgeOptions} {s t : Run A} {l : Label A}
    (hstart : ∀ transport edge attempt, P (A.start transport edge attempt))
    (hstep : ∀ fired a label b, P a → A.step fired a label = some b → P b)
    (hwake : ∀ a, P a → P (A.wake a)) (habandon : ∀ a, P a → P (A.abandon a))
    (h : s.Attempts P) (ht : step opts s l = some t) : t.Attempts P := by
  have hleft : ∀ {future}, s.phase.current = some future →
      ∀ a ∈ s.background ++ [A.abandon future], P a := by
    intro future hfuture
    refine List.forall_mem_append.mpr ⟨h.2, List.forall_mem_singleton.mpr ?_⟩
    exact habandon future (h.1 future hfuture)
  cases steps_of_step ht with
  | storeFired => exact h
  | notifyWaiters =>
      constructor
      · intro a ha
        obtain ⟨before, hbefore, rfl⟩ := Option.map_eq_some_iff.mp ((current_wake _).symm.trans ha)
        exact hwake before (h.1 before hbefore)
      · intro a ha
        obtain ⟨before, hbefore, rfl⟩ := List.mem_map.mp ha
        exact hwake before (h.2 before hbefore)
  | discovered | discoveryFailed | endRound | beginSleep | slept | stopped => exact ⟨nofun, h.2⟩
  | beginAttempt =>
      refine ⟨?_, h.2⟩
      rintro _ ⟨⟩
      exact hstart _ _ _
  | attemptStep label hp hattempt =>
      refine ⟨?_, h.2⟩
      rintro _ ⟨⟩
      exact hstep _ _ label _ (h.1 _ (by rw [hp]; rfl)) hattempt
  | @attempted _ _ _ _ future outcome hp =>
      refine ⟨fun a ha => ?_, ?_⟩
      · cases current_afterAttempt.1.symm.trans ha
      · rw [current_afterAttempt.2.1]
        exact hleft (by rw [hp]; rfl)
  | abandoned hp => exact ⟨nofun, hleft (by rw [hp]; rfl)⟩
  | backgroundStep index label hindex hattempt =>
      refine ⟨h.1, fun a ha => ?_⟩
      rcases List.mem_or_eq_of_mem_set ha with hold | rfl
      · exact h.2 a hold
      · exact hstep _ _ label _ (h.2 _ (List.mem_of_getElem? hindex)) hattempt

/-- It has not registered, and will not. -/
structure Wired.NeverAsks (w : Wired) : Prop where
  registration : w.registration.Requests fun op => ¬ SendsRegistration op
  written : ∀ message ∈ w.written, isRegistration message = false

theorem neverAsks_start {Address : Type} {R : Registrant Address}
    (hparse : ∀ uuid, R.parseStr R.tunnel.tunnelIdentifier ≠ .ok uuid) (transport : Transport)
    (edge : Address) (attempt : Nat) : (Wired.start R transport edge attempt).NeverAsks := by
  refine ⟨?_, fun _ hmem => absurd hmem List.not_mem_nil⟩
  apply Requests.bind
  · apply Control.requests_booted
    · exact id
    · exact fun _ => nofun
    · exact fun _ _ => nofun
  · rintro ⟨booted, client⟩
    cases booted with
    | error e => exact trivial
    | ok =>
        show (Control.registerBootstrapped _ _ _ _ _ client).Requests _
        unfold Control.registerBootstrapped Control.parseTunnelIdentifier
        cases hid : R.parseStr R.tunnel.tunnelIdentifier with
        | ok uuid => exact absurd hid (hparse uuid)
        | error e => exact trivial

theorem neverAsks_step {grace : Nat} {fired : Bool} {w w' : Wired} {l : WiredLabel}
    (h : w.NeverAsks) (hstep : w.step grace fired l = some w') : w'.NeverAsks := by
  have hrest := h.registration
  cases Wired.steps_of_step hstep with
  | attempt label hattempt =>
      obtain ⟨attempt, _, rfl⟩ := Option.map_eq_some_iff.mp hattempt
      exact ⟨h.registration, h.written⟩
  | @wrote message next hnext =>
      rw [hnext] at hrest
      refine ⟨hrest.2 (.ok ()), List.forall_mem_append.mpr ⟨h.written, ?_⟩⟩
      exact List.forall_mem_singleton.mpr (not_sendsRegistration_iff.mp hrest.1)
  | notWritten e hnext =>
      rw [hnext] at hrest
      exact ⟨hrest.2 (.error e), h.written⟩
  | read root hnext =>
      rw [hnext] at hrest
      exact ⟨hrest.2 (.ok root), h.written⟩
  | notRead e hnext =>
      rw [hnext] at hrest
      exact ⟨hrest.2 (.error e), h.written⟩

theorem Wired.NeverAsks.heard {w : Wired} (h : w.NeverAsks) (l : WiredLabel) :
    w.heard? l = none := by
  have hasked : w.hasAsked = false := by
    unfold hasAsked
    cases hlast : w.written.getLast? with
    | none => rfl
    | some message => exact h.written message (List.mem_of_getLast? hlast)
  unfold heard?
  split
  · rw [hasked]
    rfl
  · rfl

theorem neverAsks_run {Address : Type} {opts : EdgeOptions} {R : Registrant Address}
    {ls : List (Label (wiredAttempts opts R))} {s : Run (wiredAttempts opts R)}
    (hparse : ∀ uuid, R.parseStr R.tunnel.tunnelIdentifier ≠ .ok uuid)
    (hrun : run (step opts) (Run.init opts) ls = some s) : s.Attempts Wired.NeverAsks := by
  refine run_invariant (Run.Attempts (A := wiredAttempts opts R) Wired.NeverAsks) ?_ ?_ hrun
  · intro s l t
    apply attempts_step
    · exact neverAsks_start hparse
    · exact fun _ _ _ _ => neverAsks_step
    · exact fun _ hw => ⟨hw.1, hw.2⟩
    · exact fun _ hw => ⟨hw.1, hw.2⟩
  · have hnone : (Run.init opts : Run (wiredAttempts opts R)).phase.current = none := rfl
    refine ⟨fun w hw => ?_, fun w hw => absurd hw List.not_mem_nil⟩
    cases hnone.symm.trans hw

/-- **A tunnel without a UUID is never registered, and `run` never says so**: no attempt of the run
sends a registration call, and no error is returned, however long it is tried. -/
theorem run_unparsed {Address : Type} {opts : EdgeOptions} {R : Registrant Address}
    {ls : List (Label (wiredAttempts opts R))} {s : Run (wiredAttempts opts R)}
    (hparse : ∀ uuid, R.parseStr R.tunnel.tunnelIdentifier ≠ .ok uuid)
    (hrun : run (step opts) (Run.init opts) ls = some s)
    (hlocal : Always (step opts) FailsLocally (Run.init opts) ls) :
    (s.Attempts fun w : Wired => ∀ message ∈ w.written, isRegistration message = false) ∧
      ∀ e, s.phase ≠ .returned (.error e) := by
  constructor
  · obtain ⟨hcurrent, hbackground⟩ := neverAsks_run hparse hrun
    exact ⟨fun w hw => (hcurrent w hw).written, fun w hw => (hbackground w hw).written⟩
  · intro e hp
    obtain ⟨_, hrejected, hattributed, hpermanent⟩ := (runWarranted_run hrun hlocal).returned _ hp
    obtain ⟨rejected, hsome, _⟩ := hattributed (isVerdict_of_isPermanent (hpermanent e rfl))
    obtain ⟨before, label, after, t, _, hbefore, ⟨w, hw, hheard⟩, _⟩ := hrejected rejected hsome
    cases (((neverAsks_run hparse hbefore).1 w hw).heard label).symm.trans hheard

def unparsedTunnel : Registrant Unit := { someTunnel with parseStr := fun _ => .error "no UUID" }

def unopened : Error := .quic "no control stream"

/-- A round in which the control stream is not opened, and one in which the edge waits for a
registration. -/
def unparsedRun : List (Label (wiredAttempts quicOptions unparsedTunnel)) :=
  [.discovered [()], .beginAttempt, .attemptStep (.attempt (.quic .connected)),
      .attemptStep (.attempt (.quic (.registerFailed unopened))),
      .attempted ⟨.error unopened, none, false⟩, .endRound 0, .beginSleep, .slept,
      .discovered [()], .beginAttempt] ++
    [WiredLabel.attempt (.quic .connected), .wrote (.ok ()),
      .read (.ok (returnRoot 0 capabilityReader)), .wrote (.ok ())].map fun label =>
        .attemptStep label

theorem run_unparsed_again :
    ∃ s, run (step quicOptions) (Run.init quicOptions) unparsedRun = some s ∧
      s.phase.isWaiting = true ∧ s.background.length = 1 ∧
      s.Attempts fun w : Wired => ∀ message ∈ w.written, isRegistration message = false := by
  obtain ⟨s, hrun, hwaiting, hlength⟩ :
      ∃ s, run (step quicOptions) (Run.init quicOptions) unparsedRun = some s ∧
        s.phase.isWaiting = true ∧ s.background.length = 1 := ⟨_, rfl, rfl, rfl⟩
  have hlocal : Always (step quicOptions) FailsLocally (Run.init quicOptions) unparsedRun := by
    decide +kernel
  have hparse : ∀ uuid, unparsedTunnel.parseStr unparsedTunnel.tunnel.tunnelIdentifier ≠
      .ok uuid := by
    intro uuid h
    have herror : (.error "no UUID" : Except String Control.Uuid) = .ok uuid := h
    cases herror
  exact ⟨s, hrun, hwaiting, hlength, (run_unparsed hparse hrun hlocal).1⟩

end Libcfd.Edge
