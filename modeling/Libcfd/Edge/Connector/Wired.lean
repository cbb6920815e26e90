import Libcfd.Edge.Connector.Registered
import Libcfd.Edge.Connector.Shutdown

/-!
# Attempts that register over the wire

The attempts of the two transports, each with its `register_on_stream`, which is run over the control
stream one request at a time. What it returns is what the attempt is told. It sends one registration
call at most, and nothing once the attempt has ended.
-/

namespace Libcfd.Edge

open Program Libcfd.Rpc
open Libcfd.Edge.H2 (ControlTask)

variable {Address : Type}

/-! ## What passes between an attempt and its edge -/

/-- A registration call is sent, or a registration is rejected and to be tried again after so many
nanoseconds. -/
inductive Notice where
  | call
  | retryAfter (nanos : Nat)
  deriving DecidableEq, Repr

def isRegistration : Message → Bool
  | .call _ _ interfaceId methodId _ =>
      interfaceId == registrationServerInterfaceId && methodId == methodRegisterConnection
  | _ => false

def SendsRegistration : (wire noEffects).Op → Prop
  | .write message => isRegistration message = true
  | _ => False

/-- `register_on_stream` sends one registration call at most. -/
theorem once_sendsRegistration {parseStr : String → Except String Control.Uuid}
    {connector : Control.Connector} {tunnel : Control.Tunnel}
    {options : Control.RegistrationOptions} {configurationJson : List UInt8} :
    (Control.registerOnStream parseStr connector tunnel options configurationJson).Once
      SendsRegistration := by
  apply Control.once_registerOnStream
  · exact id
  · exact fun _ => nofun
  · exact fun _ _ => nofun
  · exact nofun
  · intro question h
    have hmethod : (methodUpdateLocalConfiguration == methodRegisterConnection) = false := rfl
    simp [SendsRegistration, isRegistration, hmethod] at h

/-- The delay that the answer to a registration call asks for. -/
def retryAfter? (root : Root) : Option Nat :=
  match Control.registerReply (.ok root) with
  | .ok (.value (.error e)) => if e.shouldRetry then some e.retryAfter.toInt.toNat else none
  | _ => none

/-! ## Registering over the control stream -/

def H2.ControlTask.isRegistering (task : ControlTask) : Bool :=
  match task.phase with
  | .registering _ => true
  | _ => false

namespace Attempt

/-- Inside `register_on_stream`. -/
def isRegistering : Attempt → Bool
  | .quic (.registering ..) => true
  | .h2 (.running _ _ serve) => serve.controlTask.any ControlTask.isRegistering
  | _ => false

/-- The connection takes what is written: a dropped h2 connection does not. -/
def takes : Attempt → Bool
  | .h2 (.running _ _ serve) => !serve.phase.isOver
  | _ => true

/-- What the edge has sent comes in: an h2 connection reads inside the `select!` only. -/
def delivers : Attempt → Bool
  | .h2 (.running _ _ serve) =>
      match serve.phase with
      | .selecting .. => true
      | _ => false
  | _ => true

/-- Time passes. -/
def elapse (nanos : Nat) (a : Attempt) : Attempt :=
  match a with
  | .quic _ => (a.step 0 false (.quic (.elapse nanos))).getD a
  | .h2 _ => (a.step 0 false (.h2 (.serve (.elapse nanos)))).getD a

end Attempt

/-- What `run` registers with. -/
structure Registrant (Address : Type) where
  -- `uuid::Uuid::parse_str`
  parseStr : String → Except String Control.Uuid
  connector : Control.Connector
  tunnel : Control.Tunnel
  configurationJson : List UInt8
  originLocalIp : Transport → Address → List UInt8

/-- An attempt with what is left of its `register_on_stream`, and what that has written. -/
structure Wired extends Registering where
  registration : Program (wire noEffects) (Except Error (ConnectionDetails × TunnelClient))
  written : List Message

inductive WiredLabel where
  | attempt (label : AttemptLabel)
  -- a request of `register_on_stream` is answered
  | wrote (result : Except RpcError Unit)
  | read (result : Except RpcError Root)

namespace Wired

def start (R : Registrant Address) (transport : Transport) (edge : Address) (attempt : Nat) :
    Wired where
  toRegistering := Registering.start R.originLocalIp transport edge attempt
  registration := Control.registerOnStream R.parseStr R.connector R.tunnel
    (Registering.start R.originLocalIp transport edge attempt).options R.configurationJson
  written := []

/-- `register_on_stream` has returned `Ok`. -/
def hasRegistered (w : Wired) : Bool :=
  match w.registration with
  | .done (.ok _) => true
  | _ => false

def hasFailed (w : Wired) (error : Error) : Bool :=
  match w.registration with
  | .done (.error e) => decide (e = error)
  | _ => false

/-- The attempt is told what `register_on_stream` has returned. -/
def admits (w : Wired) : AttemptLabel → Bool
  | .quic (.registered _) | .h2 (.serve (.control .registered)) => w.hasRegistered
  -- the control stream may not have been opened
  | .quic (.registerFailed error) => w.hasFailed error || w.written.isEmpty
  | .h2 (.serve (.control (.registrationFailed error))) => w.hasFailed error
  -- time passes for all alike
  | .quic (.elapse _) | .h2 (.serve (.elapse _)) => false
  | _ => true

def afterWrite (w : Wired) (result : Except RpcError Unit) : Option Wired :=
  match w.registration with
  | .request (.write message) next =>
      some { w with
        registration := next result
        written := if result.isOk then w.written ++ [message] else w.written }
  | _ => none

def afterRead (w : Wired) (result : Except RpcError Root) : Option Wired :=
  match w.registration with
  | .request .read next => some { w with registration := next result }
  | _ => none

def step (grace : Nat) (fired : Bool) (w : Wired) : WiredLabel → Option Wired
  | .attempt label =>
      if w.admits label then
        (w.toRegistering.step grace fired label).map fun r => { w with toRegistering := r }
      else none
  | .wrote result =>
      if w.attempt.isRegistering && (w.attempt.takes || !result.isOk) then w.afterWrite result
      else none
  | .read result =>
      if w.attempt.isRegistering && (w.attempt.delivers || !result.isOk) then w.afterRead result
      else none

def wake (w : Wired) : Wired := { w with toRegistering := w.toRegistering.wake }

def finished (w : Wired) (outcome : ServeAttempt) : Bool := w.toRegistering.finished outcome

def abandon (w : Wired) : Wired := { w with toRegistering := w.toRegistering.abandon }

def elapse (nanos : Nat) (w : Wired) : Wired := { w with attempt := w.attempt.elapse nanos }

/-- The last thing written is the registration call. -/
def hasAsked (w : Wired) : Bool := w.written.getLast?.any isRegistration

/-- What passes in the step. -/
def notice? (w : Wired) : WiredLabel → Option Notice
  | .wrote (.ok ()) =>
      match w.registration with
      | .request (.write message) _ => if isRegistration message then some .call else none
      | _ => none
  | .read (.ok root) => if w.hasAsked then (retryAfter? root).map .retryAfter else none
  | _ => none

/-! ### What a step can do -/

inductive Steps (grace : Nat) (fired : Bool) (w : Wired) : WiredLabel → Wired → Prop
  | attempt {r : Registering} (label : AttemptLabel)
      (hstep : w.toRegistering.step grace fired label = some r) :
      Steps grace fired w (.attempt label) { w with toRegistering := r }
  | wrote {message : Message}
      {next : Except RpcError Unit →
        Program (wire noEffects) (Except Error (ConnectionDetails × TunnelClient))}
      (h : w.registration = .request (S := wire noEffects) (.write message) next)
      (hregistering : w.attempt.isRegistering = true) (htakes : w.attempt.takes = true) :
      Steps grace fired w (.wrote (.ok ()))
        { w with registration := next (.ok ()), written := w.written ++ [message] }
  | notWritten {message : Message}
      {next : Except RpcError Unit →
        Program (wire noEffects) (Except Error (ConnectionDetails × TunnelClient))}
      (e : RpcError) (h : w.registration = .request (S := wire noEffects) (.write message) next) :
      Steps grace fired w (.wrote (.error e)) { w with registration := next (.error e) }
  | read {next : Except RpcError Root →
        Program (wire noEffects) (Except Error (ConnectionDetails × TunnelClient))}
      (root : Root) (h : w.registration = .request (S := wire noEffects) .read next)
      (hregistering : w.attempt.isRegistering = true) (hdelivers : w.attempt.delivers = true) :
      Steps grace fired w (.read (.ok root)) { w with registration := next (.ok root) }
  | notRead {next : Except RpcError Root →
        Program (wire noEffects) (Except Error (ConnectionDetails × TunnelClient))}
      (e : RpcError) (h : w.registration = .request (S := wire noEffects) .read next) :
      Steps grace fired w (.read (.error e)) { w with registration := next (.error e) }

theorem steps_of_step {grace : Nat} {fired : Bool} {w w' : Wired} {l : WiredLabel}
    (h : w.step grace fired l = some w') : Steps grace fired w l w' := by
  cases l with
  | attempt label =>
      obtain ⟨_, h⟩ := Option.ite_none_right_eq_some.mp h
      obtain ⟨r, hstep, rfl⟩ := Option.map_eq_some_iff.mp h
      exact .attempt label hstep
  | wrote result =>
      obtain ⟨hopen, h⟩ := Option.ite_none_right_eq_some.mp h
      obtain ⟨hregistering, htakes⟩ := Bool.and_eq_true_iff.mp hopen
      unfold afterWrite at h
      split at h
      · next heq =>
        obtain rfl := Option.some.inj h
        match result with
        | .ok () => exact .wrote heq hregistering (by simpa [Except.isOk, Except.toBool] using htakes)
        | .error e => exact .notWritten e heq
      · cases h
  | read result =>
      obtain ⟨hopen, h⟩ := Option.ite_none_right_eq_some.mp h
      obtain ⟨hregistering, hdelivers⟩ := Bool.and_eq_true_iff.mp hopen
      unfold afterRead at h
      split at h
      · next heq =>
        obtain rfl := Option.some.inj h
        match result with
        | .ok root =>
            exact .read root heq hregistering (by simpa [Except.isOk, Except.toBool] using hdelivers)
        | .error e => exact .notRead e heq
      · cases h

end Wired

/-! ## Attempts that have ended -/

namespace Attempt

/-- Nothing is registered any more. -/
def isSettled : Attempt → Bool
  | .quic .connecting | .quic (.registering ..) | .h2 .connecting => false
  | .h2 (.running _ _ serve) => serve.phase.isOver
  | _ => true

/-- An h2 attempt that has returned has left no `serve` running. -/
def JoinsServe : Attempt → Prop
  | .h2 attempt => attempt.JoinsServe
  | .quic _ => True

theorem not_isSettled_of_takes {a : Attempt} (hregistering : a.isRegistering = true)
    (htakes : a.takes = true) : a.isSettled = false := by
  cases a with
  | quic attempt => cases attempt <;> first | rfl | cases hregistering
  | h2 attempt =>
      cases attempt with
      | running phase registeredAt serve => simpa [takes, isSettled] using htakes
      | _ => cases hregistering

theorem takes_of_delivers {a : Attempt} (h : a.delivers = true) : a.takes = true := by
  cases a with
  | quic attempt => rfl
  | h2 attempt =>
      cases attempt with
      | running phase registeredAt serve =>
          unfold delivers at h
          dsimp only at h
          split at h
          · next hp => simp [takes, hp, H2.Phase.isOver]
          · cases h
      | _ => rfl

theorem not_isSettled_of_isDialing {a : QuicAttempt} (h : a.isDialing = true) :
    (quic a).isSettled = false := by
  cases a <;> first | rfl | cases h

theorem isSettled_step {grace : Nat} {fired : Bool} {a b : Attempt} {l : AttemptLabel}
    (h : a.isSettled = true) (hstep : a.step grace fired l = some b) : b.isSettled = true := by
  cases steps_of_step hstep with
  | dial l ha => cases (not_isSettled_of_isDialing ha).symm.trans h
  | register _ _ ha => cases (not_isSettled_of_isDialing ha).symm.trans h
  | serving => rfl
  | h2 l hh2 =>
      cases H2Attempt.steps_of_step hh2 with
      | connected | connectFailed => cases h
      | serve _ _ _ _ hserve => exact H2.Serve.isOver_step h hserve
      | stopElapsed => exact H2.Serve.isOver_abort _
      | _ => exact h

theorem isSettled_wake {a : Attempt} (h : a.isSettled = true) : a.wake.isSettled = true := by
  cases a with
  | quic attempt => cases attempt <;> first | rfl | cases h
  | h2 attempt =>
      cases attempt with
      | running phase registeredAt serve =>
          have hover : serve.wake.phase.isOver = true := (H2.Serve.isOver_wake serve).trans h
          cases phase <;> exact hover
      | _ => exact h

theorem isSettled_abandon {a : Attempt} (h : a.isSettled = true) : a.abandon.isSettled = true := by
  cases a with
  | quic attempt => cases attempt <;> rfl
  | h2 attempt =>
      cases attempt with
      | running phase registeredAt serve => cases phase <;> exact h
      | _ => first | exact h | rfl

theorem joinsServe_start (transport : Transport) : (Attempt.start transport).JoinsServe := by
  cases transport <;> trivial

theorem joinsServe_step {grace : Nat} {fired : Bool} {a b : Attempt} {l : AttemptLabel}
    (h : a.JoinsServe) (hstep : a.step grace fired l = some b) : b.JoinsServe := by
  cases steps_of_step hstep with
  | dial | register | serving => trivial
  | h2 l hh2 => exact H2Attempt.JoinsServe.step h hh2

theorem joinsServe_wake {a : Attempt} (h : a.JoinsServe) : a.wake.JoinsServe := by
  cases a with
  | quic attempt => trivial
  | h2 attempt => exact endsSilent_wake (a := .h2 attempt) h

/-- What a returned attempt leaves in the background registers nothing. -/
theorem isSettled_of_finished {a : Attempt} {outcome : ServeAttempt} (h : a.JoinsServe)
    (hfinished : a.finished outcome = true) : a.abandon.isSettled = true := by
  cases a with
  | quic attempt => cases attempt <;> rfl
  | h2 attempt =>
      cases attempt with
      | connecting => cases hfinished
      | running phase registeredAt serve =>
          cases phase with
          | finished => exact h.2
          | _ => cases hfinished
      | _ => rfl

/-- The clock moves by a step of the attempt, if it runs. -/
theorem elapse_eq_or_step (nanos : Nat) (a : Attempt) :
    a.elapse nanos = a ∨ ∃ l, a.step 0 false l = some (a.elapse nanos) := by
  have hgetD : ∀ l, (a.step 0 false l).getD a = a ∨
      ∃ l', a.step 0 false l' = some ((a.step 0 false l).getD a) := by
    intro l
    cases hstep : a.step 0 false l with
    | none => exact .inl rfl
    | some b => exact .inr ⟨l, by rw [hstep]; rfl⟩
  cases a with
  | quic attempt => exact hgetD (.quic (.elapse nanos))
  | h2 attempt => exact hgetD (.h2 (.serve (.elapse nanos)))

theorem isSettled_elapse {a : Attempt} (nanos : Nat) (h : a.isSettled = true) :
    (a.elapse nanos).isSettled = true := by
  rcases elapse_eq_or_step nanos a with heq | ⟨l, hstep⟩
  · rw [heq]
    exact h
  · exact isSettled_step h hstep

theorem joinsServe_elapse {a : Attempt} (nanos : Nat) (h : a.JoinsServe) :
    (a.elapse nanos).JoinsServe := by
  rcases elapse_eq_or_step nanos a with heq | ⟨l, hstep⟩
  · rw [heq]
    exact h
  · exact joinsServe_step h hstep

end Attempt

/-- Nothing passes in the steps of a settled attempt, and it stays settled. -/
theorem Wired.isSettled_step {grace : Nat} {fired : Bool} {w w' : Wired} {l : WiredLabel}
    (h : w.attempt.isSettled = true) (hstep : w.step grace fired l = some w') :
    w'.attempt.isSettled = true ∧ w.notice? l = none := by
  have hopen : w.attempt.isRegistering = true → w.attempt.takes = true → False := by
    intro hregistering htakes
    cases (Attempt.not_isSettled_of_takes hregistering htakes).symm.trans h
  cases steps_of_step hstep with
  | attempt label hattempt =>
      obtain ⟨attempt, ha, rfl⟩ := Option.map_eq_some_iff.mp hattempt
      exact ⟨Attempt.isSettled_step h ha, rfl⟩
  | wrote _ hregistering htakes => exact absurd htakes (hopen hregistering)
  | read root _ hregistering hdelivers =>
      exact absurd (Attempt.takes_of_delivers hdelivers) (hopen hregistering)
  | notWritten | notRead => exact ⟨h, rfl⟩

theorem Wired.joinsServe_step {grace : Nat} {fired : Bool} {w w' : Wired} {l : WiredLabel}
    (h : w.attempt.JoinsServe) (hstep : w.step grace fired l = some w') :
    w'.attempt.JoinsServe := by
  cases steps_of_step hstep with
  | attempt label hattempt =>
      obtain ⟨attempt, ha, rfl⟩ := Option.map_eq_some_iff.mp hattempt
      exact Attempt.joinsServe_step h ha
  | wrote | notWritten | read | notRead => exact h

/-- The attempts of `edgeAttempts` over the wire. -/
abbrev wiredAttempts (opts : EdgeOptions) (R : Registrant Address) : AttemptModel Address where
  Future := Wired
  Label := WiredLabel
  start := Wired.start R
  wake := Wired.wake
  step := Wired.step opts.gracePeriod
  finished := Wired.finished
  abandon := Wired.abandon

end Libcfd.Edge
