/-!
# Programs: typed requests and what is done with the replies

A program is a tree: it is done, or it makes a request and goes on with the reply. It says nothing
about who replies. `Exec` runs a program against any replies at all and records them, `interpret`
runs it against an environment with a state, and `handle` replaces every request by a program over
a lower signature. A bind rule for each takes a program apart where another goes on with its result.
-/

namespace Libcfd

/-- Requests, and the type of the reply to each. -/
structure Signature where
  Op : Type
  Reply : Op → Type

inductive Program (S : Signature) (α : Type) where
  | done (value : α)
  | request (op : S.Op) (next : S.Reply op → Program S α)

namespace Program

variable {S T : Signature} {α β γ : Type}

/-- A request as a program of its own. -/
def perform (op : S.Op) : Program S (S.Reply op) := .request op .done

def bind : Program S α → (α → Program S β) → Program S β
  | .done value, f => f value
  | .request op next, f => .request op fun reply => (next reply).bind f

instance : Monad (Program S) where
  pure := .done
  bind := bind

@[simp] theorem pure_eq_done (value : α) : (pure value : Program S α) = .done value := rfl

@[simp] theorem bind_eq (p : Program S α) (f : α → Program S β) : p >>= f = p.bind f := rfl

@[simp] theorem bind_done (value : α) (f : α → Program S β) : (done value).bind f = f value := rfl

@[simp] theorem bind_request (op : S.Op) (next : S.Reply op → Program S α)
    (f : α → Program S β) :
    (request op next).bind f = .request op fun reply => (next reply).bind f := rfl

@[simp] theorem bind_perform (op : S.Op) (f : S.Reply op → Program S β) :
    (perform op).bind f = .request op f := rfl

theorem bind_assoc (p : Program S α) (f : α → Program S β) (g : β → Program S γ) :
    (p.bind f).bind g = p.bind fun value => (f value).bind g := by
  induction p with
  | done value => rfl
  | request op next ih =>
      rw [bind_request, bind_request, bind_request]
      congr 1
      funext reply
      exact ih reply

/-! ## Executions against arbitrary replies -/

/-- A request with the reply it got. -/
def Event (S : Signature) : Type := (op : S.Op) × S.Reply op

/-- `Exec p trace value`: with the replies recorded in `trace`, the program `p` is done with
`value`. -/
inductive Exec : Program S α → List (Event S) → α → Prop
  | done (value : α) : Exec (.done value) [] value
  | request {op : S.Op} {next : S.Reply op → Program S α} {trace : List (Event S)} {value : α}
      (reply : S.Reply op) (h : Exec (next reply) trace value) :
      Exec (.request op next) (⟨op, reply⟩ :: trace) value

@[simp] theorem exec_done_iff {value value' : α} {trace : List (Event S)} :
    Exec (.done value) trace value' ↔ trace = [] ∧ value' = value := by
  constructor
  · rintro ⟨⟩
    exact ⟨rfl, rfl⟩
  · rintro ⟨rfl, rfl⟩
    exact .done value'

theorem exec_request_iff {op : S.Op} {next : S.Reply op → Program S α} {trace : List (Event S)}
    {value : α} :
    Exec (.request op next) trace value ↔
      ∃ reply rest, trace = ⟨op, reply⟩ :: rest ∧ Exec (next reply) rest value := by
  constructor
  · rintro (_ | ⟨reply, h⟩)
    exact ⟨reply, _, rfl, h⟩
  · rintro ⟨reply, rest, rfl, h⟩
    exact .request reply h

theorem exec_bind_iff {p : Program S α} {f : α → Program S β} {trace : List (Event S)}
    {value : β} :
    Exec (p.bind f) trace value ↔
      ∃ first a second, trace = first ++ second ∧ Exec p first a ∧ Exec (f a) second value := by
  induction p generalizing trace with
  | done a =>
      constructor
      · intro h
        exact ⟨[], a, trace, rfl, .done a, h⟩
      · rintro ⟨first, a', second, rfl, hp, h⟩
        obtain ⟨rfl, rfl⟩ := exec_done_iff.mp hp
        exact h
  | request op next ih =>
      rw [bind_request, exec_request_iff]
      constructor
      · rintro ⟨reply, rest, rfl, h⟩
        obtain ⟨first, a, second, rfl, hp, hf⟩ := (ih reply).mp h
        exact ⟨⟨op, reply⟩ :: first, a, second, rfl, .request reply hp, hf⟩
      · rintro ⟨first, a, second, rfl, hp, hf⟩
        obtain ⟨reply, rest, rfl, h⟩ := exec_request_iff.mp hp
        exact ⟨reply, rest ++ second, rfl, (ih reply).mpr ⟨rest, a, second, rfl, h, hf⟩⟩

/-! ## What a program can ask for -/

/-- Every request the program can make is a `P`. -/
def Requests (P : S.Op → Prop) : Program S α → Prop
  | .done _ => True
  | .request op next => P op ∧ ∀ reply, (next reply).Requests P

variable {P : S.Op → Prop}

theorem Requests.bind {p : Program S α} {f : α → Program S β} (hp : p.Requests P)
    (hf : ∀ value, (f value).Requests P) : (p.bind f).Requests P := by
  induction p with
  | done value => exact hf value
  | request op next ih => exact ⟨hp.1, fun reply => ih reply (hp.2 reply)⟩

theorem Requests.of_exec {p : Program S α} {trace : List (Event S)} {value : α}
    (hp : p.Requests P) (h : Exec p trace value) : ∀ event ∈ trace, P event.1 := by
  induction h with
  | done value => exact fun event hevent => absurd hevent List.not_mem_nil
  | request reply h ih =>
      intro event hevent
      rcases List.mem_cons.mp hevent with rfl | hrest
      · exact hp.1
      · exact ih (hp.2 reply) event hrest

/-- At most one of the requests the program comes to make is a `P`. -/
def Once (P : S.Op → Prop) : Program S α → Prop
  | .done _ => True
  | .request op next =>
      (P op ∧ ∀ reply, (next reply).Requests fun op => ¬ P op) ∨
        (¬ P op ∧ ∀ reply, (next reply).Once P)

theorem Requests.once {p : Program S α} (h : p.Requests fun op => ¬ P op) : p.Once P := by
  induction p with
  | done value => exact trivial
  | request op next ih => exact .inr ⟨h.1, fun reply => ih reply (h.2 reply)⟩

/-- The one request is made by the second program. -/
theorem Requests.bind_once {p : Program S α} {f : α → Program S β}
    (hp : p.Requests fun op => ¬ P op) (hf : ∀ value, (f value).Once P) : (p.bind f).Once P := by
  induction p with
  | done value => exact hf value
  | request op next ih => exact .inr ⟨hp.1, fun reply => ih reply (hp.2 reply)⟩

/-- The one request is made by the first program. -/
theorem Once.bind {p : Program S α} {f : α → Program S β} (hp : p.Once P)
    (hf : ∀ value, (f value).Requests fun op => ¬ P op) : (p.bind f).Once P := by
  induction p with
  | done value => exact (hf value).once
  | request op next ih =>
      rcases hp with ⟨hop, hnext⟩ | ⟨hop, hnext⟩
      · exact .inl ⟨hop, fun reply => (hnext reply).bind hf⟩
      · exact .inr ⟨hop, fun reply => ih reply (hnext reply)⟩

/-! ## Environments with a state -/

/-- Answer every request from a state. -/
def interpret {σ : Type} (env : (op : S.Op) → σ → S.Reply op × σ) :
    Program S α → σ → α × σ
  | .done value, s => (value, s)
  | .request op next, s => (next (env op s).1).interpret env (env op s).2

theorem interpret_bind {σ : Type} (env : (op : S.Op) → σ → S.Reply op × σ) (p : Program S α)
    (f : α → Program S β) (s : σ) :
    (p.bind f).interpret env s = (f (p.interpret env s).1).interpret env (p.interpret env s).2 := by
  induction p generalizing s with
  | done value => rfl
  | request op next ih =>
      rw [bind_request, interpret, interpret]
      exact ih _ _

/-! ## Loops -/

/-- Go round until the body returns a value, at most `turns` times. -/
def loop (body : Program S (Option α)) : Nat → Program S (Option α)
  | 0 => .done none
  | turns + 1 => body.bind fun
      | some value => .done (some value)
      | none => loop body turns

theorem interpret_loop_stop {σ : Type} {env : (op : S.Op) → σ → S.Reply op × σ}
    {body : Program S (Option α)} {s s' : σ} {value : α}
    (h : body.interpret env s = (some value, s')) (turns : Nat) :
    (loop body (turns + 1)).interpret env s = (some value, s') := by
  rw [loop, interpret_bind, h]
  rfl

theorem interpret_loop_again {σ : Type} {env : (op : S.Op) → σ → S.Reply op × σ}
    {body : Program S (Option α)} {s s' : σ} (h : body.interpret env s = (none, s')) (turns : Nat) :
    (loop body (turns + 1)).interpret env s = (loop body turns).interpret env s' := by
  rw [loop, interpret_bind, h]

/-! ## Lower signatures -/

/-- Perform each request by a program over a lower signature. -/
def handle (h : (op : S.Op) → Program T (S.Reply op)) : Program S α → Program T α
  | .done value => .done value
  | .request op next => (h op).bind fun reply => (next reply).handle h

@[simp] theorem handle_done (h : (op : S.Op) → Program T (S.Reply op)) (value : α) :
    (done value : Program S α).handle h = .done value := rfl

@[simp] theorem handle_request (h : (op : S.Op) → Program T (S.Reply op)) (op : S.Op)
    (next : S.Reply op → Program S α) :
    (request op next).handle h = (h op).bind fun reply => (next reply).handle h := rfl

/-- If each request is performed as the upper environment answers it, the two states staying related,
then the handled program does what the program itself does. -/
theorem interpret_handle {σ τ : Type} {h : (op : S.Op) → Program T (S.Reply op)}
    {upper : (op : S.Op) → σ → S.Reply op × σ} {lower : (op : T.Op) → τ → T.Reply op × τ}
    {R : τ → σ → Prop}
    (hperform : ∀ op t s, R t s →
      ∃ t', (h op).interpret lower t = ((upper op s).1, t') ∧ R t' (upper op s).2)
    (p : Program S α) {t : τ} {s : σ} (hR : R t s) :
    ∃ t', (p.handle h).interpret lower t = ((p.interpret upper s).1, t') ∧
      R t' (p.interpret upper s).2 := by
  induction p generalizing t s with
  | done value => exact ⟨t, rfl, hR⟩
  | request op next ih =>
      obtain ⟨t', hop, hR'⟩ := hperform op t s hR
      rw [handle_request, interpret_bind, hop]
      exact ih _ hR'

end Program

end Libcfd
