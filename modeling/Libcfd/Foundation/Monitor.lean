import Libcfd.Foundation.Polls

/-!
# Monitors: which request may follow which

A monitor goes along with a program. It says in each of its states which requests are allowed there,
and what it moves to with the reply. A program conforms to it if all its requests are allowed,
whatever the replies; then so are those of every execution, finished or abandoned on the way
(`Conforms.of_runs`), and what each request keeps of a relation to the state is kept by the whole
(`Conforms.keeps`).
-/

namespace Libcfd.Program

variable {S T : Signature} {α β : Type}

/-! ## Executions that may be abandoned -/

/-- With the replies recorded in `trace`, `p` has become `q`. -/
inductive Runs : Program S α → List (Event S) → Program S α → Prop
  | nil (p : Program S α) : Runs p [] p
  | cons {op : S.Op} {next : S.Reply op → Program S α} {trace : List (Event S)}
      {q : Program S α} (reply : S.Reply op) (h : Runs (next reply) trace q) :
      Runs (.request op next) (⟨op, reply⟩ :: trace) q

theorem exec_iff_runs {p : Program S α} {trace : List (Event S)} {a : α} :
    Exec p trace a ↔ Runs p trace (.done a) := by
  induction p generalizing trace with
  | done b =>
      rw [exec_done_iff]
      constructor
      · rintro ⟨rfl, rfl⟩
        exact .nil _
      · intro h
        cases h
        exact ⟨rfl, rfl⟩
  | request op next ih =>
      rw [exec_request_iff]
      constructor
      · rintro ⟨reply, rest, rfl, h⟩
        exact .cons reply ((ih reply).mp h)
      · intro h
        cases h with
        | cons reply h => exact ⟨reply, _, rfl, (ih reply).mpr h⟩

/-! ## Monitors -/

structure Monitor (S : Signature) where
  State : Type
  allows : State → S.Op → Prop
  next : State → (op : S.Op) → S.Reply op → State

namespace Monitor

/-- Where the monitor is after a trace. -/
def after (M : Monitor S) (s : M.State) (trace : List (Event S)) : M.State :=
  trace.foldl (fun s event => M.next s event.1 event.2) s

/-- Every request of the trace is allowed where it is made. -/
def Admits (M : Monitor S) : M.State → List (Event S) → Prop
  | _, [] => True
  | s, ⟨op, reply⟩ :: trace => M.allows s op ∧ M.Admits (M.next s op reply) trace

theorem admits_append_iff {M : Monitor S} {s : M.State} {xs ys : List (Event S)} :
    M.Admits s (xs ++ ys) ↔ M.Admits s xs ∧ M.Admits (M.after s xs) ys := by
  induction xs generalizing s with
  | nil => exact (and_iff_right trivial).symm
  | cons event xs ih =>
      obtain ⟨op, reply⟩ := event
      show M.allows s op ∧ M.Admits _ (xs ++ ys) ↔ (M.allows s op ∧ M.Admits _ xs) ∧ _
      rw [ih, and_assoc]
      rfl

end Monitor

/-- Every request of the program is allowed where it is made, and what it is done with is as `Q`
says. -/
def Conforms (M : Monitor S) : M.State → Program S α → (M.State → α → Prop) → Prop
  | s, .done a, Q => Q s a
  | s, .request op next, Q => M.allows s op ∧ ∀ reply, Conforms M (M.next s op reply) (next reply) Q

section

variable {M : Monitor S} {s : M.State} {p : Program S α} {Q Q' : M.State → α → Prop}

theorem Conforms.mono (h : Conforms M s p Q) (hQ : ∀ s a, Q s a → Q' s a) : Conforms M s p Q' := by
  induction p generalizing s with
  | done a => exact hQ s a h
  | request op next ih => exact ⟨h.1, fun reply => ih reply (h.2 reply)⟩

theorem Conforms.bind {f : α → Program S β} {R : M.State → β → Prop} (h : Conforms M s p Q)
    (hf : ∀ s a, Q s a → Conforms M s (f a) R) : Conforms M s (p.bind f) R := by
  induction p generalizing s with
  | done a => exact hf s a h
  | request op next ih => exact ⟨h.1, fun reply => ih reply (h.2 reply)⟩

/-- **Abandoned wherever it may be**, a program that conforms has done nothing that is not allowed,
and what is left of it conforms where the monitor is then. -/
theorem Conforms.of_runs {trace : List (Event S)} {q : Program S α} (h : Conforms M s p Q)
    (hruns : Runs p trace q) : M.Admits s trace ∧ Conforms M (M.after s trace) q Q := by
  induction hruns generalizing s with
  | nil p => exact ⟨trivial, h⟩
  | cons reply _ ih =>
      obtain ⟨hadmits, hrest⟩ := ih (h.2 reply)
      exact ⟨⟨h.1, hadmits⟩, hrest⟩

theorem Conforms.of_exec {trace : List (Event S)} {a : α} (h : Conforms M s p Q)
    (hexec : Exec p trace a) : M.Admits s trace ∧ Q (M.after s trace) a :=
  h.of_runs (exec_iff_runs.mp hexec)

end

/-! ## What goes along with the requests -/

/-- A state is led from `t` to `t'` by the events of a trace. -/
inductive Leads {τ : Type} (step : τ → Event S → τ → Prop) : τ → List (Event S) → τ → Prop
  | nil (t : τ) : Leads step t [] t
  | cons {t t' t'' : τ} {event : Event S} {trace : List (Event S)} (hstep : step t event t')
      (h : Leads step t' trace t'') : Leads step t (event :: trace) t''

section

variable {τ : Type} {step : τ → Event S → τ → Prop}

theorem leads_append_iff {t t'' : τ} {xs ys : List (Event S)} :
    Leads step t (xs ++ ys) t'' ↔ ∃ t', Leads step t xs t' ∧ Leads step t' ys t'' := by
  induction xs generalizing t with
  | nil =>
      constructor
      · intro h
        exact ⟨t, .nil t, h⟩
      · rintro ⟨t', hnil, h⟩
        cases hnil
        exact h
  | cons event xs ih =>
      constructor
      · intro h
        cases h with
        | cons hstep h =>
            obtain ⟨t', hxs, hys⟩ := ih.mp h
            exact ⟨t', .cons hstep hxs, hys⟩
      · rintro ⟨t', hcons, hys⟩
        cases hcons with
        | cons hstep hxs => exact .cons hstep (ih.mpr ⟨t', hxs, hys⟩)

/-- What every allowed request keeps between the monitor and the state is kept all along. -/
theorem Monitor.Admits.keeps {M : Monitor S} {R : M.State → τ → Prop}
    (hkeeps : ∀ s op reply t t', M.allows s op → step t ⟨op, reply⟩ t' → R s t →
      R (M.next s op reply) t')
    {s : M.State} {t t' : τ} {trace : List (Event S)} (h : M.Admits s trace)
    (hleads : Leads step t trace t') (hR : R s t) : R (M.after s trace) t' := by
  induction hleads generalizing s with
  | nil t => exact hR
  | @cons t t₁ t₂ event trace hstep _ ih =>
      obtain ⟨op, reply⟩ := event
      exact ih h.2 (hkeeps s op reply t t₁ h.1 hstep hR)

/-- The two together: a program that conforms keeps the relation, abandoned wherever it may be. -/
theorem Conforms.keeps {M : Monitor S} {R : M.State → τ → Prop}
    (hkeeps : ∀ s op reply t t', M.allows s op → step t ⟨op, reply⟩ t' → R s t →
      R (M.next s op reply) t')
    {s : M.State} {t t' : τ} {p q : Program S α} {Q : M.State → α → Prop}
    {trace : List (Event S)} (h : Conforms M s p Q) (hruns : Runs p trace q)
    (hleads : Leads step t trace t') (hR : R s t) : R (M.after s trace) t' :=
  (h.of_runs hruns).1.keeps hkeeps hleads hR

end

/-! ## Lower signatures -/

/-- A program conforms below if each request it may make is performed by one that does, the two
monitors staying related. -/
theorem Conforms.handle {M : Monitor S} {N : Monitor T} {R : N.State → M.State → Prop}
    {h : (op : S.Op) → Program T (S.Reply op)}
    (hperform : ∀ op t s, R t s → M.allows s op →
      Conforms N t (h op) fun t' reply => R t' (M.next s op reply))
    {p : Program S α} {Q : M.State → α → Prop} {s : M.State} {t : N.State}
    (hp : Conforms M s p Q) (hR : R t s) :
    Conforms N t (p.handle h) fun t' a => ∃ s', R t' s' ∧ Q s' a := by
  induction p generalizing s t with
  | done a => exact ⟨s, hR, hp⟩
  | request op next ih =>
      exact (hperform op t s hR hp.1).bind fun t' reply hR' => ih reply (hp.2 reply) hR'

/-! ## Writing -/

/-- A program that does nothing but write conforms where writes are allowed and change nothing. -/
theorem conforms_of_writes {Symbol Fault ε : Type} {E : Signature}
    {M : Monitor (Stream.signature Symbol Fault E)} {s : M.State}
    (hallows : ∀ symbols, M.allows s (.pollWrite symbols))
    (hnext : ∀ symbols reply, M.next s (.pollWrite symbols) reply = s)
    {w : Stream.StreamProgram Symbol Fault E (Except ε α)} (h : Stream.Writes w) :
    Conforms M s w fun s' _ => s' = s := by
  induction w with
  | done result => rfl
  | request op next ih =>
      cases op with
      | pollWrite symbols =>
          refine ⟨hallows symbols, fun reply => ?_⟩
          rw [hnext]
          rcases h reply with ⟨_, hwrites⟩ | ⟨e, hdone⟩
          · exact ih reply hwrites
          · rw [hdone]
            rfl
      | pollRead room => exact h.elim
      | effect op => exact h.elim

end Libcfd.Program
