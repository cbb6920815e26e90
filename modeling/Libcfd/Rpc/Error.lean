import Libcfd.Foundation.Stream

/-!
# RPC errors, and programs that fail with them

`Io` is an async function of the RPC crate: a program over a byte stream that returns a `Result`.
A Rust panic unwinds through every `?` just as an error does, so it is one more constructor of
`RpcError`; where the code cannot panic that is a theorem.
-/

namespace Libcfd.Rpc

open Libcfd.Stream

/-- `std::io::Error`, by its message. -/
structure IoError where
  message : String
  deriving DecidableEq, Repr

inductive RpcError where
  | eof
  | protocol (message : String)
  | abort (reason : String) (errorType : UInt16)
  | remoteCall (reason : String)
  | io (error : IoError)
  -- not a variant of the source
  | panicked (message : String)
  deriving DecidableEq, Repr

/-- `capnp::Error`, by its message. -/
structure CapnpError where
  message : String
  deriving DecidableEq, Repr

structure NotInSchema where
  value : UInt16
  deriving DecidableEq, Repr

/-- `std::str::Utf8Error`, by its message. -/
structure Utf8Error where
  message : String
  deriving DecidableEq, Repr

/-! The conversions `?` applies. -/

def RpcError.ofCapnp (error : CapnpError) : RpcError := .protocol error.message

def RpcError.ofNotInSchema (error : NotInSchema) : RpcError :=
  .protocol ("value not in schema: NotInSchema(" ++ toString error.value ++ ")")

def RpcError.ofUtf8 (error : Utf8Error) : RpcError :=
  .protocol ("invalid utf-8 in message: " ++ error.message)

section Question

variable {ε α β : Type}

@[simp] theorem ok_bind (a : α) (f : α → Except ε β) : (Except.ok a >>= f) = f a := rfl

@[simp] theorem error_bind (e : ε) (f : α → Except ε β) : (Except.error e >>= f) = .error e := rfl

theorem bind_eq_ok {p : Except ε α} {f : α → Except ε β} {b : β} :
    (p >>= f) = .ok b ↔ ∃ a, p = .ok a ∧ f a = .ok b := by
  cases p with
  | error e =>
      rw [error_bind]
      exact ⟨nofun, fun ⟨_, h, _⟩ => nomatch h⟩
  | ok a =>
      rw [ok_bind]
      exact ⟨fun h => ⟨a, rfl, h⟩, fun ⟨_, ha, h⟩ => Except.ok.inj ha ▸ h⟩

@[simp] theorem throw_eq_error (e : ε) : (throw e : Except ε α) = .error e := rfl

@[simp] theorem pure_eq_ok (a : α) : (pure a : Except ε α) = .ok a := rfl

end Question

/-- An async function that makes the requests `S`. -/
def Async (S : Signature) (α : Type) : Type := Program S (Except RpcError α)

namespace Async

variable {S : Signature} {α β : Type}

/-- What comes after `?`. -/
def andThen (f : α → Async S β) : Except RpcError α → Program S (Except RpcError β)
  | .ok a => f a
  | .error e => .done (.error e)

instance : Monad (Async S) where
  pure a := Program.done (Except.ok a)
  bind p f := Program.bind p (andThen f)

instance : MonadLift (Except RpcError) (Async S) where
  monadLift result := Program.done result

/-- The program behind an async function. -/
def run (p : Async S α) : Program S (Except RpcError α) := p

@[simp] theorem run_pure (a : α) : (pure a : Async S α).run = .done (.ok a) := rfl

@[simp] theorem run_bind (p : Async S α) (f : α → Async S β) :
    (p >>= f).run = p.run.bind (andThen fun a => (f a).run) := rfl

@[simp] theorem run_lift (result : Except RpcError α) :
    (liftM result : Async S α).run = .done result := rfl

@[simp] theorem andThen_ok (f : α → Async S β) (a : α) : andThen f (.ok a) = f a := rfl

@[simp] theorem andThen_error (f : α → Async S β) (e : RpcError) :
    andThen f (.error e) = .done (.error e) := rfl

/-! `?` on a result. -/

@[simp] theorem run_ok_bind (a : α) (f : α → Async S β) :
    (liftM (Except.ok a : Except RpcError α) >>= f : Async S β).run = (f a).run := rfl

@[simp] theorem run_error_bind (e : RpcError) (f : α → Async S β) :
    (liftM (Except.error e : Except RpcError α) >>= f : Async S β).run = .done (.error e) := rfl

end Async

/-- An async function over a byte stream with the further requests `E`. -/
abbrev Io (E : Signature) (α : Type) : Type := Async (Stream.signature UInt8 IoError E) α

namespace Io

variable {E : Signature} {α β : Type}

theorem coherent_pure (a : α) : Coherent (pure a : Io E α).run :=
  coherent_done _

theorem coherent_lift (result : Except RpcError α) : Coherent (liftM result : Io E α).run :=
  coherent_done _

theorem coherent_bind {p : Io E α} {f : α → Io E β} (h : Coherent p.run)
    (hf : ∀ a, Coherent (f a).run) : Coherent (p >>= f).run := by
  rw [Async.run_bind]
  refine h.bind fun result => ?_
  cases result with
  | ok a => exact hf a
  | error e => exact coherent_done _

/-! Readers, up to the first error. -/

theorem reads_lift {computed result : Except RpcError α} (h : computed = result)
    (input : List UInt8) : Reads (liftM computed : Io E α).run input result input :=
  h ▸ .done computed input

theorem reads_bind {p : Io E α} {f : α → Io E β} {input middle rest : List UInt8} {a : α}
    {result : Except RpcError β} (h : Reads p.run input (.ok a) middle)
    (hf : Reads (f a).run middle result rest) : Reads (p >>= f).run input result rest :=
  h.bind hf

theorem reads_bind_error {p : Io E α} {f : α → Io E β} {input rest : List UInt8} {e : RpcError}
    (h : Reads p.run input (.error e) rest) : Reads (p >>= f).run input (.error e) rest :=
  h.bind (.done _ rest)

end Io

end Libcfd.Rpc
