import Libcfd.Rpc.Framing
import Libcfd.Rpc.Schema

/-!
# Messages over bytes

The two ends of a control stream write messages and read messages (`wire`). `overBytes` performs
these requests on a byte stream, with `capnp` to serialize what is written and to find the root of
what is read; nothing is assumed of `capnp` here.
-/

namespace Libcfd.Rpc

open Program Libcfd.Stream

inductive WireOp (E : Signature) where
  -- `write_raw` of the message, serialized
  | write (message : Message)
  -- `read_message`
  | read
  -- anything else the program asks for
  | effect (op : E.Op)

def wire (E : Signature) : Signature where
  Op := WireOp E
  Reply
    | .write _ => Except RpcError Unit
    | .read => Except RpcError Root
    | .effect op => E.Reply op

/-- Nothing else to ask for. -/
def noEffects : Signature := ⟨Empty, fun _ => Unit⟩

variable {E : Signature}

/-- A message written, with what came of it. -/
abbrev wrote (message : Message) (result : Except RpcError Unit) : Event (wire E) :=
  ⟨.write message, result⟩

/-- A message read, or why not. -/
abbrev gotten (result : Except RpcError Root) : Event (wire E) := ⟨.read, result⟩

@[simp] theorem gotten_ne_wrote (result : Except RpcError Root) (message : Message)
    (result' : Except RpcError Unit) : gotten (E := E) result ≠ wrote message result' :=
  nofun

@[simp] theorem gotten_inj {result result' : Except RpcError Root} :
    gotten (E := E) result = gotten result' ↔ result = result' := by
  constructor
  · intro h
    cases h
    rfl
  · exact congrArg gotten

/-- The `capnp` crate, as far as it is used. -/
structure Capnp (T : SegmentTable) where
  -- `serialize_message`
  serialize : Message → List UInt8
  getRoot : T.OwnedSegments → Root

def overBytes {T : SegmentTable} (C : Capnp T) (E : Signature) :
    (op : (wire E).Op) → StreamProgram UInt8 IoError E ((wire E).Reply op)
  | .write message => (writeRaw (C.serialize message) : Io E Unit).run
  | .read => (do return C.getRoot (← readMessage T) : Io E Root).run
  | .effect op => asking op .done

theorem coherent_overBytes {T : SegmentTable} (C : Capnp T) (op : (wire E).Op) :
    Coherent (overBytes C E op) := by
  cases op with
  | write message => exact coherent_writeAll (C.serialize message)
  | read => exact Io.coherent_bind (coherent_readMessage T) fun _ => Io.coherent_pure _
  | effect op => exact coherent_asking_iff.mpr coherent_done

end Libcfd.Rpc
