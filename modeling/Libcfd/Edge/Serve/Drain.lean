import Libcfd.Foundation.Loop

/-!
# `drain_unread`

Once the response to an HTTP request is written, a task of its own reads what the handler has left
of the request. It ends with the stream, or it gives up: after 256 KiB, after so many reads, once a
read fails, or once a read takes too long. Whoever gives up stops the read side.
-/

namespace Libcfd.Edge.Serve

open Libcfd.Loop

/-- What has been drained, and in how many reads. -/
structure Drain where
  total : Nat
  read : Nat
  deriving DecidableEq, Repr

namespace Drain

/-- `DRAIN_LIMIT`. -/
def limit : Nat := 256 * 1024

/-- The length of the buffer. -/
def bufferSize : Nat := 8192

def maxReads : Nat := 4096

def new : Drain := ⟨0, 0⟩

variable {Fault : Type}

/-- One turn of the loop, by what the read comes to, or `none` after `DRAIN_TIMEOUT`. The loop is
left with `gave_up`. -/
def turn (drain : Drain) : Option (Except Fault Nat) → Turn Drain Bool
  | some (.ok n) =>
      if 0 < n then
        -- `saturating_add`
        let total := min (drain.total + n) (2 ^ 64 - 1)
        if limit ≤ total then .leave true
        else if maxReads < drain.read + 1 then .leave true
        else .again ⟨total, drain.read + 1⟩
      else .leave false
  | some (.error _) => .leave true
  | none => .leave true

/-- The loop is left without giving up at the end of the stream only. -/
theorem eq_end_of_turn {drain : Drain} {outcome : Option (Except Fault Nat)}
    (h : drain.turn outcome = .leave false) : outcome = some (.ok 0) := by
  match outcome with
  | some (.ok 0) => rfl
  | some (.ok (n + 1)) =>
      rw [turn, if_pos (Nat.succ_pos n)] at h
      dsimp only at h
      split at h
      · cases h
      · split at h <;> cases h
  | some (.error _) => cases h
  | none => cases h

end Drain

end Libcfd.Edge.Serve
