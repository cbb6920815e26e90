import Libcfd.Rpc.Error
import Mathlib.Algebra.Group.Int.Defs
import Mathlib.Algebra.GroupWithZero.Nat

/-!
# Message I/O

`read_message`, `write_raw` and the two loops under them. The sizes are `usize` on a 64-bit target:
natural numbers, with the overflow checks and the slicing bounds written out where the source
relies on them. `u32::from_le_bytes` yields a number below `2 ^ 32`.
-/

namespace Libcfd.Rpc

open Libcfd.Stream

variable {E : Signature}

/-! ## The loops -/

/-- `read_exact`, with `filled` of the buffer already filled. -/
def readExactFrom (filled : List UInt8) (room : Nat) : Io E (List UInt8) :=
  if room = 0 then pure filled
  else
    reading room fun
      | .error e => .done (.error (.io e))
      | .ok ⟨piece, _⟩ =>
          if _hpiece : piece.length = 0 then .done (.error .eof)
          else readExactFrom (filled ++ piece) (room - piece.length)
termination_by room

/-- `read_exact` into a buffer of `room` bytes, which it returns. -/
def readExact (room : Nat) : Io E (List UInt8) := readExactFrom [] room

theorem run_readExactFrom_zero (filled : List UInt8) :
    (readExactFrom (E := E) filled 0).run = .done (.ok filled) := by
  rw [readExactFrom]
  rfl

/-- What one turn of the loop does with what it gets. -/
theorem run_readExactFrom (filled : List UInt8) {room : Nat} (hroom : room ≠ 0) :
    ∃ next, (readExactFrom (E := E) filled room).run = reading room next ∧
      (∀ e, next (.error e) = .done (.error (.io e))) ∧
      (∀ h, next (.ok ⟨[], h⟩) = .done (.error .eof)) ∧
      ∀ piece h, piece ≠ [] → next (.ok ⟨piece, h⟩) =
        (readExactFrom (filled ++ piece) (room - piece.length)).run := by
  rw [readExactFrom]
  refine ⟨_, if_neg hroom, fun e => rfl, fun h => rfl, fun piece h hne => ?_⟩
  exact dif_neg fun hlength => hne (List.length_eq_zero_iff.mp hlength)

theorem coherent_readExactFrom (filled : List UInt8) (room : Nat) :
    Coherent (readExactFrom (E := E) filled room).run := by
  induction room using Nat.strongRecOn generalizing filled with
  | ind room ih =>
      by_cases hroom : room = 0
      · rw [hroom, run_readExactFrom_zero]
        exact coherent_done _
      obtain ⟨next, heq, herror, hend, hpiece⟩ := run_readExactFrom (E := E) filled hroom
      rw [heq, coherent_reading_iff]
      refine ⟨⟨Nat.pos_of_ne_zero hroom, fun xs hxs hne => ?_⟩, fun reply => ?_⟩
      · obtain ⟨next', heq', _, _, hpiece'⟩ :=
          run_readExactFrom (E := E) (filled ++ xs) (Nat.sub_ne_zero_of_lt hxs)
        refine ⟨next', (hpiece xs _ hne).trans heq', fun ys hys htotal hne' => ?_⟩
        have hboth : xs ++ ys ≠ [] := List.append_ne_nil_of_left_ne_nil hne ys
        rw [hpiece' ys hys hne', hpiece (xs ++ ys) htotal hboth, List.append_assoc,
          List.length_append, Nat.sub_sub]
      · match reply with
        | .error e =>
            rw [herror]
            exact coherent_done _
        | .ok ⟨piece, h⟩ =>
            by_cases hne : piece = []
            · subst hne
              rw [hend]
              exact coherent_done _
            · have hpos : 0 < piece.length := List.length_pos_iff.mpr hne
              rw [hpiece piece h hne]
              exact ih (room - piece.length) (by omega) _

/-- The loop takes up whatever comes, as long as there is room. -/
theorem receives_readExactFrom {xs filled : List UInt8} {room : Nat} (h : xs.length ≤ room) :
    Receives (readExactFrom (E := E) filled room).run xs
      (readExactFrom (filled ++ xs) (room - xs.length)).run := by
  cases xs with
  | nil =>
      rw [List.append_nil]
      exact .nil _
  | cons x xs =>
      have hroom : room ≠ 0 := Nat.ne_of_gt (Nat.lt_of_lt_of_le (Nat.succ_pos _) h)
      have hcoherent := coherent_readExactFrom (E := E) filled room
      obtain ⟨next, heq, _, _, hpiece⟩ := run_readExactFrom (E := E) filled hroom
      rw [← hpiece (x :: xs) h (List.cons_ne_nil x xs)]
      rw [heq] at hcoherent ⊢
      exact receives_piece hcoherent h (List.cons_ne_nil x xs)

theorem receives_readExact {room : Nat} {bytes : List UInt8} (h : bytes.length = room) :
    Receives (readExact (E := E) room).run bytes (.done (.ok bytes)) := by
  have hreceives := @receives_readExactFrom E bytes [] _ (Nat.le_of_eq h)
  rwa [h, Nat.sub_self, run_readExactFrom_zero] at hreceives

theorem reads_readExact {room : Nat} {input : List UInt8} (h : room ≤ input.length) :
    Reads (readExact (E := E) room).run input (.ok (input.take room)) (input.drop room) := by
  have hreceives := receives_readExact (E := E) (List.length_take_of_le h)
  have hreads := Reads.complete hreceives (input.drop room)
  rwa [List.take_append_drop] at hreads

theorem reads_readExact_eof {room : Nat} {input : List UInt8} (h : input.length < room) :
    Reads (readExact (E := E) room).run input (.error .eof) [] := by
  have hreceives := @receives_readExactFrom E input [] _ (Nat.le_of_lt h)
  obtain ⟨next, heq, _, hend, _⟩ :=
    run_readExactFrom (E := E) ([] ++ input) (Nat.sub_ne_zero_of_lt h)
  rw [heq] at hreceives
  refine .starved hreceives ?_
  rw [hend]
  exact .done _ []

def writeAll (buffer : List UInt8) : Io E Unit :=
  if _hbuffer : buffer = [] then pure ()
  else
    writing buffer fun
      | .error e => .done (.error (.io e))
      | .ok ⟨n, _⟩ =>
          if _hn : n = 0 then .done (.error (.protocol "write returned zero bytes"))
          else writeAll (buffer.drop n)
termination_by buffer.length
decreasing_by
  have _hlength : 0 < buffer.length := List.length_pos_iff.mpr _hbuffer
  rw [List.length_drop]
  omega

theorem run_writeAll_nil : (writeAll (E := E) []).run = .done (.ok ()) := by
  rw [writeAll]
  rfl

theorem run_writeAll {buffer : List UInt8} (hne : buffer ≠ []) :
    ∃ next, (writeAll (E := E) buffer).run = writing buffer next ∧
      (∀ e, next (.error e) = .done (.error (.io e))) ∧
      (∀ h, next (.ok ⟨0, h⟩) = .done (.error (.protocol "write returned zero bytes"))) ∧
      ∀ n h, 0 < n → next (.ok ⟨n, h⟩) = (writeAll (buffer.drop n)).run := by
  rw [writeAll]
  exact ⟨_, dif_neg hne, fun e => rfl, fun h => rfl, fun n h hpos => dif_neg (Nat.ne_of_gt hpos)⟩

theorem coherent_writeAll (buffer : List UInt8) : Coherent (writeAll (E := E) buffer).run := by
  induction hsize : buffer.length using Nat.strongRecOn generalizing buffer with
  | ind size ih =>
      by_cases hne : buffer = []
      · rw [hne, run_writeAll_nil]
        exact coherent_done _
      obtain ⟨next, heq, herror, hzero, hsome⟩ := run_writeAll (E := E) hne
      rw [heq, coherent_writing_iff]
      refine ⟨⟨hne, fun n hn hpos => ?_⟩, fun reply => ?_⟩
      · have hrest : buffer.drop n ≠ [] := by
          rw [Ne, List.drop_eq_nil_iff]
          omega
        obtain ⟨next', heq', _, _, hsome'⟩ := run_writeAll (E := E) hrest
        refine ⟨next', (hsome n _ hpos).trans heq', fun m hm htotal hpos' => ?_⟩
        rw [hsome' m hm hpos', hsome (n + m) htotal (Nat.add_pos_left hpos m), List.drop_drop]
      · match reply with
        | .error e =>
            rw [herror]
            exact coherent_done _
        | .ok ⟨0, h⟩ =>
            rw [hzero]
            exact coherent_done _
        | .ok ⟨n + 1, h⟩ =>
            have hlength : 0 < buffer.length := List.length_pos_iff.mpr hne
            have hdrop : (buffer.drop (n + 1)).length < size := by
              rw [List.length_drop]
              omega
            rw [hsome (n + 1) h (Nat.succ_pos n)]
            exact ih _ hdrop _ rfl

theorem sends_writeAll (buffer : List UInt8) :
    Sends (writeAll (E := E) buffer).run buffer (.done (.ok ())) := by
  by_cases hne : buffer = []
  · rw [hne, run_writeAll_nil]
    exact .nil _
  have hcoherent := coherent_writeAll (E := E) buffer
  obtain ⟨next, heq, _, _, hsome⟩ := run_writeAll (E := E) hne
  rw [heq] at hcoherent ⊢
  have hsends := sends_taken hcoherent (Nat.le_refl _) (List.length_pos_iff.mpr hne)
  rwa [hsome _ _ (List.length_pos_iff.mpr hne), List.drop_length, run_writeAll_nil,
    List.take_length] at hsends

def writeRaw (bytes : List UInt8) : Io E Unit := writeAll bytes

/-! ## Arithmetic and slices -/

/-- `bytes[start..stop]`. -/
def slice (bytes : List UInt8) (start stop : Nat) : Except RpcError (List UInt8) :=
  if start ≤ stop ∧ stop ≤ bytes.length then .ok ((bytes.take stop).drop start)
  else .error (.panicked "slice index out of range")

/-- `u32::from_le_bytes(bytes.try_into().expect("4 bytes"))`. -/
def leU32 : List UInt8 → Except RpcError Nat
  | [a, b, c, d] => .ok (a.toNat + 256 * b.toNat + 65536 * c.toNat + 16777216 * d.toNat)
  | _ => .error (.panicked "4 bytes")

def wrappingAdd32 (a b : Nat) : Nat := (a + b) % 2 ^ 32

def saturatingAdd (a b : Nat) : Nat := min (a + b) (2 ^ 64 - 1)

/-- A `usize` result, if it is one. -/
def checked (value : Int) : Except RpcError Nat :=
  if 0 ≤ value ∧ value < 2 ^ 64 then .ok value.toNat
  else .error (.panicked "arithmetic overflow")

/-! ## The segment table -/

/-- `capnp::serialize::SegmentLengthsBuilder` and `OwnedSegments`: the builder records the lengths
pushed, and the segments it is turned into are a buffer of their total size, cut at these
lengths. -/
structure SegmentTable where
  Builder : Type
  OwnedSegments : Type
  withCapacity : Nat → Builder
  tryPushSegment : Builder → Nat → Except CapnpError Builder
  intoOwnedSegments : Builder → OwnedSegments
  -- the length in bytes of the buffer, and the buffer with these bytes in it
  length : OwnedSegments → Nat
  fill : OwnedSegments → List UInt8 → OwnedSegments
  -- the segments a reader finds in it
  segments : OwnedSegments → List (List UInt8)
  lengths : Builder → List Nat
  lengths_withCapacity : ∀ n, lengths (withCapacity n) = []
  -- pushing fails on no total below the address space
  tryPushSegment_ok : ∀ builder words, 8 * ((lengths builder).sum + words) < 2 ^ 64 →
    ∃ builder', tryPushSegment builder words = .ok builder' ∧
      lengths builder' = lengths builder ++ [words]
  length_intoOwnedSegments : ∀ builder,
    length (intoOwnedSegments builder) = 8 * (lengths builder).sum
  segments_fill : ∀ builder (parts : List (List UInt8)),
    parts.map List.length = (lengths builder).map (8 * ·) →
      segments (fill (intoOwnedSegments builder) parts.flatten) = parts

/-- `MAXIMUM_TOTAL_WORDS`. -/
def maximumTotalWords : Nat := 8 * 1024 * 1024

def tooLarge (totalWords : Nat) : RpcError :=
  .protocol ("message too large: " ++ toString totalWords ++ " words exceeds limit of " ++
    toString maximumTotalWords)

variable (T : SegmentTable)

/-- `builder.try_push_segment(length)?`. -/
def pushSegment (builder : T.Builder) (words : Nat) : Except RpcError T.Builder :=
  match T.tryPushSegment builder words with
  | .ok builder' => .ok builder'
  | .error e => .error (.ofCapnp e)

/-- The check on the total so far and the push, as made for every segment. -/
def addSegment (state : T.Builder × Nat) (words : Nat) : Except RpcError (T.Builder × Nat) := do
  let totalWords := saturatingAdd state.2 words
  if totalWords > maximumTotalWords then
    throw (tooLarge totalWords)
  let builder ← pushSegment T state.1 words
  return (builder, totalWords)

/-- The body of the loop over the rest of the segment table. -/
def addSegmentAt (sizes : List UInt8) (state : T.Builder × Nat) (i : Nat) :
    Except RpcError (T.Builder × Nat) := do
  let offset ← checked ((i - 1) * 4)
  let stop ← checked (offset + 4)
  let bytes ← slice sizes offset stop
  let length ← leU32 bytes
  addSegment T state length

/-- The number of segments and the first length. -/
def readHeader (header : List UInt8) : Except RpcError (Nat × Nat) := do
  let countBytes ← slice header 0 4
  let segmentCount := wrappingAdd32 (← leU32 countBytes) 1
  if segmentCount = 0 ∨ segmentCount > 512 then
    throw (.protocol ("invalid segment count " ++ toString segmentCount))
  let firstBytes ← slice header 4 8
  let first ← leU32 firstBytes
  return (segmentCount, first)

/-- `(4 + 4 * segment_count + 7) & !7`, less the eight bytes already read. -/
def restOfHeader (segmentCount : Nat) : Except RpcError Nat := do
  let unaligned ← checked (4 + 4 * segmentCount + 7)
  checked ((unaligned - unaligned % 8 : Nat) - 8)

/-- The rest of the segment table, which a message of one segment does not have. -/
def readLengths (segmentCount : Nat) (state : T.Builder × Nat) : Io E (T.Builder × Nat) := do
  if segmentCount > 1 then
    let sizes ← readExact (← restOfHeader segmentCount)
    liftM ((List.range' 1 (segmentCount - 1)).foldlM (addSegmentAt T sizes) state)
  else
    pure state

def readMessage : Io E T.OwnedSegments := do
  let header ← readExact 8
  let (segmentCount, first) ← readHeader header
  let state ← addSegment T (T.withCapacity segmentCount, 0) first
  let (builder, _) ← readLengths T segmentCount state
  let segments := T.intoOwnedSegments builder
  let bytes ← readExact (T.length segments)
  return T.fill segments bytes

end Libcfd.Rpc
